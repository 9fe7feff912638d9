import FrameAtlas.Cursor.Input
import FrameAtlas.Proofs.Cursor.Commit
import FrameAtlas.Scalar.Exact
import Mathlib.Data.List.Induction
import Mathlib.Tactic.NormNum

/-!
The position of the cursor over a history of inputs. The strip is due to be measured just after something has moved
the highlight, changed the number of frames or been told of new elements since the last question for the position;
so, as long as new elements are told of in time, every question is answered as the strip stands at that moment.
-/

namespace FrameAtlas

variable {α : Type}

def CursorInput.isQuestion : CursorInput α → Bool
  | .askX _ => true
  | _ => false

/-- The strip looks the same at two questions in a row, unless its elements are told to have changed in between. -/
def AnnouncesChanges (inputs : List (CursorInput α)) : Prop :=
  ∀ (before between rest : List (CursorInput α)) (old new : StripBounds α),
    inputs = before ++ .askX old :: (between ++ .askX new :: rest) →
    (∀ e ∈ between, e.isQuestion = false) → new = old ∨ .elementsChanged ∈ between

theorem AnnouncesChanges.of_append {inputs later : List (CursorInput α)} (h : AnnouncesChanges (inputs ++ later)) :
    AnnouncesChanges inputs := by
  rintro before between rest old new rfl hbetween
  apply h before between (rest ++ later) old new _ hbetween
  simp only [List.append_assoc, List.cons_append]

/-- A split of a history with one more input is a split of the history, or ends with that input. -/
theorem split_of_concat {inputs before since : List (CursorInput α)} {last e : CursorInput α}
    (h : inputs ++ [last] = before ++ e :: since) :
    (since = [] ∧ inputs = before ∧ last = e) ∨
      ∃ earlier, since = earlier ++ [last] ∧ inputs = before ++ e :: earlier := by
  rcases List.eq_nil_or_concat since with rfl | ⟨earlier, other, rfl⟩
  · obtain ⟨hbefore, hlast⟩ := List.append_inj' h rfl
    exact .inl ⟨rfl, hbefore, List.head_eq_of_cons_eq hlast⟩
  · have h' : inputs ++ [last] = (before ++ e :: earlier) ++ [other] := by
      rw [h, List.concat_eq_append, List.append_assoc, List.cons_append]
    obtain ⟨hbefore, hlast⟩ := List.append_inj' h' rfl
    rw [List.head_eq_of_cons_eq hlast, List.concat_eq_append]
    exact .inr ⟨earlier, rfl, hbefore⟩

namespace Cursor

/-- Whether a number is where the cursor stands on a strip: at the center of the highlighted element as seen from
the container, or at zero if the highlight is no frame or has no element. -/
structure StandsAtX [Scalar α] (c : Cursor α) (bounds : StripBounds α) (x : α) : Prop where
  shown : ∀ rect, c.highlighted < c.frameCount → bounds.element c.highlighted = some rect →
    x = rect.centerX - bounds.container.x
  missing : c.frameCount ≤ c.highlighted ∨ bounds.element c.highlighted = none → x = ((0 : Nat) : α)

/-- The number measured is where the cursor stands. -/
theorem standsAtX_measure [Scalar α] (c : Cursor α) (bounds : StripBounds α) :
    c.StandsAtX bounds (c.measure bounds) := by
  constructor
  · intro rect hinside helement
    rw [measure, if_neg (Nat.not_le.2 hinside), helement]
  · rintro (houtside | hnone)
    · rw [measure, if_pos houtside]
    · rw [measure, hnone]
      split <;> rfl

structure Marks (c d : Cursor α) : Prop where
  measuredX : d.measuredX = c.measuredX
  dirty : d.dirty = true ↔ c.dirty = true ∨ d.highlighted ≠ c.highlighted ∨ d.frameCount ≠ c.frameCount

theorem Marks.refl (c : Cursor α) : c.Marks c := ⟨rfl, by simp⟩

/-- A highlight, with whatever becomes of the drag. -/
theorem marks_highlight (c : Cursor α) (drag : Option Nat) (position : Nat) :
    c.Marks ({ c with drag := drag }.highlight position) := by
  unfold highlight
  split
  · exact ⟨rfl, by simp⟩
  · rename_i hother
    exact ⟨rfl, by simpa using .inr hother⟩

theorem marks_setFrameCount (c : Cursor α) (count : Nat) : c.Marks (c.setFrameCount count) := by
  unfold setFrameCount
  split
  · exact Marks.refl c
  · rename_i hother
    exact ⟨rfl, by simpa using .inr hother⟩

theorem marks_syncFrom (c : Cursor α) (store : SelectionStore) : c.Marks (c.syncFrom store) := by
  unfold syncFrom
  split
  · split
    · exact Marks.refl c
    · exact marks_highlight c c.drag _
  · exact Marks.refl c

theorem marks_pointerUp (c : Cursor α) (store : SelectionStore) : c.Marks (c.pointerUp store).cursor := by
  rcases pointerUp_split c store with ⟨-, hidle⟩ | ⟨i, -, hup⟩
  · rw [hidle]
    exact Marks.refl c
  · rw [hup]
    exact ⟨rfl, by simp [committed]⟩

theorem marks_select (c : Cursor α) (position : Nat) (store : SelectionStore) :
    c.Marks (c.select position store).cursor := by
  rcases select_split c position store with ⟨-, hidle⟩ | ⟨i, -, hselect⟩
  · rw [hidle]
    exact Marks.refl c
  · rw [hselect]
    exact marks_highlight c c.drag i

theorem marks_step (c : Cursor α) (direction : Direction) (store : SelectionStore) :
    c.Marks (c.step direction store).cursor := by
  rcases step_split c direction store with ⟨-, hidle⟩ | ⟨i, -, hstep⟩
  · rw [hidle]
    exact Marks.refl c
  · rw [hstep]
    exact marks_highlight c c.drag i

variable [Scalar α]

theorem marks_pointerDown (c : Cursor α) (hit : Option Nat) (x width : α) :
    c.Marks (c.pointerDown hit x width).2 := by
  rcases pointerDown_split c hit x width with hidle | ⟨i, -, hdown⟩
  · rw [hidle]
    exact Marks.refl c
  · rw [hdown]
    exact marks_highlight c (some i) i

theorem marks_pointerMove (c : Cursor α) (hit : Option Nat) (x width : α) :
    c.Marks (c.pointerMove hit x width).2 := by
  rcases pointerMove_split c hit x width with hidle | ⟨last, i, -, -, -, hmove⟩
  · rw [hidle]
    exact Marks.refl c
  · rw [hmove]
    exact marks_highlight c (some i) i

theorem dirty_x (c : Cursor α) (bounds : StripBounds α) : (c.x bounds).2.dirty = false := by
  unfold x
  split
  · rfl
  · rename_i hclean
    simpa using hclean

/-- A measurement that is not due is not taken, so the strip has no part in the answer. -/
theorem x_eq_of_clean {c : Cursor α} (h : c.dirty = false) (bounds : StripBounds α) :
    c.x bounds = (c.measuredX, c) := by
  rw [x, h, if_neg Bool.false_ne_true]

end Cursor

namespace CursorDesk

variable [Scalar α]

theorem after_append (d : CursorDesk α) (first second : List (CursorInput α)) :
    d.after (first ++ second) = (d.after first).after second := List.foldl_append

def Disturbs (d : CursorDesk α) (e : CursorInput α) : Prop :=
  e = .elementsChanged ∨ (d.handle e).desk.cursor.highlighted ≠ d.cursor.highlighted ∨
    (d.handle e).desk.cursor.frameCount ≠ d.cursor.frameCount

/-- Whether a history leaves the strip to be measured: no question was asked yet, or since the last one an input
has disturbed the measurement. -/
def IsMeasureDue (d : CursorDesk α) (inputs : List (CursorInput α)) : Prop :=
  (∀ e ∈ inputs, e.isQuestion = false) ∨
    ∃ before e since, inputs = before ++ e :: since ∧ (d.after before).Disturbs e ∧
      ∀ e' ∈ since, e'.isQuestion = false

/-- A notification and a question apart, an input has the strip measured just where it changes what is measured. -/
theorem marks_handle (d : CursorDesk α) {e : CursorInput α} (hquestion : e.isQuestion = false)
    (hnotice : e ≠ .elementsChanged) : d.cursor.Marks (d.handle e).desk.cursor := by
  cases e with
  | askX bounds => contradiction
  | elementsChanged => contradiction
  | pointerDown hit x width => exact Cursor.marks_pointerDown _ _ _ _
  | pointerMove hit x width => exact Cursor.marks_pointerMove _ _ _ _
  | pointerUp => exact Cursor.marks_pointerUp _ _
  | step direction => exact Cursor.marks_step _ _ _
  | select position => exact Cursor.marks_select _ _ _
  | syncFrom => exact Cursor.marks_syncFrom _ _
  | setFrameCount count => exact Cursor.marks_setFrameCount _ _
  | commit position => exact Cursor.Marks.refl _
  | clear => exact Cursor.Marks.refl _
  | subscribe => exact Cursor.Marks.refl _
  | unsubscribe id => exact Cursor.Marks.refl _

theorem not_disturbs_askX (d : CursorDesk α) (bounds : StripBounds α) : ¬ d.Disturbs (.askX bounds) := by
  rintro (hnotice | hhighlighted | hcount)
  · contradiction
  · exact hhighlighted (Cursor.highlighted_x _ _)
  · exact hcount (Cursor.frameCount_x _ _)

/-- The step of the flag: a disturbance raises it, a question lowers it, and all else leaves it. -/
theorem dirty_handle (d : CursorDesk α) (e : CursorInput α) :
    (d.handle e).desk.cursor.dirty = true ↔
      d.Disturbs e ∨ d.cursor.dirty = true ∧ e.isQuestion = false := by
  by_cases hquestion : e.isQuestion = false
  · by_cases hnotice : e = .elementsChanged
    · rw [hnotice]
      exact ⟨fun _ => .inl (.inl rfl), fun _ => rfl⟩
    · rw [(marks_handle d hquestion hnotice).dirty, Disturbs]
      simp only [hnotice, hquestion, false_or, and_true]
      exact Or.comm
  · cases e with
    | askX bounds =>
      have hclean : (d.handle (.askX bounds)).desk.cursor.dirty = false := Cursor.dirty_x _ _
      simp [hclean, not_disturbs_askX, CursorInput.isQuestion]
    | _ => exact absurd rfl hquestion

/-- A measurement is due after an input that disturbs it, and stays due up to the next question. -/
theorem isMeasureDue_concat (d : CursorDesk α) (inputs : List (CursorInput α)) (e : CursorInput α) :
    d.IsMeasureDue (inputs ++ [e]) ↔
      (d.after inputs).Disturbs e ∨ d.IsMeasureDue inputs ∧ e.isQuestion = false := by
  constructor
  · rintro (hnone | ⟨before, e', since, hsplit, hdisturbs, hsince⟩)
    · obtain ⟨hinputs, hlast⟩ := List.forall_mem_append.1 hnone
      exact .inr ⟨.inl hinputs, hlast e List.mem_cons_self⟩
    · obtain ⟨rfl, rfl, rfl⟩ | ⟨earlier, rfl, hinputs⟩ := split_of_concat hsplit
      · exact .inl hdisturbs
      · obtain ⟨hearlier, hlast⟩ := List.forall_mem_append.1 hsince
        exact .inr ⟨.inr ⟨before, e', earlier, hinputs, hdisturbs, hearlier⟩, hlast e List.mem_cons_self⟩
  · rintro (hdisturbs | ⟨hnone | ⟨before, e', since, rfl, hdisturbs, hsince⟩, hquestion⟩)
    · exact .inr ⟨inputs, e, [], rfl, hdisturbs, List.forall_mem_nil _⟩
    · exact .inl (List.forall_mem_append.2 ⟨hnone, List.forall_mem_singleton.2 hquestion⟩)
    · refine .inr ⟨before, e', since ++ [e], by simp, hdisturbs, ?_⟩
      exact List.forall_mem_append.2 ⟨hsince, List.forall_mem_singleton.2 hquestion⟩

/-- The run of the flag: on a new cursor it is up just when a measurement is due. -/
theorem dirty_after (count : Nat) (store : SelectionStore) (inputs : List (CursorInput α)) :
    ((⟨.create count, store⟩ : CursorDesk α).after inputs).cursor.dirty = true ↔
      (⟨.create count, store⟩ : CursorDesk α).IsMeasureDue inputs := by
  induction inputs using List.reverseRecOn with
  | nil => exact ⟨fun _ => .inl (List.forall_mem_nil _), fun _ => rfl⟩
  | append_singleton inputs e ih =>
    rw [isMeasureDue_concat, ← ih, after_append]
    exact dirty_handle _ e

/-- A history after which a measurement that is not due shows the strip as it was at the last question. -/
def ShowsLastStrip (d : CursorDesk α) (inputs : List (CursorInput α)) : Prop :=
  (d.after inputs).cursor.dirty = false →
    ∃ before bounds since, inputs = before ++ .askX bounds :: since ∧ (∀ e ∈ since, e.isQuestion = false) ∧
      .elementsChanged ∉ since ∧ (d.after inputs).cursor.measuredX = (d.after inputs).cursor.measure bounds

/-- So a question that follows finds the measurement right for the strip that it brings. -/
theorem ShowsLastStrip.isMeasured {d : CursorDesk α} {inputs : List (CursorInput α)} (h : d.ShowsLastStrip inputs)
    {bounds : StripBounds α} (hchanges : AnnouncesChanges (inputs ++ [.askX bounds])) :
    (d.after inputs).cursor.IsMeasured bounds := by
  intro hclean
  obtain ⟨before, old, since, rfl, hsince, hnotice, hmeasured⟩ := h hclean
  obtain rfl : bounds = old := by
    refine (hchanges before since [] old bounds ?_ hsince).resolve_right hnotice
    simp only [List.append_assoc, List.cons_append]
  exact hmeasured

theorem ShowsLastStrip.concat {d : CursorDesk α} {inputs : List (CursorInput α)} (h : d.ShowsLastStrip inputs)
    {e : CursorInput α} (hchanges : AnnouncesChanges (inputs ++ [e])) : d.ShowsLastStrip (inputs ++ [e]) := by
  intro hclean
  have hafter : d.after (inputs ++ [e]) = ((d.after inputs).handle e).desk := after_append d inputs [e]
  rw [hafter] at hclean ⊢
  by_cases hquestion : e.isQuestion = false
  · have hstep := (dirty_handle (d.after inputs) e).not.1 (by rw [hclean]; exact Bool.false_ne_true)
    rw [not_or, hquestion, and_iff_left rfl, Bool.not_eq_true] at hstep
    obtain ⟨hcalm, hwas⟩ := hstep
    -- The flag is still down, so the input has left all that the measurement was taken from.
    rw [Disturbs, not_or, not_or, not_not, not_not] at hcalm
    obtain ⟨hnotice, hhighlighted, hcount⟩ := hcalm
    obtain ⟨before, bounds, since, hsplit, hsince, hnone, hmeasured⟩ := h hwas
    refine ⟨before, bounds, since ++ [e], by rw [hsplit]; simp, ?_, ?_, ?_⟩
    · exact List.forall_mem_append.2 ⟨hsince, List.forall_mem_singleton.2 hquestion⟩
    · simpa [hnone] using Ne.symm hnotice
    · rw [(marks_handle _ hquestion hnotice).measuredX, hmeasured]
      exact (Cursor.measure_congr hcount hhighlighted bounds).symm
  · cases e with
    | askX bounds =>
      refine ⟨inputs, bounds, [], rfl, List.forall_mem_nil _, List.not_mem_nil, ?_⟩
      exact (h.isMeasured hchanges).x hclean
    | _ => exact absurd rfl hquestion

/-- After any history of announced changes, a measurement that is not due shows the strip of the last question. -/
theorem showsLastStrip_after (count : Nat) (store : SelectionStore) {inputs : List (CursorInput α)}
    (h : AnnouncesChanges inputs) : (⟨.create count, store⟩ : CursorDesk α).ShowsLastStrip inputs := by
  induction inputs using List.reverseRecOn with
  | nil => exact fun hclean => absurd hclean.symm Bool.false_ne_true
  | append_singleton inputs e ih => exact (ih h.of_append).concat h

/-- The position remembered is always the live one. Where changes of the strip are told of before the next question,
each question is answered with the place of the highlighted element as the strip is at that moment, or zero; and the
strip is looked at only where a measurement is due, otherwise nothing of it enters the answer. -/
theorem position_is_live (count : Nat) (store : SelectionStore) (inputs : List (CursorInput α))
    (hchanges : AnnouncesChanges inputs) :
    let d : CursorDesk α := ⟨.create count, store⟩
    ∀ before bounds rest, inputs = before ++ .askX bounds :: rest →
      let c := (d.after before).cursor
      (∃ x, ((d.after before).handle (.askX bounds)).reply = .x x ∧ c.StandsAtX bounds x) ∧
        (c.looksUp = true ↔ d.IsMeasureDue before ∧ c.highlighted < c.frameCount) ∧
        (¬ d.IsMeasureDue before → ∀ other, c.x other = c.x bounds) := by
  rintro d before bounds rest rfl c
  have hasked : before ++ .askX bounds :: rest = (before ++ [.askX bounds]) ++ rest := by simp
  rw [hasked] at hchanges
  have hdue : c.dirty = true ↔ d.IsMeasureDue before := dirty_after count store before
  refine ⟨⟨(c.x bounds).1, rfl, ?_⟩, ?_, ?_⟩
  · have hshows := showsLastStrip_after count store hchanges.of_append.of_append
    rw [(hshows.isMeasured hchanges.of_append).x_eq]
    exact c.standsAtX_measure bounds
  · rw [Cursor.looksUp, Bool.and_eq_true, decide_eq_true_eq, hdue]
  · intro hundue other
    rw [← hdue, Bool.not_eq_true] at hundue
    rw [Cursor.x_eq_of_clean hundue, Cursor.x_eq_of_clean hundue]

def twoElements (start width : Rat) : StripBounds Rat where
  container := ⟨start, 0, 2 * width, 10⟩
  element position := if position < 2 then some ⟨start + position * width, 0, width, 10⟩ else none

/-- The strip is moved and shrunk between two questions, as it is told, and the second one is answered on the new
strip: halfway through the second element. -/
theorem position_is_live_on_shrunk_strip :
    let wide := twoElements 0 20
    let narrow := twoElements 4 10
    let asked : List (CursorInput Rat) := [.askX wide, .select 1, .elementsChanged]
    let d : CursorDesk Rat := ⟨.create 3, .empty⟩
    AnnouncesChanges (asked ++ [.askX narrow]) ∧
      ((d.after asked).handle (.askX narrow)).reply = .x 15 ∧ (d.after asked).cursor.looksUp = true := by
  intro wide narrow asked d
  have hchanges : AnnouncesChanges (asked ++ [.askX narrow]) := by
    intro before between rest old new hsplit hbetween
    have hall : between = [.select 1, .elementsChanged] := by
      simp [asked, List.cons_eq_append_iff, List.append_eq_cons_iff] at hsplit
      exact hsplit.2.2.1
    rw [hall]
    exact .inr (by simp)
  obtain ⟨⟨x, hreply, hstands⟩, hlooks, -⟩ := position_is_live 3 .empty _ hchanges asked narrow [] rfl
  have helement : narrow.element 1 = some ⟨14, 0, 10, 10⟩ := by norm_num [narrow, twoElements]
  have hx : x = 15 := by
    rw [hstands.shown ⟨14, 0, 10, 10⟩ (by decide) helement]
    norm_num [narrow, twoElements, Rect.centerX]
  refine ⟨hchanges, ?_, ?_⟩
  · rw [hreply, hx]
  · apply hlooks.2
    refine ⟨.inr ⟨[.askX wide, .select 1], .elementsChanged, [], rfl, .inl rfl, ?_⟩, by decide⟩
    exact List.forall_mem_nil _

end CursorDesk

end FrameAtlas

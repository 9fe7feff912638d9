import FrameAtlas.Proofs.Session.Commit

namespace FrameAtlas

variable {α : Type}

def Direction.walk (last position steps : Nat) : Direction → Nat
  | .previous => position - steps
  | .next => min (position + steps) last

namespace Direction

/-- A walk stays in the list. -/
theorem walk_le {last position : Nat} (h : position ≤ last) (steps : Nat) (d : Direction) :
    d.walk last position steps ≤ last := by
  cases d with
  | previous => exact (Nat.sub_le _ _).trans h
  | next => exact Nat.min_le_right _ _

theorem walk_zero {last position : Nat} (h : position ≤ last) (d : Direction) : d.walk last position 0 = position := by
  cases d with
  | previous => rfl
  | next => exact Nat.min_eq_left h

/-- One step more leads where one step leads from the place already reached. -/
theorem walk_walk_one (last position steps : Nat) (d : Direction) :
    d.walk last (d.walk last position steps) 1 = d.walk last position (steps + 1) := by
  cases d with
  | previous => exact (Nat.sub_add_eq _ _ _).symm
  | next =>
    show min (min (position + steps) last + 1) last = min (position + (steps + 1)) last
    omega

end Direction

namespace Cursor

/-- A jump leads to the position asked for, or to the last one. -/
theorem select_of_pos {c : Cursor α} (hcount : 0 < c.frameCount) (position : Nat) (store : SelectionStore) :
    c.select position store = (c.highlight (min position (c.frameCount - 1))).committed
      (min position (c.frameCount - 1)) store := by
  rw [select, if_neg (Nat.ne_of_gt hcount)]
  rfl

/-- A step goes out from the position of the list nearest to the highlighted one. -/
theorem step_of_pos {c : Cursor α} (hcount : 0 < c.frameCount) (d : Direction) (store : SelectionStore) :
    let last := c.frameCount - 1
    let target := d.walk last (min c.highlighted last) 1
    c.step d store = (c.highlight target).committed target store := by
  intro last target
  have htarget : min target last = target := Nat.min_eq_left (d.walk_le (Nat.min_le_right _ _) 1)
  have hstep : c.step d store = c.select target store := by
    rw [step, if_neg (Nat.ne_of_gt hcount)]
    cases d with
    | previous => rfl
    | next => rfl
  rw [hstep, select_of_pos hcount]
  show (c.highlight (min target last)).committed (min target last) store = _
  rw [htarget]

def IsTrueWhenEmpty [Scalar α] (c : Cursor α) : Prop := c.frameCount = 0 → ∀ bounds, c.IsMeasured bounds

variable [Scalar α] {c d : Cursor α}

theorem measure_of_empty (hcount : c.frameCount = 0) (bounds : StripBounds α) :
    c.measure bounds = ((0 : Nat) : α) := by
  rw [measure, hcount, if_pos (Nat.zero_le _)]

theorem IsTrueWhenEmpty.keeps (h : c.IsTrueWhenEmpty) (hkeeps : c.Keeps d) : d.IsTrueWhenEmpty := by
  intro hcount bounds
  rw [hkeeps.frameCount] at hcount
  exact (h hcount bounds).keeps hkeeps

theorem IsTrueWhenEmpty.of_dirty (h : c.dirty = true) : c.IsTrueWhenEmpty :=
  fun _ bounds => IsMeasured.of_dirty h bounds

theorem IsTrueWhenEmpty.x (h : c.IsTrueWhenEmpty) (bounds : StripBounds α) : (c.x bounds).2.IsTrueWhenEmpty := by
  intro hcount other _
  have hbefore : c.frameCount = 0 := (frameCount_x c bounds).symm.trans hcount
  rw [measuredX_x, (h hbefore bounds).x_eq, measure_of_empty hbefore, measure_of_empty hcount]

/-- The cursor of an empty list is at zero, measured or remembered. -/
theorem IsTrueWhenEmpty.x_eq_zero (h : c.IsTrueWhenEmpty) (hcount : c.frameCount = 0) (bounds : StripBounds α) :
    (c.x bounds).1 = ((0 : Nat) : α) :=
  (h hcount bounds).x_eq.trans (measure_of_empty hcount bounds)

/-- Nor does it leave zero when another position is highlighted. -/
theorem IsTrueWhenEmpty.x_highlight (h : c.IsTrueWhenEmpty) (hcount : c.frameCount = 0) (position : Nat)
    (bounds : StripBounds α) : ((c.highlight position).x bounds).1 = (c.x bounds).1 := by
  have hkeeps := keeps_highlight c position
  rw [h.x_eq_zero hcount, (h.keeps hkeeps).x_eq_zero (hkeeps.frameCount.trans hcount)]

end Cursor

namespace Session

/-- The position that a step goes out from: the selection, if there is one and no drag is open, and otherwise the
highlighted position. Either may lie outside the list. -/
def standing (s : Session α) : Nat :=
  match s.cursor.drag, s.selection.current with
  | none, some position => position
  | _, _ => s.cursor.highlighted

theorem syncFrom_eq_highlight (s : Session α) : s.cursor.syncFrom s.selection = s.cursor.highlight s.standing := by
  have hstill : s.cursor.highlight s.cursor.highlighted = s.cursor := if_pos rfl
  unfold Cursor.syncFrom standing Cursor.isDragging
  cases s.selection.current with
  | none =>
    cases s.cursor.drag with
    | none => exact hstill.symm
    | some last => exact hstill.symm
  | some position =>
    cases s.cursor.drag with
    | none => rfl
    | some last => exact hstill.symm

/-- A step goes out from where selection and highlight both stand. -/
theorem StandsAt.standing_eq {s : Session α} {i : Nat} (h : s.StandsAt i) : s.standing = i := by
  have hshown : s.cursor.highlighted = i := by
    have hposition := h.shown
    unfold currentPosition at hposition
    split at hposition
    · exact Option.some.inj hposition
    · contradiction
  unfold standing
  rw [h.selected, hshown]
  cases s.cursor.drag with
  | none => rfl
  | some last => rfl

/-- A key that gives a position back: it is selected and shown afterwards, and an open drag is as it was. -/
structure LandsOn (s : Session α) (o : Outcome α) (i : Nat) : Prop where
  position : o.position = some i
  stands : o.session.StandsAt i
  drag : o.session.cursor.drag = s.cursor.drag

theorem Derived.landsOn_adopt {s : Session α} (hs : s.Derived) {c : Cursor α}
    (hcount : c.frameCount = s.cursor.frameCount) (hdrag : c.drag = s.cursor.drag) {i : Nat} (hi : i < s.length) :
    s.LandsOn (s.adopt ((c.highlight i).committed i s.selection)) i := by
  have hinside : i < c.frameCount := by rwa [hcount, hs.frameCount]
  have hcommitted := Cursor.committedAt_highlight hinside s.selection
  have hkept : (c.highlight i).frameCount = s.cursor.frameCount :=
    (Cursor.keeps_highlight c i).frameCount.trans hcount
  let o := (c.highlight i).committed i s.selection
  have ho : o = c.uncommitted s.selection ∨ ∃ j, o.position = some j ∧ c.CommittedAt o j :=
    .inr ⟨i, rfl, hcommitted⟩
  exact ⟨rfl, hs.standsAt_adopt ho hkept rfl, hcommitted.drag.trans hdrag⟩

theorem Derived.landsOn_select {s : Session α} (hs : s.Derived) (hsome : 0 < s.length) (position : Nat) :
    s.LandsOn (s.select position) (min position (s.length - 1)) := by
  have hcount : 0 < s.cursor.frameCount := hs.frameCount ▸ hsome
  rw [select, Cursor.select_of_pos hcount, hs.frameCount]
  apply hs.landsOn_adopt rfl rfl
  omega

/-- A step leads one position on from where the session stands, or back into the list. -/
theorem Derived.landsOn_step {s : Session α} (hs : s.Derived) (hsome : 0 < s.length) (d : Direction) :
    s.LandsOn (s.step d) (d.walk (s.length - 1) (min s.standing (s.length - 1)) 1) := by
  have hcount : (s.cursor.highlight s.standing).frameCount = s.length :=
    (Cursor.keeps_highlight s.cursor s.standing).frameCount.trans hs.frameCount
  have hstep := Cursor.step_of_pos (hcount ▸ hsome) d s.selection
  simp only [hcount, Cursor.highlighted_highlight] at hstep
  rw [step, syncFrom_eq_highlight, hstep]
  apply hs.landsOn_adopt (hcount.trans hs.frameCount.symm) (Cursor.drag_highlight _ _)
  have hlast := d.walk_le (Nat.min_le_right s.standing (s.length - 1)) 1
  omega

theorem Derived.select_of_empty {s : Session α} (hs : s.Derived) (hnone : s.length = 0) (position : Nat) :
    s.select position = ⟨none, s, []⟩ := by
  rw [select, Cursor.select, if_pos (hs.frameCount.trans hnone)]
  rfl

theorem Derived.step_of_empty {s : Session α} (hs : s.Derived) (hnone : s.length = 0) (d : Direction) :
    s.step d = ⟨none, { s with cursor := s.cursor.highlight s.standing }, []⟩ := by
  have hcount : (s.cursor.highlight s.standing).frameCount = 0 :=
    (Cursor.keeps_highlight s.cursor s.standing).frameCount.trans (hs.frameCount.trans hnone)
  rw [step, syncFrom_eq_highlight, Cursor.step, if_pos hcount]
  rfl

variable [Scalar α]

def afterSteps (s : Session α) (d : Direction) (steps : Nat) : Session α :=
  s.after (List.replicate steps (.step d))

theorem afterSteps_succ (s : Session α) (d : Direction) (steps : Nat) :
    s.afterSteps d (steps + 1) = ((s.afterSteps d steps).step d).session := by
  rw [afterSteps, List.replicate_succ', after_append]
  rfl

structure Walked (s t : Session α) (d : Direction) (steps : Nat) : Prop where
  derived : t.Derived
  length : t.length = s.length
  drag : t.cursor.drag = s.cursor.drag
  standing : t.standing = d.walk (s.length - 1) s.standing steps
  stands : 0 < steps → t.StandsAt (d.walk (s.length - 1) s.standing steps)

theorem Walked.step {s t : Session α} {d : Direction} {steps : Nat} (h : s.Walked t d steps)
    (hinside : s.standing < s.length) : s.Walked (t.step d).session d (steps + 1) := by
  have hlast : s.standing ≤ s.length - 1 := by omega
  have hsome : 0 < t.length := by
    rw [h.length]
    omega
  have hlands := h.derived.landsOn_step hsome d
  -- The place walked to lies in the list, so the next step goes out from it and no other.
  rw [h.length, h.standing, Nat.min_eq_left (d.walk_le hlast steps), Direction.walk_walk_one] at hlands
  have hsame : t.SameList (t.handle (.step d)).session := sameList_handle t _ fun _ => by simp
  exact {
    derived := h.derived.handle (.step d)
    length := hsame.length.trans h.length
    drag := hlands.drag.trans h.drag
    standing := hlands.stands.standing_eq
    stands := fun _ => hlands.stands }

/-- So many steps lead so many positions on, up to the end of the list. -/
theorem Derived.walked {s : Session α} (hs : s.Derived) (hinside : s.standing < s.length) (d : Direction)
    (steps : Nat) : s.Walked (s.afterSteps d steps) d steps := by
  induction steps with
  | zero =>
    have hstill := d.walk_zero (Nat.le_sub_one_of_lt hinside)
    exact ⟨hs, rfl, rfl, hstill.symm, fun h => absurd h (Nat.lt_irrefl 0)⟩
  | succ steps ih =>
    rw [afterSteps_succ]
    exact ih.step hinside

/-- A position that so many steps lead to is selected and shown after so many. -/
theorem Derived.standsAt_of_walk {s : Session α} (hs : s.Derived) (hinside : s.standing < s.length) {d : Direction}
    {steps q : Nat} (hsteps : 0 < steps) (hq : d.walk (s.length - 1) s.standing steps = q) :
    (s.afterSteps d steps).StandsAt q := by
  rw [← hq]
  exact (hs.walked hinside d steps).stands hsteps

theorem keeps_trackStrip (s : Session α) (v : Viewport α) : s.cursor.Keeps (s.trackStrip v).2.cursor := by
  unfold trackStrip
  simp only
  split
  · exact Cursor.Keeps.refl _
  · exact Cursor.Keeps.of_dirty rfl rfl

theorem isTrueWhenEmpty_handle {s : Session α} (h : s.cursor.IsTrueWhenEmpty) (e : SessionEvent α) :
    (s.handle e).session.cursor.IsTrueWhenEmpty := by
  have htracked (s : Session α) (h : s.cursor.IsTrueWhenEmpty) (v : Viewport α) :
      (s.trackStrip v).2.cursor.IsTrueWhenEmpty := h.keeps (keeps_trackStrip s v)
  cases e with
  | replace t =>
    show (s.replaceFrames t).cursor.IsTrueWhenEmpty
    unfold replaceFrames
    split
    · exact h
    · exact .of_dirty rfl
  | sizing sizing =>
    show (s.setStripSizing sizing).cursor.IsTrueWhenEmpty
    unfold setStripSizing
    split
    · exact h
    · exact .of_dirty rfl
  | select position => exact h.keeps (Cursor.keeps_select _ _ _)
  | step d => exact (h.keeps (Cursor.keeps_syncFrom _ _)).keeps (Cursor.keeps_step _ _ _)
  | pointerDown x v => exact (htracked s h v).keeps (Cursor.keeps_pointerDown _ _ _ _)
  | pointerMove x v =>
    show (s.pointerMove x v).2.cursor.IsTrueWhenEmpty
    unfold pointerMove
    split
    · exact (htracked s h v).keeps (Cursor.keeps_pointerMove _ _ _ _)
    · exact h
  | pointerUp => exact h.keeps (Cursor.keeps_pointerUp _ _)
  | render surface v =>
    have hsynced : s.synced.cursor.IsTrueWhenEmpty := h.keeps (Cursor.keeps_syncFrom _ _)
    cases surface with
    | timeline => exact (htracked s.synced hsynced v).x _
    | minimap => exact hsynced
    | pyramid => exact hsynced
    | filmstrip => exact hsynced
  | commit position => exact h
  | clear => exact h
  | visible range => exact h
  | subscribe => exact h
  | unsubscribe id => exact h
  | arrows v => exact h
  | arrowsFocused v focus => exact h

/-- Through any history, whatever is measured in an empty list is measured right. -/
theorem isTrueWhenEmpty_after {s : Session α} (h : s.cursor.IsTrueWhenEmpty) (events : List (SessionEvent α)) :
    (s.after events).cursor.IsTrueWhenEmpty := by
  induction events generalizing s with
  | nil => exact h
  | cons e rest ih => exact ih (isTrueWhenEmpty_handle h e)

/-- Keys recover into the list and walk along it. After every history, on a list that is not empty, a step leads to
the neighbour of the position of the list nearest to where the session stands, and a jump to the position nearest to
the one asked for; that position is given back, selected and shown, and an open drag is as it was. From a position of
the list so many steps lead so far or to the end of the list, and pass every position on the way. In an empty list
nothing is given back and nobody is told; a jump changes nothing, and a step changes the highlight alone, which it
takes over from the selection and which does not show in the place of the cursor. -/
theorem keys_recover_and_walk (events : List (SessionEvent α)) :
    let s := (new : Session α).after events
    let h := s.standing
    let last := s.length - 1
    (0 < s.length →
      s.LandsOn (s.step .next) (min (min h last + 1) last) ∧
        s.LandsOn (s.step .previous) (min h last - 1) ∧
        (∀ position, s.LandsOn (s.select position) (min position last)) ∧
        (h < s.length → ∀ k,
          (s.afterSteps .next k).standing = min (h + k) last ∧
            (0 < k → (s.afterSteps .next k).StandsAt (min (h + k) last)) ∧
            (∀ q, h < q → q ≤ min (h + k) last → ∃ j ≤ k, (s.afterSteps .next j).StandsAt q) ∧
            (s.afterSteps .previous k).standing = h - k ∧
            (0 < k → (s.afterSteps .previous k).StandsAt (h - k)) ∧
            ∀ q, q < h → h - k ≤ q → ∃ j ≤ k, (s.afterSteps .previous j).StandsAt q)) ∧
      (s.length = 0 →
        (∀ position, s.select position = ⟨none, s, []⟩) ∧
          ∀ d, s.step d = ⟨none, { s with cursor := s.cursor.highlight h }, []⟩ ∧
            ∀ bounds, ((s.cursor.highlight h).x bounds).1 = (s.cursor.x bounds).1) := by
  intro s h last
  have hs : s.Derived := derived_new.after events
  refine ⟨?listed, ?empty⟩
  case listed =>
    intro hsome
    refine ⟨hs.landsOn_step hsome .next, hs.landsOn_step hsome .previous, hs.landsOn_select hsome, ?_⟩
    intro hinside k
    have hnext := hs.walked hinside .next
    have hprevious := hs.walked hinside .previous
    refine ⟨(hnext k).standing, (hnext k).stands, ?_, (hprevious k).standing, (hprevious k).stands, ?_⟩
    · intro q hbeyond hreached
      have hq : min (h + (q - h)) last = q := by omega
      exact ⟨q - h, by omega, hs.standsAt_of_walk hinside (Nat.sub_pos_of_lt hbeyond) hq⟩
    · intro q hbefore hreached
      have hq : h - (h - q) = q := by omega
      exact ⟨h - q, by omega, hs.standsAt_of_walk hinside (Nat.sub_pos_of_lt hbefore) hq⟩
  case empty =>
    intro hnone
    refine ⟨hs.select_of_empty hnone, ?_⟩
    intro d
    refine ⟨hs.step_of_empty hnone d, ?_⟩
    have htrue : s.cursor.IsTrueWhenEmpty := isTrueWhenEmpty_after (.of_dirty rfl) events
    exact htrue.x_highlight (hs.frameCount.trans hnone) h

/-- A list cut down below the selection: a step recovers, and steps back walk to its front. -/
theorem keys_recover_and_walk_in_shorter_list :
    let long : Snapshot := ⟨1, [{ index := 4 }, { index := 2 }, { index := 7 }, { index := 0 }, { index := 9 }]⟩
    let short : Snapshot := ⟨2, [{ index := 4 }, { index := 2 }, { index := 7 }]⟩
    let stale : Session Rat := (new : Session Rat).after [.replace long, .select 4, .replace short]
    let s := (new : Session Rat).after [.replace long, .select 4, .replace short, .step .next]
    0 < stale.length ∧ stale.standing = 4 ∧ stale.LandsOn (stale.step .previous) 1 ∧
      s.standing < s.length ∧ (s.afterSteps .previous 5).StandsAt 0 := by
  intro long short stale s
  have hstale : 0 < stale.length := by decide +kernel
  have hstanding : stale.standing = 4 := by decide +kernel
  have hsome : 0 < s.length := by decide +kernel
  have hinside : s.standing < s.length := by decide +kernel
  have hlands := ((keys_recover_and_walk [.replace long, .select 4, .replace short]).1 hstale).2.1
  have hwalk := ((keys_recover_and_walk [.replace long, .select 4, .replace short, .step .next]).1 hsome).2.2.2
  obtain ⟨-, -, -, -, hstands, -⟩ := hwalk hinside 5
  have hfront : s.standing - 5 = 0 := by decide +kernel
  rw [hfront] at hstands
  exact ⟨hstale, hstanding, hlands, hinside, hstands (by decide)⟩

end Session

end FrameAtlas

import FrameAtlas.Proofs.Session.Standing

namespace FrameAtlas

variable {α : Type}

namespace SessionEvent

def isPointer : SessionEvent α → Bool
  | .pointerDown _ _ => true
  | .pointerMove _ _ => true
  | _ => false

def isKeyboard : SessionEvent α → Bool
  | .select _ => true
  | .step _ => true
  | _ => false

def isInput (e : SessionEvent α) : Bool := e.isPointer || e.isKeyboard

end SessionEvent

def SessionReply.position? : SessionReply α → Option Nat
  | .position p => p
  | _ => none

namespace Session

/-- A position that is both selected and shown. -/
structure StandsAt (s : Session α) (position : Nat) : Prop where
  selected : s.selection.current = some position
  shown : s.currentPosition = some position

theorem currentPosition_of_lt {s : Session α} (h : s.cursor.highlighted < s.length) :
    s.currentPosition = some s.cursor.highlighted := if_pos h

theorem SameStanding.trails {s t : Session α} (h : s.SameStanding t) (hl : s.SameList t)
    {pointed shown : Option Nat} (hs : s.cursor.Trails pointed shown) : t.cursor.Trails pointed shown :=
  hs.of_same h.drag h.highlighted hl.frameCount

theorem Derived.standsAt_adopt {s : Session α} (hs : s.Derived) {c : Cursor α} {o : Cursor.Committed α}
    {store : SelectionStore}
    (ho : o = c.uncommitted store ∨ ∃ j, o.position = some j ∧ c.CommittedAt o j)
    (hcount : o.cursor.frameCount = s.cursor.frameCount) {i : Nat} (hi : o.position = some i) :
    (s.adopt o).session.StandsAt i := by
  rcases ho with rfl | ⟨j, hj, hcommitted⟩
  · contradiction
  · obtain rfl : j = i := Option.some.inj (hj.symm.trans hi)
    have hlength : o.cursor.frameCount = s.length := hcount.trans hs.frameCount
    have hinside : o.cursor.highlighted < s.length := by
      rw [hcommitted.highlighted, ← hlength]
      exact hcommitted.inside
    refine ⟨hcommitted.selected, ?_⟩
    rw [← hcommitted.highlighted]
    exact currentPosition_of_lt hinside

/-- After a step that gives a position back it is both selected and shown. -/
theorem Derived.standsAt_step {s : Session α} (hs : s.Derived) {direction : Direction} {i : Nat}
    (h : (s.step direction).position = some i) : (s.step direction).session.StandsAt i := by
  have hkeeps := (Cursor.keeps_syncFrom s.cursor s.selection).trans
    (Cursor.keeps_step _ direction s.selection)
  exact hs.standsAt_adopt (Cursor.step_cases _ direction s.selection) hkeeps.frameCount h

/-- After a jump that gives a position back it is both selected and shown. -/
theorem Derived.standsAt_select {s : Session α} (hs : s.Derived) {position i : Nat}
    (h : (s.select position).position = some i) : (s.select position).session.StandsAt i := by
  have hkeeps := Cursor.keeps_select s.cursor position s.selection
  exact hs.standsAt_adopt (Cursor.select_cases _ position s.selection) hkeeps.frameCount h

variable [Scalar α]

def given (kind : SessionEvent α → Bool) (s : Session α) (last : Option Nat) (e : SessionEvent α) :
    Option Nat :=
  if kind e then (s.handle e).reply.position?.or last else last

/-- The last position given to an event of a kind in a history. -/
def lastGiven (kind : SessionEvent α → Bool) : Session α → Option Nat → List (SessionEvent α) → Option Nat
  | _, last, [] => last
  | s, last, e :: rest => lastGiven kind (s.handle e).session (s.given kind last e) rest

theorem lastGiven_congr {kind other : SessionEvent α → Bool} {events : List (SessionEvent α)}
    (h : ∀ e ∈ events, kind e = other e) (s : Session α) (last : Option Nat) :
    s.lastGiven kind last events = s.lastGiven other last events := by
  induction events generalizing s last with
  | nil => rfl
  | cons e rest ih =>
    have hgiven : s.given kind last e = s.given other last e := by
      rw [given, given, h e List.mem_cons_self]
    rw [lastGiven, lastGiven, hgiven]
    exact ih (fun e' he' => h e' (List.mem_cons_of_mem e he')) _ _

/-- What was last given in a history counts on in the history after it. -/
theorem lastGiven_append (kind : SessionEvent α → Bool) (s : Session α) (last : Option Nat)
    (first second : List (SessionEvent α)) :
    s.lastGiven kind last (first ++ second) =
      (s.after first).lastGiven kind (s.lastGiven kind last first) second := by
  induction first generalizing s last with
  | nil => rfl
  | cons e rest ih => exact ih _ _

theorem given_eq_some {kind : SessionEvent α → Bool} {s : Session α} {e : SessionEvent α} {i : Nat}
    (h : s.given kind none e = some i) : kind e = true ∧ (s.handle e).reply = .position (some i) := by
  unfold given at h
  split at h
  · rename_i hkind
    refine ⟨hkind, ?_⟩
    rw [Option.or_none] at h
    cases hreply : (s.handle e).reply with
    | position p =>
      rw [hreply] at h
      exact congrArg SessionReply.position h
    | _ => simp [hreply, SessionReply.position?] at h
  · contradiction

/-- An event that gives a position to the pointer or to the keyboard leaves it where the next one will look
for it; no other event touches the drag and, in the middle of one, the highlight. -/
theorem trails_handle {s : Session α} (hinner : HasInnerPositions α s.cursor.frameCount)
    {pointed shown : Option Nat} (h : s.cursor.Trails pointed shown) {e : SessionEvent α}
    (he : ∀ t, e ≠ .replace t) :
    (s.handle e).session.cursor.Trails (s.given SessionEvent.isPointer pointed e)
      (s.given SessionEvent.isInput shown e) := by
  have htracked (v : Viewport α) : (s.trackStrip v).2.cursor.Trails pointed shown :=
    (sameStanding_trackStrip s v).trails (sameList_trackStrip s v) h
  have hcount (v : Viewport α) : HasInnerPositions α (s.trackStrip v).2.cursor.frameCount := by
    rwa [(sameList_trackStrip s v).frameCount]
  cases e with
  | replace t => exact absurd rfl (he t)
  | sizing sizing =>
    show (s.setStripSizing sizing).cursor.Trails pointed shown
    unfold setStripSizing
    split
    · exact h
    · exact h.of_same rfl rfl rfl
  | select position => exact h.commit (Cursor.select_cases s.cursor position s.selection)
  | step direction =>
    exact (h.syncFrom s.selection).commit (Cursor.step_cases _ direction s.selection)
  | pointerDown x v => exact (htracked v).grab (Cursor.pointerDown_cases (hcount v) _ _ _)
  | pointerMove x v =>
    show (s.pointerMove x v).2.cursor.Trails ((s.pointerMove x v).1.or pointed)
      ((s.pointerMove x v).1.or shown)
    unfold Session.pointerMove
    split
    · exact (htracked v).grab (Cursor.pointerMove_cases (hcount v) _ _ _)
    · exact h
  | pointerUp => exact .release (Cursor.pointerUp_cases s.cursor s.selection) pointed shown
  | render surface v =>
    have hsynced : s.synced.cursor.Trails pointed shown := h.syncFrom s.selection
    exact (sameStanding_render s surface v).trails (sameList_synced_render s surface v) hsynced
  -- A commit made elsewhere changes the selection behind the back of the drag, not the cursor.
  | commit position => exact h
  | clear => exact h
  | visible range => exact h
  | subscribe => exact h
  | unsubscribe id => exact h
  | arrows v => exact h
  | arrowsFocused v focus => exact h

/-- Through a whole history the drag follows the pointer and the highlight follows all inputs. -/
theorem trails_after {s : Session α} (hinner : HasInnerPositions α s.cursor.frameCount)
    {pointed shown : Option Nat} (h : s.cursor.Trails pointed shown) {events : List (SessionEvent α)}
    (hfixed : ∀ t, .replace t ∉ events) :
    (s.after events).cursor.Trails (s.lastGiven SessionEvent.isPointer pointed events)
      (s.lastGiven SessionEvent.isInput shown events) := by
  induction events generalizing s pointed shown with
  | nil => exact h
  | cons e rest ih =>
    have hhere : ∀ t, e ≠ .replace t := fun t ht => hfixed t (ht ▸ List.mem_cons_self)
    apply ih
    · rwa [(sameList_handle s e hhere).frameCount]
    · exact trails_handle hinner h hhere
    · exact fun t ht => hfixed t (List.mem_cons_of_mem e ht)

/-- What every committing input leaves selected and shown. A step and a jump leave the position that they
give back, both selected and shown. The end of a drag selects the last position given to the pointer and
shows the last one given to any input, so it agrees with itself as long as no key is pressed in the drag. -/
theorem commits_last_given (earlier events : List (SessionEvent α))
    (hinner : HasInnerPositions α ((new : Session α).after earlier).length)
    (hclosed : ((new : Session α).after earlier).cursor.isDragging = false)
    (hfixed : ∀ t, .replace t ∉ events) :
    let start := (new : Session α).after earlier
    let s := start.after events
    (∀ direction i, (s.step direction).position = some i → (s.step direction).session.StandsAt i) ∧
      (∀ position i, (s.select position).position = some i → (s.select position).session.StandsAt i) ∧
      (∀ i, s.pointerUp.position = some i →
        s.pointerUp.session.selection.current = some i ∧
        start.lastGiven SessionEvent.isPointer none events = some i ∧
        s.pointerUp.session.currentPosition = start.lastGiven SessionEvent.isInput none events ∧
        ((∀ e ∈ events, e.isKeyboard = false) → s.pointerUp.session.StandsAt i)) := by
  intro start s
  have hstart : start.Derived := derived_new.after earlier
  have hs : s.Derived := hstart.after events
  have hnone : start.cursor.drag = none := by simpa [Cursor.isDragging] using hclosed
  have hcount : HasInnerPositions α start.cursor.frameCount := by rwa [hstart.frameCount]
  have htrails := trails_after hcount (Cursor.Trails.of_none hnone none none) hfixed
  refine ⟨fun _ _ => hs.standsAt_step, fun _ _ => hs.standsAt_select, ?_⟩
  intro i hi
  rcases s.cursor.pointerUp_cases s.selection with ⟨hidle, -⟩ | ⟨j, hj, hreleased⟩
  · have hnothing : s.pointerUp.position = none := congrArg Cursor.Committed.position hidle
    rw [hnothing] at hi
    contradiction
  · obtain rfl : j = i := Option.some.inj (hj.symm.trans hi)
    have hdragging : s.cursor.isDragging = true := by simp [Cursor.isDragging, hreleased.opened]
    have hpointed := htrails.pointed j hreleased.opened
    -- The highlight outlives the drag, so what is shown is what it held in the middle of it.
    have hposition : s.pointerUp.session.currentPosition =
        start.lastGiven SessionEvent.isInput none events := by
      have hhighlighted : s.pointerUp.session.cursor.highlighted = s.cursor.highlighted :=
        hreleased.highlighted
      have hinside : s.cursor.highlighted < s.length := hs.frameCount ▸ htrails.inside hdragging
      rw [htrails.shown hdragging, ← hhighlighted]
      exact currentPosition_of_lt (hhighlighted.trans_lt hinside)
    refine ⟨hreleased.selected, hpointed, hposition, ?_⟩
    intro hkeys
    have hsame : start.lastGiven SessionEvent.isInput none events =
        start.lastGiven SessionEvent.isPointer none events := by
      apply lastGiven_congr
      intro e he
      rw [SessionEvent.isInput, hkeys e he, Bool.or_false]
    exact ⟨hreleased.selected, by rw [hposition, hsame, hpointed]⟩

/-- A drag with a key pressed in the middle, after which the pointer has moved on. -/
theorem commits_last_given_after_move :
    let list : Snapshot :=
      ⟨1, [{ index := 0, kind := .intra }, { index := 1 }, { index := 2 }, { index := 3 }]⟩
    let v : Viewport Float := .sized 400 80
    let earlier : List (SessionEvent Float) := [.replace list, .select 2]
    let events : List (SessionEvent Float) := [.pointerDown 10 v, .step .next, .pointerMove 390 v]
    let start := (new : Session Float).after earlier
    let s := start.after events
    HasInnerPositions Float start.length ∧ start.cursor.isDragging = false ∧ (∀ t, .replace t ∉ events) ∧
      start.lastGiven SessionEvent.isInput none events = some 3 ∧ s.pointerUp.session.StandsAt 3 := by
  intro list v earlier events start s
  have hinner : HasInnerPositions Float start.length := hasInnerPositions_double (by decide +kernel)
  have hclosed : start.cursor.isDragging = false := by decide +kernel
  have hfixed : ∀ t, .replace t ∉ events := by simp [events]
  have hgiven : start.lastGiven SessionEvent.isInput none events = some 3 := by decide +kernel
  have hposition : s.pointerUp.position = some 3 := by decide +kernel
  obtain ⟨hselected, -, hshown, -⟩ :=
    (commits_last_given earlier events hinner hclosed hfixed).2.2 3 hposition
  exact ⟨hinner, hclosed, hfixed, hgiven, hselected, hshown.trans hgiven⟩

/-- The end of a drag undoes a step that was committed in the middle of it. -/
theorem pointerUp_undoes_step :
    let list : Snapshot :=
      ⟨1, [{ index := 0, kind := .intra }, { index := 1 }, { index := 2 }, { index := 3 }]⟩
    let v : Viewport Rat := .sized 400 80
    let s := (ofSnapshot list).after [.pointerDown 10 v, .step .next]
    s.StandsAt 1 ∧ s.pointerUp.position = some 0 ∧ s.pointerUp.session.selection.current = some 0 ∧
      s.pointerUp.session.currentPosition = some 1 ∧ ¬ s.pointerUp.session.StandsAt 0 := by
  intro list v s
  have hshown : s.pointerUp.session.currentPosition = some 1 := by decide +kernel
  refine ⟨⟨by decide +kernel, by decide +kernel⟩, by decide +kernel, by decide +kernel, hshown, ?_⟩
  intro hagrees
  have hzero := hagrees.shown
  rw [hshown] at hzero
  contradiction

end Session

end FrameAtlas

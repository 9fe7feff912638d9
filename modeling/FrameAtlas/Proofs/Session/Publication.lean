import FrameAtlas.Proofs.Cursor.Drag
import FrameAtlas.Proofs.Session.Commit
import FrameAtlas.Proofs.Session.Memo

/-!
What inputs publish, held against the list. A step and a jump publish positions of the list that they find. A
release publishes the position that the pointer was last given. That one lay in the list of its moment; a list
that comes in the middle of the drag may be too short for it.
-/

namespace FrameAtlas

variable {α : Type}

namespace SessionEvent

def isRelease : SessionEvent α → Bool
  | .pointerUp => true
  | _ => false

end SessionEvent

namespace Session

structure PublishesNothing (s : Session α) (o : Outcome α) : Prop where
  position : o.position = none
  selection : o.session.selection = s.selection
  notices : o.notices = []

/-- An input that gives a position back and commits it, on the list that it found. -/
structure Publishes (s : Session α) (o : Outcome α) (i : Nat) : Prop where
  position : o.position = some i
  selection : o.session.selection = (s.selection.commit i).1
  notices : o.notices = (s.selection.commit i).2
  snapshot : o.session.snapshot = s.snapshot

theorem publishesNothing_uncommitted (s : Session α) (c : Cursor α) :
    s.PublishesNothing (s.adopt (c.uncommitted s.selection)) := ⟨rfl, rfl, rfl⟩

/-- A committed position is selected, told and given back. -/
theorem publishes_committed (s : Session α) (c : Cursor α) (position : Nat) :
    s.Publishes (s.adopt (c.committed position s.selection)) position := ⟨rfl, rfl, rfl, rfl⟩

/-- The keyboard commits a position of the list, if there is a list at all. -/
theorem Derived.publishes_adopt {s : Session α} (hs : s.Derived) {c : Cursor α} {o : Cursor.Committed α}
    (ho : c.frameCount = 0 ∧ o = c.uncommitted s.selection ∨
      ∃ i < c.frameCount, o = (c.highlight i).committed i s.selection)
    (hcount : c.frameCount = s.cursor.frameCount) :
    s.length = 0 ∧ s.PublishesNothing (s.adopt o) ∨ ∃ i < s.length, s.Publishes (s.adopt o) i := by
  rw [hcount, hs.frameCount] at ho
  rcases ho with ⟨hempty, rfl⟩ | ⟨i, hinside, rfl⟩
  · exact .inl ⟨hempty, publishesNothing_uncommitted s c⟩
  · exact .inr ⟨i, hinside, publishes_committed s _ i⟩

/-- A step publishes a position of the list at hand, or nothing if the list is empty. -/
theorem Derived.publishes_step {s : Session α} (hs : s.Derived) (direction : Direction) :
    s.length = 0 ∧ s.PublishesNothing (s.step direction) ∨
      ∃ i < s.length, s.Publishes (s.step direction) i :=
  hs.publishes_adopt (Cursor.step_split _ direction s.selection)
    (Cursor.keeps_syncFrom s.cursor s.selection).frameCount

/-- A jump publishes a position of the list at hand, or nothing if the list is empty. -/
theorem Derived.publishes_select {s : Session α} (hs : s.Derived) (position : Nat) :
    s.length = 0 ∧ s.PublishesNothing (s.select position) ∨
      ∃ i < s.length, s.Publishes (s.select position) i :=
  hs.publishes_adopt (Cursor.select_split s.cursor position s.selection) rfl

/-- A release publishes what the drag holds, whatever list is at hand. -/
theorem publishes_pointerUp (s : Session α) :
    s.cursor.drag = none ∧ s.PublishesNothing s.pointerUp ∨
      ∃ i, s.cursor.drag = some i ∧ s.Publishes s.pointerUp i := by
  unfold pointerUp
  rcases Cursor.pointerUp_split s.cursor s.selection with ⟨hdrag, hidle⟩ | ⟨i, hdrag, hup⟩
  · rw [hidle]
    exact .inl ⟨hdrag, publishesNothing_uncommitted s _⟩
  · rw [hup]
    exact .inr ⟨i, hdrag, publishes_committed s _ i⟩

theorem drag_replaceFrames (s : Session α) (t : Snapshot) :
    (s.replaceFrames t).cursor.drag = s.cursor.drag := by
  unfold replaceFrames
  split
  · rfl
  · exact Cursor.drag_setFrameCount s.cursor t.frames.length

variable [Scalar α]

/-- The drag after an event: a release ends it, and it goes where the pointer is given a position. -/
theorem drag_handle (s : Session α) (e : SessionEvent α) :
    (s.handle e).session.cursor.drag =
      if e.isRelease then none else (s.given SessionEvent.isPointer none e).or s.cursor.drag := by
  have htracked (v : Viewport α) : (s.trackStrip v).2.cursor.drag = s.cursor.drag :=
    (sameStanding_trackStrip s v).drag
  cases e with
  | replace t => exact drag_replaceFrames s t
  | sizing sizing => exact drag_setStripSizing s sizing
  | select position => exact Cursor.drag_select s.cursor position s.selection
  | step direction =>
    show ((s.cursor.syncFrom s.selection).step direction s.selection).cursor.drag = s.cursor.drag
    rw [Cursor.drag_step, Cursor.drag_syncFrom]
  | pointerDown x v =>
    show (s.pointerDown x v).2.cursor.drag = ((s.pointerDown x v).1.or none).or s.cursor.drag
    rw [Option.or_none, ← htracked v]
    exact Cursor.drag_pointerDown _ _ _ _
  | pointerMove x v =>
    show (s.pointerMove x v).2.cursor.drag = ((s.pointerMove x v).1.or none).or s.cursor.drag
    rw [Option.or_none]
    unfold Session.pointerMove
    split
    · rw [← htracked v]
      exact Cursor.drag_pointerMove _ _ _ _
    · rfl
  | pointerUp => exact Cursor.drag_pointerUp s.cursor s.selection
  | render surface v =>
    exact (sameStanding_render s surface v).drag.trans (Cursor.drag_syncFrom s.cursor s.selection)
  | commit position => rfl
  | clear => rfl
  | visible range => rfl
  | subscribe => rfl
  | unsubscribe id => rfl
  | arrows v => rfl
  | arrowsFocused v focus => rfl

/-- A position given to the pointer lies in the list of that moment. -/
theorem Derived.given_lt {s : Session α} (hs : s.Derived) (hinner : HasInnerPositions α s.length)
    {e : SessionEvent α} {i : Nat} (h : s.given SessionEvent.isPointer none e = some i) : i < s.length := by
  have hinside (v : Viewport α) : HasInnerPositions α (s.trackStrip v).2.cursor.frameCount := by
    rwa [(sameList_trackStrip s v).frameCount, hs.frameCount]
  cases e with
  | pointerDown x v =>
    have hposition : (s.pointerDown x v).1 = some i := Option.or_none.symm.trans h
    have hlt : i < (s.pointerDown x v).2.cursor.frameCount :=
      Cursor.lt_of_grab (Cursor.pointerDown_cases (hinside v) _ _ _) hposition
    rwa [(sameList_pointerDown s x v).frameCount, hs.frameCount] at hlt
  | pointerMove x v =>
    have hposition : (s.pointerMove x v).1 = some i := Option.or_none.symm.trans h
    unfold Session.pointerMove at hposition
    split at hposition
    · have hlt := Cursor.lt_of_grab (Cursor.pointerMove_cases (hinside v) _ _ _) hposition
      rwa [(Cursor.keeps_pointerMove _ _ _ _).frameCount, (sameList_trackStrip s v).frameCount,
        hs.frameCount] at hlt
    · contradiction
  | _ => contradiction

theorem snapshot_handle (s : Session α) (e : SessionEvent α) :
    (s.handle e).session.snapshot = s.snapshot ∨ e.opened? = some (s.handle e).session.snapshot := by
  by_cases he : ∃ t, e = .replace t
  · obtain ⟨t, rfl⟩ := he
    show (s.replaceFrames t).snapshot = s.snapshot ∨ some t = some (s.replaceFrames t).snapshot
    unfold replaceFrames
    split
    · exact .inl rfl
    · exact .inr rfl
  · exact .inl (sameList_handle s e fun t ht => he ⟨t, ht⟩).snapshot

/-- The list of a session is one that the history has opened, or the empty one it began with. -/
theorem snapshot_mem_historyLists (events : List (SessionEvent α)) :
    ((new : Session α).after events).snapshot ∈ historyLists events := by
  induction events using List.reverseRecOn with
  | nil => exact List.mem_cons_self
  | append_singleton events e ih =>
    rw [after_append, historyLists_append]
    rcases snapshot_handle ((new : Session α).after events) e with hsame | hopened
    · exact List.mem_append_left _ (hsame ▸ ih)
    · exact List.mem_append_right _ (List.mem_filterMap.2 ⟨e, List.mem_singleton_self e, hopened⟩)

theorem lt_length_after {s : Session α} {i : Nat} (h : i < s.length) {later : List (SessionEvent α)}
    (hlater : ∀ t, .replace t ∈ later → i < t.frames.length) : i < (s.after later).length := by
  induction later generalizing s with
  | nil => exact h
  | cons e rest ih =>
    apply ih
    · rcases snapshot_handle s e with hsame | hopened
      · rw [length, frames, hsame]
        exact h
      · have hreplaced : e = .replace (s.handle e).session.snapshot := by
          cases e with
          | replace t => exact congrArg SessionEvent.replace (Option.some.inj hopened)
          | _ => contradiction
        exact hlater _ (hreplaced ▸ List.mem_cons_self)
    · exact fun t ht => hlater t (List.mem_cons_of_mem e ht)

/-- Where the pointer was last given a position in a history, and what came since then. -/
structure PointedAt (events : List (SessionEvent α)) (i : Nat) (earlier : List (SessionEvent α))
    (e : SessionEvent α) (later : List (SessionEvent α)) : Prop where
  history : events = earlier ++ e :: later
  pointer : e.isPointer = true
  reply : (((new : Session α).after earlier).handle e).reply = .position (some i)
  /-- It lay in the list of that moment. -/
  inside : i < ((new : Session α).after earlier).length
  since : ((new : Session α).after (earlier ++ [e])).lastGiven SessionEvent.isPointer none later = none

/-- An open drag holds the position that the pointer was last given. -/
theorem exists_pointedAt {events : List (SessionEvent α)}
    (hinner : ∀ t ∈ historyLists events, HasInnerPositions α t.frames.length) {i : Nat}
    (hdrag : ((new : Session α).after events).cursor.drag = some i) :
    ∃ earlier e later, PointedAt events i earlier e later := by
  -- The last event has given the position itself, or has left the drag as the history before it had it.
  induction events using List.reverseRecOn with
  | nil => contradiction
  | append_singleton events e ih =>
    let s := (new : Session α).after events
    rw [after_append] at hdrag
    have hhandled : (s.handle e).session.cursor.drag = some i := hdrag
    rw [drag_handle] at hhandled
    split at hhandled
    · contradiction
    have hearlier : ∀ t ∈ historyLists events, HasInnerPositions α t.frames.length := by
      intro t ht
      apply hinner
      rw [historyLists_append]
      exact List.mem_append_left _ ht
    rcases Option.or_eq_some_iff.1 hhandled with hgiven | ⟨hnothing, hbefore⟩
    · obtain ⟨hpointer, hreply⟩ := given_eq_some hgiven
      have hlt : i < s.length := (derived_new.after events).given_lt
        (hearlier _ (snapshot_mem_historyLists events)) hgiven
      exact ⟨events, e, [], rfl, hpointer, hreply, hlt, rfl⟩
    · obtain ⟨earlier, e', later, hpointed⟩ := ih hearlier hbefore
      refine ⟨earlier, e', later ++ [e], ?_, hpointed.pointer, hpointed.reply, hpointed.inside, ?_⟩
      · rw [hpointed.history, List.append_assoc, List.cons_append]
      · rw [lastGiven_append, hpointed.since, ← after_append]
        have hevents : earlier ++ [e'] ++ later = events := by rw [hpointed.history]; simp
        rw [hevents]
        exact hnothing

/-- Lists that come in the middle of a drag and hold its position keep it a position of the list. -/
theorem PointedAt.lt_length {events earlier later : List (SessionEvent α)} {i : Nat} {e : SessionEvent α}
    (h : PointedAt events i earlier e later) (hlater : ∀ t, .replace t ∈ later → i < t.frames.length) :
    i < ((new : Session α).after events).length := by
  rw [h.history, after_append]
  apply lt_length_after h.inside
  intro t ht
  rcases List.mem_cons.1 ht with rfl | hmem
  · exact absurd h.pointer Bool.false_ne_true
  · exact hlater t hmem

/-- What is published lies in the list. A step and a jump publish a position of the list at hand, or nothing if
it is empty. A release publishes the position that the pointer was last given, if a drag is open. That one lay in
the list when it was given, and still does if all lists that came since hold it. -/
theorem publishes_inside_list (events : List (SessionEvent α))
    (hinner : ∀ t ∈ historyLists events, HasInnerPositions α t.frames.length) :
    let s := (new : Session α).after events
    (∀ direction, s.length = 0 ∧ s.PublishesNothing (s.step direction) ∨
        ∃ i < s.length, s.Publishes (s.step direction) i) ∧
      (∀ position, s.length = 0 ∧ s.PublishesNothing (s.select position) ∨
        ∃ i < s.length, s.Publishes (s.select position) i) ∧
      (s.cursor.drag = none ∧ s.PublishesNothing s.pointerUp ∨
        ∃ i earlier e later, PointedAt events i earlier e later ∧ s.Publishes s.pointerUp i ∧
          ((∀ t, .replace t ∈ later → i < t.frames.length) → i < s.length)) := by
  intro s
  have hs : s.Derived := derived_new.after events
  refine ⟨hs.publishes_step, hs.publishes_select, ?_⟩
  rcases publishes_pointerUp s with hidle | ⟨i, hdrag, hup⟩
  · exact .inl hidle
  · obtain ⟨earlier, e, later, hpointed⟩ := exists_pointedAt hinner hdrag
    exact .inr ⟨i, earlier, e, later, hpointed, hup, hpointed.lt_length⟩

/-- A list that comes in the middle of a drag and holds its position. -/
theorem publishes_inside_longer_list :
    let list : Snapshot := ⟨1, [{ index := 0, kind := .intra }, { index := 1 }, { index := 2 }]⟩
    let longer : Snapshot := ⟨2, [{ index := 7 }, { index := 8 }, { index := 9 }, { index := 10 }]⟩
    let v : Viewport Float := .sized 300 80
    let events : List (SessionEvent Float) :=
      [.replace list, .subscribe, .pointerDown 10 v, .pointerMove 290 v, .replace longer]
    let s := (new : Session Float).after events
    (∀ t ∈ historyLists events, HasInnerPositions Float t.frames.length) ∧
      s.Publishes s.pointerUp 2 ∧ 2 < s.length := by
  intro list longer v events s
  have hshort : ∀ t ∈ historyLists events, t.frames.length ≤ 2 ^ 53 := by decide
  have hinner : ∀ t ∈ historyLists events, HasInnerPositions Float t.frames.length :=
    fun t ht => hasInnerPositions_double (hshort t ht)
  have hdrag : s.cursor.drag = some 2 := by decide +kernel
  obtain ⟨i, earlier, e, later, hpointed, hup, hinside⟩ :=
    (publishes_inside_list events hinner).2.2.resolve_left fun h => Option.some_ne_none 2 (hdrag.symm.trans h.1)
  obtain rfl : i = 2 := by
    have hposition : s.pointerUp.position = some 2 := by decide +kernel
    exact Option.some.inj (hup.position.symm.trans hposition)
  refine ⟨hinner, hup, hinside ?_⟩
  intro t ht
  have hmem : .replace t ∈ events := by
    rw [hpointed.history]
    exact List.mem_append_right _ (List.mem_cons_of_mem e ht)
  have hlists : ∀ t, .replace t ∈ events → 2 < t.frames.length := by simp [events, list, longer]
  exact hlists t hmem

/-- A list that comes in the middle of a drag and is too short for it: what is published lies outside. -/
theorem pointerUp_publishes_outside :
    let list : Snapshot :=
      ⟨1, [{ index := 0, kind := .intra }, { index := 1 }, { index := 2 }, { index := 3 }]⟩
    let events : List (SessionEvent Rat) :=
      [.replace list, .subscribe, .pointerDown 390 (.sized 400 80), .replace ⟨2, []⟩]
    let s := (new : Session Rat).after events
    s.pointerUp.position = some 3 ∧ s.pointerUp.session.selection.current = some 3 ∧
      s.pointerUp.notices = [⟨0, 3⟩] ∧ s.pointerUp.session.length = 0 ∧
      ¬ ∀ i, s.pointerUp.position = some i → i < s.pointerUp.session.length := by
  intro list events s
  have hposition : s.pointerUp.position = some 3 := by decide +kernel
  have hlength : s.pointerUp.session.length = 0 := by decide +kernel
  refine ⟨hposition, by decide +kernel, by decide +kernel, hlength, ?_⟩
  intro hinside
  have hlt : 3 < s.pointerUp.session.length := hinside 3 hposition
  omega

end Session

end FrameAtlas

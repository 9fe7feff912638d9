import FrameAtlas.Proofs.Session.DefinedKeys
import FrameAtlas.Proofs.Session.Memo

/-!
What a session computes and how often. An analysis is computed for every list of another identity than the one
held, and for nothing else. As long as the list and the sizing stay, arrows are laid out once at most for one
viewport of finite numbers, whatever is selected, dragged or drawn there.
-/

namespace FrameAtlas

variable {α : Type}

def SessionEvent.arrowsViewport? : SessionEvent α → Option (Viewport α)
  | .render .timeline v => some v
  | .arrows v => some v
  | .arrowsFocused v _ => some v
  | _ => none

def ArrowCache.ComputedOnce [Scalar α] (base : Nat) (key : LayoutKey α) (c : ArrowCache α) : Prop :=
  c.computations ≤ base ∨ c.computations = base + 1 ∧ (c.lookup? key).isSome = true

theorem ArrowCache.ComputedOnce.layout [Scalar α] {base : Nat} {c : ArrowCache α} {r : LayoutRequest α}
    (hc : c.ComputedOnce base r.key) (hself : r.key.isMatch r.key = true) :
    (c.layout r.snapshot r.focus r.geometry r.anchors).2.ComputedOnce base r.key := by
  rcases c.layout_cases r with ⟨key, held, -, -, hlayout⟩ | ⟨hmissing, hlayout⟩
  · rw [hlayout]
    exact hc
  · rw [hlayout]
    have hnone : c.computations ≤ base := by
      rcases hc with hnone | ⟨-, hheld⟩
      · exact hnone
      · rw [hmissing] at hheld
        contradiction
    have hanswers := isSome_lookup?_of_entry (c := ⟨some (r.key, r.answer.layout), c.computations + 1⟩) rfl r.key
    rcases Nat.lt_or_eq_of_le hnone with hless | hequal
    · exact .inl hless
    · exact .inr ⟨congrArg (· + 1) hequal, hanswers.trans hself⟩

namespace Session

def isFresh (opening : Snapshot × Snapshot) : Bool := opening.2.identity != opening.1.identity

theorem identity_replaceFrames (s : Session α) (t : Snapshot) :
    (s.replaceFrames t).snapshot.identity = t.identity := by
  unfold replaceFrames
  split
  · rename_i hsame
    exact hsame
  · rfl

theorem analysisComputations_replaceFrames (s : Session α) (t : Snapshot) :
    (s.replaceFrames t).analysisComputations = s.analysisComputations + [(s.snapshot, t)].countP isFresh := by
  unfold replaceFrames
  split
  · rename_i hsame
    have hstale : isFresh (s.snapshot, t) = false := by
      rw [isFresh, hsame]
      exact bne_self_eq_false _
    rw [List.countP_singleton, hstale]
    rfl
  · rename_i hother
    have hfresh : isFresh (s.snapshot, t) = true := bne_iff_ne.2 (Ne.symm hother)
    rw [List.countP_singleton, hfresh]
    rfl

/-- Whether an event leaves the list and the sizing and asks for no arrows but those of one viewport. -/
structure KeepsArrows (s : Session α) (v : Viewport α) (e : SessionEvent α) : Prop where
  list : ∀ t, e = .replace t → t.identity = s.snapshot.identity
  sizing : ∀ sizing, e = .sizing sizing → sizing = s.sizing
  viewport : ∀ w, e.arrowsViewport? = some w → w = v

theorem KeepsArrows.congr {origin s : Session α} {v : Viewport α} {e : SessionEvent α} (he : origin.KeepsArrows v e)
    (hsnapshot : s.snapshot = origin.snapshot) (hsizing : s.sizing = origin.sizing) : s.KeepsArrows v e where
  list t ht := by rw [hsnapshot]; exact he.list t ht
  sizing z hz := by rw [hsizing]; exact he.sizing z hz
  viewport := he.viewport

variable [Scalar α]

def openedOn (opening : Option Snapshot) : Session α := opening.elim new ofSnapshot

/-- The lists that a history opens, each beside the list held at that moment. -/
def openings (s : Session α) : List (SessionEvent α) → List (Snapshot × Snapshot)
  | [] => []
  | e :: rest => (e.opened?.toList.map fun t => (s.snapshot, t)) ++ openings (s.handle e).session rest

/-- An event counts an analysis just where it opens a list of another identity. -/
theorem analysisComputations_handle (s : Session α) (e : SessionEvent α) :
    (s.handle e).session.analysisComputations =
      s.analysisComputations + (e.opened?.toList.map fun t => (s.snapshot, t)).countP isFresh := by
  cases hopened : e.opened? with
  | none =>
    have hsame : s.SameList (s.handle e).session := by
      apply sameList_handle
      rintro t rfl
      contradiction
    exact hsame.analysisComputations
  | some t =>
    obtain rfl : e = .replace t := by
      cases e <;> simp_all [SessionEvent.opened?]
    exact analysisComputations_replaceFrames s t

/-- An analysis is computed for each list that is opened under a new identity, and for nothing else. -/
theorem analysisComputations_after (s : Session α) (events : List (SessionEvent α)) :
    (s.after events).analysisComputations = s.analysisComputations + (s.openings events).countP isFresh := by
  induction events generalizing s with
  | nil => rfl
  | cons e rest ih =>
    show ((s.handle e).session.after rest).analysisComputations = _
    rw [ih, analysisComputations_handle, openings, List.countP_append, Nat.add_assoc]

/-- The list held is the last one opened, by its identity. -/
theorem identity_after (s : Session α) (events : List (SessionEvent α)) :
    (s.after events).snapshot.identity =
      ((events.filterMap SessionEvent.opened?).getLastD s.snapshot).identity := by
  induction events using List.reverseRecOn with
  | nil => rfl
  | append_singleton before e ih =>
    have hlast : s.after (before ++ [e]) = ((s.after before).handle e).session := after_append s before [e]
    rw [hlast, List.filterMap_append]
    cases hopened : e.opened? with
    | none =>
      have hsame : (s.after before).SameList ((s.after before).handle e).session := by
        apply sameList_handle
        rintro t rfl
        contradiction
      rw [List.filterMap_cons_none hopened, List.filterMap_nil, List.append_nil, hsame.snapshot, ih]
    | some t =>
      obtain rfl : e = .replace t := by
        cases e <;> simp_all [SessionEvent.opened?]
      rw [List.filterMap_cons_some hopened, List.filterMap_nil, List.getLastD_concat]
      exact identity_replaceFrames _ t

/-- An event that asks for no arrows leaves the memo alone. -/
theorem arrowCache_handle_of_none {s : Session α} {e : SessionEvent α} (h : e.arrowsViewport? = none) :
    (s.handle e).session.arrowCache = s.arrowCache := by
  cases e with
  | replace t =>
    show (s.replaceFrames t).arrowCache = s.arrowCache
    unfold replaceFrames
    split <;> rfl
  | sizing sizing =>
    show (s.setStripSizing sizing).arrowCache = s.arrowCache
    unfold setStripSizing
    split <;> rfl
  | pointerDown x v => exact arrowCache_trackStrip s v
  | pointerMove x v =>
    show (s.pointerMove x v).2.arrowCache = s.arrowCache
    unfold pointerMove
    split
    · exact arrowCache_trackStrip s v
    · rfl
  | render surface v =>
    cases surface with
    | timeline => contradiction
    | minimap => rfl
    | pyramid => rfl
    | filmstrip => rfl
  | arrows v => contradiction
  | arrowsFocused v focus => contradiction
  | visible range => rfl
  | select position => rfl
  | step direction => rfl
  | pointerUp => rfl
  | commit position => rfl
  | clear => rfl
  | subscribe => rfl
  | unsubscribe id => rfl

theorem arrowCache_readyForArrows (s : Session α) (v : Viewport α) :
    (s.readyForArrows v).arrowCache = s.arrowCache := arrowCache_trackStrip s v

/-- An event that asks for arrows has them laid out for the list at hand, or finds them in the memo. -/
theorem arrowCache_handle_of_some {s : Session α} {e : SessionEvent α} {v : Viewport α}
    (h : e.arrowsViewport? = some v) : ∃ focus, (s.handle e).session.arrowCache =
      (s.arrowCache.layout s.snapshot focus (s.arrowGeometry v) (s.arrowAnchors v)).2 := by
  cases e with
  | render surface w =>
    cases surface with
    | timeline =>
      obtain rfl : w = v := Option.some.inj h
      have hready := alike_readyForArrows s.synced w
      have hlist : (s.synced.readyForArrows w).snapshot = s.snapshot := (sameList_trackStrip s.synced w).snapshot
      refine ⟨(s.synced.readyForArrows w).currentFrame.map Frame.index, ?_⟩
      show (s.synced.renderTimeline w).2.arrowCache = _
      rw [renderTimeline_eq]
      show ((s.synced.readyForArrows w).arrowCache.layout (s.synced.readyForArrows w).snapshot _
        ((s.synced.readyForArrows w).arrowGeometry w) ((s.synced.readyForArrows w).arrowAnchors w)).2 = _
      rw [hlist, hready.arrowGeometry w, hready.arrowAnchors w, arrowCache_readyForArrows]
      rfl
    | minimap => contradiction
    | pyramid => contradiction
    | filmstrip => contradiction
  | arrows w =>
    obtain rfl : w = v := Option.some.inj h
    exact ⟨_, rfl⟩
  | arrowsFocused w focus =>
    obtain rfl : w = v := Option.some.inj h
    exact ⟨focus, rfl⟩
  | replace t => contradiction
  | sizing sizing => contradiction
  | visible range => contradiction
  | select position => contradiction
  | step direction => contradiction
  | pointerDown x w => contradiction
  | pointerMove x w => contradiction
  | pointerUp => contradiction
  | commit position => contradiction
  | clear => contradiction
  | subscribe => contradiction
  | unsubscribe id => contradiction

variable {origin s : Session α} {v : Viewport α}

theorem layoutKey_congr (hsnapshot : s.snapshot = origin.snapshot) (hsizing : s.sizing = origin.sizing)
    (v : Viewport α) : s.layoutKey v = origin.layoutKey v := by
  unfold layoutKey arrowGeometry arrowAnchors stripLayout Session.length Session.frames
  rw [hsnapshot, hsizing]

theorem KeepsArrows.snapshot_handle {e : SessionEvent α} (he : s.KeepsArrows v e) :
    (s.handle e).session.snapshot = s.snapshot := by
  by_cases hopens : ∃ t, e = .replace t
  · obtain ⟨t, rfl⟩ := hopens
    have hkept : s.replaceFrames t = s := if_pos (he.list t rfl).symm
    exact congrArg Session.snapshot hkept
  · exact (sameList_handle s e fun t ht => hopens ⟨t, ht⟩).snapshot

theorem KeepsArrows.sizing_handle {e : SessionEvent α} (he : s.KeepsArrows v e) :
    (s.handle e).session.sizing = s.sizing := by
  cases e with
  | replace t =>
    show (s.replaceFrames t).sizing = s.sizing
    unfold replaceFrames
    split <;> rfl
  | sizing sizing => exact (sizing_setStripSizing s sizing).trans (he.sizing sizing rfl)
  | pointerDown x w => exact (alike_trackStrip s w).sizing
  | pointerMove x w =>
    show (s.pointerMove x w).2.sizing = s.sizing
    unfold pointerMove
    split
    · exact (alike_trackStrip s w).sizing
    · rfl
  | render surface w =>
    cases surface with
    | timeline => exact (alike_readyForArrows s.synced w).sizing
    | minimap => rfl
    | pyramid => rfl
    | filmstrip => rfl
  | visible range => rfl
  | select position => rfl
  | step direction => rfl
  | pointerUp => rfl
  | commit position => rfl
  | clear => rfl
  | subscribe => rfl
  | unsubscribe id => rfl
  | arrows w => rfl
  | arrowsFocused w focus => rfl

/-- A session on the list and the sizing of another one, whose memo has computed at most one layout since. -/
structure ArrowsComputedOnce (origin : Session α) (v : Viewport α) (s : Session α) : Prop where
  snapshot : s.snapshot = origin.snapshot
  sizing : s.sizing = origin.sizing
  once : s.arrowCache.ComputedOnce origin.arrowCache.computations (origin.layoutKey v)

theorem ArrowsComputedOnce.handle (hs : ArrowsComputedOnce origin v s)
    (hdefined : ∀ x ∈ (origin.layoutKey v).numbers, Scalar.isUndefined x = false) {e : SessionEvent α}
    (he : origin.KeepsArrows v e) : ArrowsComputedOnce origin v (s.handle e).session := by
  have hkeeps : s.KeepsArrows v e := he.congr hs.snapshot hs.sizing
  refine ⟨hkeeps.snapshot_handle.trans hs.snapshot, hkeeps.sizing_handle.trans hs.sizing, ?_⟩
  cases hasked : e.arrowsViewport? with
  | none =>
    rw [arrowCache_handle_of_none hasked]
    exact hs.once
  | some w =>
    obtain rfl : w = v := he.viewport w hasked
    obtain ⟨focus, hcache⟩ := arrowCache_handle_of_some (s := s) hasked
    let r : LayoutRequest α := ⟨s.snapshot, focus, s.arrowGeometry w, s.arrowAnchors w⟩
    have hkey : r.key = origin.layoutKey w := layoutKey_congr hs.snapshot hs.sizing w
    have hself : r.key.isMatch r.key = true := by
      rw [hkey]
      exact isMatch_self_iff.2 hdefined
    have honce : s.arrowCache.ComputedOnce origin.arrowCache.computations r.key := hkey ▸ hs.once
    rw [hcache, ← hkey]
    exact honce.layout hself

/-- However often one picture is asked for, its layout is computed once at most. -/
theorem ArrowsComputedOnce.after (hs : ArrowsComputedOnce origin v s)
    (hdefined : ∀ x ∈ (origin.layoutKey v).numbers, Scalar.isUndefined x = false) {events : List (SessionEvent α)}
    (hevents : ∀ e ∈ events, origin.KeepsArrows v e) : ArrowsComputedOnce origin v (s.after events) := by
  induction events generalizing s with
  | nil => exact hs
  | cons e rest ih =>
    exact ih (hs.handle hdefined (hevents e List.mem_cons_self)) fun d hd => hevents d (List.mem_cons_of_mem e hd)

/-- Arrows for one viewport are laid out once at most. -/
theorem arrowComputations_after_le (s : Session α) {v : Viewport α}
    (hdefined : ∀ x ∈ (s.layoutKey v).numbers, Scalar.isUndefined x = false) {events : List (SessionEvent α)}
    (hevents : ∀ e ∈ events, s.KeepsArrows v e) :
    (s.after events).arrowCache.computations ≤ s.arrowCache.computations + 1 := by
  have hstart : ArrowsComputedOnce s v s := ⟨rfl, rfl, .inl (Nat.le_refl _)⟩
  rcases (hstart.after hdefined hevents).once with hnone | ⟨hone, -⟩
  · exact Nat.le_succ_of_le hnone
  · exact Nat.le_of_eq hone

/-- Whatever a session has been through, all that is derived belongs to the list it holds, which is the last one
opened, and an analysis has been computed for every list of another identity than the one held before, the one
opened with included. Nothing but a new list changes what is derived, and as long as list and sizing stay, arrows
are laid out once at most for one viewport of finite numbers. -/
theorem derived_and_computed_once (opening : Option Snapshot) (events : List (SessionEvent Float)) :
    let history : List (SessionEvent Float) := opening.toList.map .replace ++ events
    let s : Session Float := (openedOn opening).after events
    s.Derived ∧
      s.snapshot.identity = ((history.filterMap SessionEvent.opened?).getLastD Snapshot.initial).identity ∧
      s.analysisComputations = ((new : Session Float).openings history).countP isFresh ∧
      (∀ e, e.opened? = none → s.SameList (s.handle e).session) ∧
      ∀ (v : Viewport Float) (later : List (SessionEvent Float)), v.IsFinite → (∀ e ∈ later, s.KeepsArrows v e) →
        (s.after later).arrowCache.computations ≤ s.arrowCache.computations + 1 := by
  intro history s
  have hs : s = (new : Session Float).after history := by
    cases opening <;> rfl
  refine ⟨?derived, ?held, ?counted, ?kept, ?once⟩
  case derived =>
    rw [hs]
    exact derived_new.after history
  case held =>
    rw [hs]
    exact identity_after new history
  case counted =>
    rw [hs, analysisComputations_after]
    exact Nat.zero_add _
  case kept =>
    intro e hopened
    apply sameList_handle
    rintro t rfl
    contradiction
  case once =>
    intro v later hv hlater
    exact arrowComputations_after_le s (s.isUndefined_layoutKey hv) hlater

/-- Two lists of one identity after another, then a drag and two timelines in one viewport. -/
theorem derived_and_computed_once_in_drag :
    let t : Snapshot := ⟨1, [{ index := 0, kind := .intra }, { index := 1, refs := [0, 7] }]⟩
    let v : Viewport Float := .sized 200 60
    let events : List (SessionEvent Float) := [.replace ⟨2, t.frames⟩, .replace t, .replace ⟨1, []⟩]
    let later : List (SessionEvent Float) := [.render .timeline v, .pointerDown 30 v, .render .timeline v,
      .replace ⟨1, []⟩, .sizing .uniform, .pointerUp, .arrowsFocused v (some 1)]
    let s : Session Float := (openedOn (some t)).after events
    s.frames = t.frames ∧ s.Derived ∧ s.analysisComputations = 3 ∧ v.IsFinite ∧ (∀ e ∈ later, s.KeepsArrows v e) ∧
      (s.after later).arrowCache.computations ≤ s.arrowCache.computations + 1 := by
  intro t v events later
  obtain ⟨hderived, -, hcount, -, honce⟩ := derived_and_computed_once (some t) events
  have hv : (Viewport.sized (200 : Float) 60).IsFinite := ⟨rfl, rfl, rfl, rfl, rfl⟩
  have hlater : ∀ e ∈ later, ((openedOn (some t)).after events).KeepsArrows v e := by
    simp only [later, List.forall_mem_cons]
    refine ⟨?_, ?_, ?_, ?_, ?_, ?_, ?_, List.forall_mem_nil _⟩ <;> refine ⟨?_, ?_, ?_⟩ <;> intro x hx <;>
      cases hx <;> rfl
  exact ⟨rfl, hderived, hcount, hv, hlater, honce v later hv hlater⟩

end Session

end FrameAtlas

import FrameAtlas.Proofs.Session.Computations

/-!
The identity of a list is never seen. Two sessions on one list under two identities answer every event alike, as
long as neither is given another list: an identity goes into keys of the memo only, and there it is compared with
itself.
-/

namespace FrameAtlas.Session

variable {α : Type}

def under (s : Session α) (identity : Nat) (memo : ArrowCache α) : Session α :=
  { s with snapshot := ⟨identity, s.frames⟩, arrowCache := memo }

variable [Scalar α]

/-- One session beside another that has its list under another identity. Each has its own memo, and both memos
hold the same for the list. -/
inductive Twin (s : Session α) : Session α → Prop
  | under (identity : Nat) (memo : ArrowCache α)
    (held : ∀ g anchors, memo.lookup? ⟨identity, g, anchors⟩ =
      s.arrowCache.lookup? ⟨s.snapshot.identity, g, anchors⟩) : Twin s (s.under identity memo)

variable {s t : Session α} {identity : Nat} {memo : ArrowCache α}

theorem Twin.analysis (h : s.Twin t) : t.analysis = s.analysis := by
  cases h
  rfl

theorem Twin.length (h : s.Twin t) : t.length = s.length := by
  cases h
  rfl

/-- Sessions opened on one list are twins. -/
theorem twin_ofSnapshot {m n : Nat} (hm : m ≠ Snapshot.initial.identity) (hn : n ≠ Snapshot.initial.identity)
    (frames : List Frame) : (ofSnapshot ⟨m, frames⟩ : Session α).Twin (ofSnapshot ⟨n, frames⟩) := by
  have hs : (ofSnapshot ⟨m, frames⟩ : Session α) = _ := if_neg (Ne.symm hm)
  have ht : (ofSnapshot ⟨n, frames⟩ : Session α) = _ := if_neg (Ne.symm hn)
  rw [hs, ht]
  exact .under n .empty fun _ _ => rfl

/-- Neither identity nor memo has a part in the strip. -/
theorem trackStrip_under (s : Session α) (identity : Nat) (memo : ArrowCache α) (v : Viewport α) :
    (s.under identity memo).trackStrip v = ((s.trackStrip v).1, (s.trackStrip v).2.under identity memo) := by
  unfold trackStrip
  have hviewport : (s.under identity memo).stripViewport = s.stripViewport := rfl
  simp only [hviewport]
  split <;> rfl

/-- An event that opens no list and asks for no arrows treats both sessions alike. -/
theorem handle_under (s : Session α) (identity : Nat) (memo : ArrowCache α) {e : SessionEvent α}
    (hopened : e.opened? = none) (hasked : e.arrowsViewport? = none) :
    (s.under identity memo).handle e =
      { s.handle e with session := (s.handle e).session.under identity memo } := by
  cases e with
  | replace t => contradiction
  | arrows v => contradiction
  | arrowsFocused v focus => contradiction
  | sizing sizing =>
    have hsized : (s.under identity memo).setStripSizing sizing =
        (s.setStripSizing sizing).under identity memo := by
      unfold setStripSizing
      have hsizing : (s.under identity memo).sizing = s.sizing := rfl
      rw [hsizing]
      split <;> rfl
    exact congrArg (fun s => (⟨s, .nothing, []⟩ : SessionTurn α)) hsized
  | pointerDown x v =>
    simp only [Session.handle, Session.pointerDown, trackStrip_under]
    rfl
  | pointerMove x v =>
    have hcursor : (s.under identity memo).cursor = s.cursor := rfl
    simp only [Session.handle, Session.pointerMove, trackStrip_under, hcursor]
    split <;> rfl
  | render surface v =>
    cases surface with
    | timeline => contradiction
    | minimap => rfl
    | pyramid => rfl
    | filmstrip => rfl
  | visible range => rfl
  | select position => rfl
  | step direction => rfl
  | pointerUp => rfl
  | commit position => rfl
  | clear => rfl
  | subscribe => rfl
  | unsubscribe id => rfl

theorem arrowsFocused_under (s : Session α) (identity : Nat) (memo : ArrowCache α) (v : Viewport α)
    (focus : Option UInt32) :
    let asked := memo.layout ⟨identity, s.frames⟩ focus (s.arrowGeometry v) (s.arrowAnchors v)
    (s.under identity memo).arrowsFocused v focus = (asked.1, s.under identity asked.2) := rfl

/-- Twins find the same layout in their memos, or both of them compute it. -/
theorem Twin.arrowsFocused (h : s.Twin t) (v : Viewport α) (focus : Option UInt32) :
    (t.arrowsFocused v focus).1 = (s.arrowsFocused v focus).1 ∧
      (s.arrowsFocused v focus).2.Twin (t.arrowsFocused v focus).2 := by
  cases h with
  | under identity memo held =>
    let g := s.arrowGeometry v
    let anchors := s.arrowAnchors v
    let layout : ArrowLayout α := .compute s.frames g anchors
    have hasked := held g anchors
    cases hfound : s.arrowCache.lookup? ⟨s.snapshot.identity, g, anchors⟩ with
    | some found =>
      have hs : s.arrowsFocused v focus = (⟨found, focus⟩, s) := by
        rw [Session.arrowsFocused, ArrowCache.layout, hfound]
      have ht : (s.under identity memo).arrowsFocused v focus = (⟨found, focus⟩, s.under identity memo) := by
        rw [arrowsFocused_under, ArrowCache.layout, hasked, hfound]
      rw [hs, ht]
      exact ⟨rfl, .under identity memo held⟩
    | none =>
      have hs : s.arrowsFocused v focus = (⟨layout, focus⟩, { s with arrowCache :=
          ⟨some (⟨s.snapshot.identity, g, anchors⟩, layout), s.arrowCache.computations + 1⟩ }) := by
        rw [Session.arrowsFocused, ArrowCache.layout, hfound]
        rfl
      have ht : (s.under identity memo).arrowsFocused v focus = (⟨layout, focus⟩, s.under identity
          ⟨some (⟨identity, g, anchors⟩, layout), memo.computations + 1⟩) := by
        rw [arrowsFocused_under, ArrowCache.layout, hasked, hfound]
      rw [hs, ht]
      refine ⟨rfl, .under identity _ ?_⟩
      intro g' anchors'
      -- Both keys hold their own identity, so that they differ in measures and anchors or not at all.
      simp only [ArrowCache.lookup?, LayoutKey.isMatch, beq_self_eq_true]

theorem Twin.arrows (h : s.Twin t) (v : Viewport α) :
    (t.arrows v).1 = (s.arrows v).1 ∧ (s.arrows v).2.Twin (t.arrows v).2 := by
  have hfocus : t.currentFrame = s.currentFrame := by
    cases h
    rfl
  rw [Session.arrows, Session.arrows, hfocus]
  exact h.arrowsFocused v _

theorem Twin.readyForArrows (h : s.Twin t) (v : Viewport α) : (s.readyForArrows v).Twin (t.readyForArrows v) := by
  cases h with
  | under identity memo held =>
    have hready : (s.under identity memo).readyForArrows v = (s.readyForArrows v).under identity memo := by
      unfold Session.readyForArrows
      simp only [trackStrip_under]
      rfl
    rw [hready]
    apply Twin.under
    have hlist : (s.readyForArrows v).snapshot = s.snapshot := (sameList_trackStrip s v).snapshot
    rw [hlist, arrowCache_readyForArrows]
    exact held

/-- Twins draw the same timeline. -/
theorem Twin.renderTimeline (h : s.Twin t) (v : Viewport α) :
    (t.renderTimeline v).1 = (s.renderTimeline v).1 ∧ (s.renderTimeline v).2.Twin (t.renderTimeline v).2 := by
  obtain ⟨harrows, htwin⟩ := (h.readyForArrows v).arrows v
  rw [renderTimeline_eq, renderTimeline_eq, harrows]
  refine ⟨?_, htwin⟩
  cases h with
  | under identity memo held =>
    rw [trackStrip_under]
    rfl

/-- Twins answer alike and stay twins. -/
theorem Twin.handle (h : s.Twin t) {e : SessionEvent α} (hopened : e.opened? = none) :
    (t.handle e).reply = (s.handle e).reply ∧ (t.handle e).notices = (s.handle e).notices ∧
      (s.handle e).session.Twin (t.handle e).session := by
  cases hasked : e.arrowsViewport? with
  | none =>
    cases h with
    | under identity memo held =>
      rw [handle_under s identity memo hopened hasked]
      refine ⟨rfl, rfl, .under identity memo ?_⟩
      have hlist : s.SameList (s.handle e).session := by
        apply sameList_handle
        rintro t rfl
        contradiction
      rw [hlist.snapshot, arrowCache_handle_of_none hasked]
      exact held
  | some v =>
    cases e with
    | arrows w =>
      obtain ⟨harrows, htwin⟩ := h.arrows w
      exact ⟨congrArg SessionReply.arrows harrows, rfl, htwin⟩
    | arrowsFocused w focus =>
      obtain ⟨harrows, htwin⟩ := h.arrowsFocused w focus
      exact ⟨congrArg SessionReply.arrows harrows, rfl, htwin⟩
    | render surface w =>
      cases surface with
      | timeline =>
        have hsynced : s.synced.Twin t.synced := by
          cases h with
          | under identity memo held => exact .under identity memo held
        obtain ⟨hcommands, htwin⟩ := hsynced.renderTimeline w
        exact ⟨congrArg SessionReply.commands hcommands, rfl, htwin⟩
      | minimap => contradiction
      | pyramid => contradiction
      | filmstrip => contradiction
    | _ => contradiction

end FrameAtlas.Session

import FrameAtlas.Proofs.Session.Picture
import FrameAtlas.Proofs.Session.Sources

namespace FrameAtlas.Session

variable {α : Type} [Scalar α] {src : Sources α} {s : Session α}

/-- What a session remembers is what would be computed now. -/
structure Sound (src : Sources α) (s : Session α) : Prop where
  derived : s.Derived
  listed : s.snapshot ∈ src.lists
  tracked : ∀ v, s.stripViewport = some v →
    v ∈ src.viewports ∧ s.cursor.IsMeasured (s.stripLayout v).bounds
  explained : src.Explains s.arrowCache

/-- A new list is taken in with all that depends on it, so nothing old is remembered for it. -/
theorem Sound.replaceFrames (hs : s.Sound src) {t : Snapshot} (ht : t ∈ src.lists) :
    (s.replaceFrames t).Sound src := by
  have hd := hs.derived.replaceFrames t
  unfold Session.replaceFrames at hd ⊢
  split
  · exact hs
  · rename_i hid
    rw [if_neg hid] at hd
    refine ⟨hd, ht, ?_, hs.explained⟩
    intro v hv
    exact ⟨(hs.tracked v hv).1, Cursor.IsMeasured.of_dirty rfl _⟩

theorem Sound.setStripSizing (hs : s.Sound src) (sizing : StripSizing) :
    (s.setStripSizing sizing).Sound src := by
  have hd := hs.derived.sameList (sameList_setStripSizing s sizing)
  unfold Session.setStripSizing at hd ⊢
  split
  · exact hs
  · rename_i hne
    rw [if_neg hne] at hd
    refine ⟨hd, hs.listed, ?_, hs.explained⟩
    intro v hv
    exact ⟨(hs.tracked v hv).1, Cursor.IsMeasured.of_dirty rfl _⟩

/-- A cursor that keeps what was measured leaves the session sound. -/
theorem Sound.cursor (hs : s.Sound src) {c : Cursor α} (hc : s.cursor.Keeps c)
    (store : SelectionStore) : Sound src { s with cursor := c, selection := store } where
  derived := hs.derived.sameList (sameList_cursor s hc.frameCount store)
  listed := hs.listed
  tracked v hv := ⟨(hs.tracked v hv).1, (hs.tracked v hv).2.keeps hc⟩
  explained := hs.explained

theorem Sound.trackStrip (hs : s.Sound src) {v : Viewport α} (hv : v ∈ src.viewports) :
    (s.trackStrip v).2.Sound src ∧ (s.trackStrip v).2.stripViewport = some v := by
  have hd := hs.derived.sameList (sameList_trackStrip s v)
  unfold Session.trackStrip at hd ⊢
  simp only at hd ⊢
  split
  · rename_i hsame
    -- Nothing is measured again here, so the old viewport must be the new one and not only look so.
    refine ⟨hs, ?_⟩
    obtain ⟨w, hw⟩ : ∃ w, s.stripViewport = some w := by
      cases hsv : s.stripViewport with
      | none => rw [hsv] at hsame; contradiction
      | some w => exact ⟨w, rfl⟩
    have hwv : (w == v) = true := by simpa [hw] using hsame
    rw [hw, src.viewports_exact w (hs.tracked w hw).1 v hv hwv]
  · rename_i hother
    rw [if_neg hother] at hd
    refine ⟨⟨hd, hs.listed, ?_, hs.explained⟩, rfl⟩
    intro w hw
    obtain rfl : v = w := by simpa using hw
    exact ⟨hv, Cursor.IsMeasured.of_dirty rfl _⟩

theorem Sound.askX (hs : s.Sound src) {v : Viewport α} (hv : s.stripViewport = some v) :
    Sound src { s with cursor := (s.cursor.x (s.stripLayout v).bounds).2 } where
  derived := hs.derived.sameList (sameList_cursor s (Cursor.frameCount_x _ _) s.selection)
  listed := hs.listed
  tracked w hw := by
    obtain rfl : v = w := by simpa [hv] using hw
    exact ⟨(hs.tracked v hv).1, (hs.tracked v hv).2.x⟩
  explained := hs.explained

theorem Sound.arrowsFocused (hs : s.Sound src) {v : Viewport α} (hk : s.layoutKey v ∈ src.keys)
    (focus : Option UInt32) : (s.arrowsFocused v focus).2.Sound src where
  derived := hs.derived.sameList (sameList_arrowsFocused s v focus)
  listed := hs.listed
  tracked := hs.tracked
  explained := (hs.explained.layout hs.listed hk focus).2

theorem sound_new (src : Sources α) : (new : Session α).Sound src where
  derived := derived_new
  listed := src.initial_mem
  tracked v hv := by simp [new] at hv
  explained := src.explains_empty

theorem Sound.pointerDown (hs : s.Sound src) (x : α) {v : Viewport α} (hv : v ∈ src.viewports) :
    (s.pointerDown x v).2.Sound src :=
  (hs.trackStrip hv).1.cursor (Cursor.keeps_pointerDown _ _ _ _) _

theorem Sound.pointerMove (hs : s.Sound src) (x : α) {v : Viewport α}
    (hv : s.cursor.isDragging = true → v ∈ src.viewports) : (s.pointerMove x v).2.Sound src := by
  unfold Session.pointerMove
  split
  · rename_i hdrag
    exact (hs.trackStrip (hv hdrag)).1.cursor (Cursor.keeps_pointerMove _ _ _ _) _
  · exact hs

def readyForArrows (s : Session α) (v : Viewport α) : Session α :=
  let t := (s.trackStrip v).2
  { t with cursor := (t.cursor.x (s.stripLayout v).bounds).2 }

theorem layoutKey_readyForArrows (s : Session α) (v : Viewport α) :
    (s.readyForArrows v).layoutKey v = s.layoutKey v := by
  unfold readyForArrows trackStrip
  simp only
  split <;> rfl

theorem Sound.readyForArrows (hs : s.Sound src) {v : Viewport α} (hv : v ∈ src.viewports) :
    (s.readyForArrows v).Sound src := by
  obtain ⟨ht, htv⟩ := hs.trackStrip hv
  have hx := ht.askX htv
  rw [(alike_trackStrip s v).stripLayout v] at hx
  exact hx

theorem Sound.renderTimeline (hs : s.Sound src) {v : Viewport α} (hv : v ∈ src.viewports)
    (hk : s.layoutKey v ∈ src.keys) : (s.renderTimeline v).2.Sound src := by
  have hready : (s.readyForArrows v).layoutKey v ∈ src.keys := by rwa [layoutKey_readyForArrows]
  exact (hs.readyForArrows hv).arrowsFocused hready _

theorem Sound.render (hs : s.Sound src) {surface : SurfaceKind} {v : Viewport α}
    (hd : s.Draws src (.render surface v)) : (s.render surface v).2.Sound src := by
  have hsync := hs.cursor (Cursor.keeps_syncFrom s.cursor s.selection) s.selection
  cases surface with
  | timeline => exact hsync.renderTimeline hd.1 hd.2
  | minimap => exact hsync
  | pyramid => exact hsync
  | filmstrip => exact hsync

/-- Every event that draws on the sources leaves a session sound. -/
theorem Sound.handle (hs : s.Sound src) {e : SessionEvent α} (hd : s.Draws src e) :
    (s.handle e).session.Sound src := by
  cases e with
  | replace t => exact hs.replaceFrames hd
  | sizing sizing => exact hs.setStripSizing sizing
  | visible range =>
    have hsame : s.SameList (s.setVisibleRange range) := ⟨rfl, rfl, rfl, rfl, rfl⟩
    exact ⟨hs.derived.sameList hsame, hs.listed, hs.tracked, hs.explained⟩
  | select position => exact hs.cursor (Cursor.keeps_select _ _ _) _
  | step direction =>
    exact hs.cursor ((Cursor.keeps_syncFrom _ _).trans (Cursor.keeps_step _ _ _)) _
  | pointerDown x v => exact hs.pointerDown x hd
  | pointerMove x v => exact hs.pointerMove x hd
  | pointerUp => exact hs.cursor (Cursor.keeps_pointerUp _ _) _
  | commit position => exact hs.cursor (Cursor.Keeps.refl _) _
  | clear => exact hs.cursor (Cursor.Keeps.refl _) _
  | subscribe => exact hs.cursor (Cursor.Keeps.refl _) _
  | unsubscribe id => exact hs.cursor (Cursor.Keeps.refl _) _
  | render surface v => exact hs.render hd
  | arrows v => exact hs.arrowsFocused hd _
  | arrowsFocused v focus => exact hs.arrowsFocused hd focus

/-- A history that draws on the sources leaves nothing stale. -/
theorem Sound.after (hs : s.Sound src) {events : List (SessionEvent α)}
    (hd : s.DrawsAll src events) : (s.after events).Sound src := by
  induction events generalizing s with
  | nil => exact hs
  | cons e rest ih => exact ih (hs.handle hd.1) hd.2

def IsOpening (src : Sources α) (s : Session α) : Prop :=
  s = new ∨ ∃ t ∈ src.lists, s = ofSnapshot t

theorem IsOpening.sound (h : s.IsOpening src) : s.Sound src := by
  rcases h with rfl | ⟨t, ht, rfl⟩
  · exact sound_new src
  · exact (sound_new src).replaceFrames ht

end FrameAtlas.Session

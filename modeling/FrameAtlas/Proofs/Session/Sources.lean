import FrameAtlas.Arrow.Request
import FrameAtlas.Session.Event
import Mathlib.Data.Set.Basic

/-!
Layouts and viewports are found again by comparing numbers. A history is taken to draw on sources in
which numbers that compare equal are equal, which leaves out nothing but a mixture of the two zeros. A
memo that holds only what it was once given for such sources gives back what would be computed.
-/

namespace FrameAtlas

variable {α : Type}

/-- What a history compares: the lists it opens, the viewports it shows strips in and the keys it asks
layouts for. In each of them what compares equal is equal, and one identity stands for one list. -/
structure Sources (α : Type) [BEq α] where
  lists : Set Snapshot
  viewports : Set (Viewport α)
  keys : Set (LayoutKey α)
  initial_mem : Snapshot.initial ∈ lists
  lists_exact : ∀ a ∈ lists, ∀ b ∈ lists, a.identity = b.identity → a.frames = b.frames
  viewports_exact : ∀ v ∈ viewports, ∀ w ∈ viewports, (v == w) = true → v = w
  keys_exact : ∀ k ∈ keys, ∀ l ∈ keys, k.isMatch l = true → k = l

deriving instance ReflBEq, LawfulBEq for Viewport
deriving instance ReflBEq, LawfulBEq for ArrowGeometry

/-- Where comparing equal is being equal, matching keys are the same key. -/
theorem LayoutKey.eq_of_isMatch [BEq α] [LawfulBEq α] {k l : LayoutKey α}
    (h : k.isMatch l = true) : k = l := by
  simp only [isMatch, Bool.and_eq_true, beq_iff_eq] at h
  obtain ⟨⟨hidentity, hgeometry⟩, hbeq⟩ := h
  have hentries : (k.anchors.centers.entries == l.anchors.centers.entries) = true := hbeq
  have hanchors : k.anchors = l.anchors :=
    congrArg FrameAnchors.mk (IndexMap.ext (eq_of_beq hentries))
  cases k
  cases l
  subst hidentity hgeometry hanchors
  rfl

namespace Sources

def ofLists [BEq α] [LawfulBEq α] (lists : Set Snapshot) (initial_mem : Snapshot.initial ∈ lists)
    (lists_exact : ∀ a ∈ lists, ∀ b ∈ lists, a.identity = b.identity → a.frames = b.frames) :
    Sources α where
  lists := lists
  viewports := Set.univ
  keys := Set.univ
  initial_mem := initial_mem
  lists_exact := lists_exact
  viewports_exact _ _ _ _ h := eq_of_beq h
  keys_exact _ _ _ _ h := LayoutKey.eq_of_isMatch h

theorem exact_pair {t : Snapshot}
    (ht : t.identity = Snapshot.initial.identity → t.frames = Snapshot.initial.frames) :
    ∀ a ∈ ({Snapshot.initial, t} : Set Snapshot), ∀ b ∈ ({Snapshot.initial, t} : Set Snapshot),
      a.identity = b.identity → a.frames = b.frames := by
  rintro a (rfl | rfl) b (rfl | rfl) hid
  · rfl
  · exact (ht hid.symm).symm
  · exact ht hid
  · rfl

def single [BEq α] (t : Snapshot)
    (ht : t.identity = Snapshot.initial.identity → t.frames = Snapshot.initial.frames)
    (v : Viewport α) (key : LayoutKey α) : Sources α where
  lists := {Snapshot.initial, t}
  viewports := {v}
  keys := {key}
  initial_mem := .inl rfl
  lists_exact := exact_pair ht
  viewports_exact _ hv _ hw _ := hv.trans hw.symm
  keys_exact _ hk _ hl _ := hk.trans hl.symm

def Explains [Scalar α] (src : Sources α) (c : ArrowCache α) : Prop :=
  ∀ key layout, c.entry = some (key, layout) →
    key ∈ src.keys ∧ ∀ t ∈ src.lists, t.identity = key.identity →
      layout = ArrowLayout.compute t.frames key.geometry key.anchors

variable [Scalar α]

theorem explains_empty (src : Sources α) : src.Explains ArrowCache.empty := by
  intro key layout h
  simp [ArrowCache.empty] at h

/-- Remembered or computed, the layout given back is the one of the list, the measures and the anchors
asked for, and the memo is right afterwards. -/
theorem Explains.layout {src : Sources α} {c : ArrowCache α} (hc : src.Explains c) {t : Snapshot}
    (ht : t ∈ src.lists) {g : ArrowGeometry α} {anchors : FrameAnchors α}
    (hk : (⟨t.identity, g, anchors⟩ : LayoutKey α) ∈ src.keys) (focus : Option UInt32) :
    (c.layout t focus g anchors).1 = ⟨ArrowLayout.compute t.frames g anchors, focus⟩ ∧
      src.Explains (c.layout t focus g anchors).2 := by
  rcases c.layout_cases ⟨t, focus, g, anchors⟩ with ⟨key, held, hentry, hmatch, hlayout⟩ | ⟨-, hlayout⟩
  · obtain ⟨hkey, hheld⟩ := hc key held hentry
    obtain rfl : key = ⟨t.identity, g, anchors⟩ := src.keys_exact key hkey _ hk hmatch
    rw [hlayout, hheld t ht rfl]
    exact ⟨rfl, hc⟩
  · -- The layout is computed and takes the one place of the memo; what stood there is forgotten.
    rw [hlayout]
    refine ⟨rfl, ?_⟩
    intro key layout hentry
    obtain ⟨rfl, rfl⟩ := Prod.mk.inj (Option.some.inj hentry)
    refine ⟨hk, ?_⟩
    intro u hu hid
    rw [src.lists_exact u hu t ht hid]
    rfl

end Sources

namespace Session

variable [Scalar α]

def layoutKey (s : Session α) (v : Viewport α) : LayoutKey α :=
  ⟨s.snapshot.identity, s.arrowGeometry v, s.arrowAnchors v⟩

def Draws (src : Sources α) (s : Session α) : SessionEvent α → Prop
  | .replace t => t ∈ src.lists
  | .pointerDown _ v => v ∈ src.viewports
  | .pointerMove _ v => s.cursor.isDragging = true → v ∈ src.viewports
  | .render .timeline v => v ∈ src.viewports ∧ s.layoutKey v ∈ src.keys
  | .arrows v => s.layoutKey v ∈ src.keys
  | .arrowsFocused v _ => s.layoutKey v ∈ src.keys
  | _ => True

/-- Whether all events of a history draw on the sources, each in the session it meets. -/
def DrawsAll (src : Sources α) : Session α → List (SessionEvent α) → Prop
  | _, [] => True
  | s, e :: rest => s.Draws src e ∧ DrawsAll src (s.handle e).session rest

/-- A history draws on the sources if its two parts do, the second from where the first has led. -/
theorem drawsAll_append (src : Sources α) (s : Session α) (first second : List (SessionEvent α)) :
    s.DrawsAll src (first ++ second) ↔ s.DrawsAll src first ∧ (s.after first).DrawsAll src second := by
  induction first generalizing s with
  | nil => simp [DrawsAll]
  | cons e rest ih =>
    have hrest : s.after (e :: rest) = (s.handle e).session.after rest := rfl
    rw [List.cons_append, DrawsAll, DrawsAll, ih, hrest, and_assoc]

end Session

end FrameAtlas

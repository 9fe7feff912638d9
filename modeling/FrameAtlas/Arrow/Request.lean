import FrameAtlas.Arrow.Cache

namespace FrameAtlas

variable {α : Type}

structure LayoutRequest (α : Type) where
  snapshot : Snapshot
  focus : Option UInt32
  geometry : ArrowGeometry α
  anchors : FrameAnchors α

def LayoutRequest.key (r : LayoutRequest α) : LayoutKey α := ⟨r.snapshot.identity, r.geometry, r.anchors⟩

def LayoutRequest.answer [Scalar α] (r : LayoutRequest α) : FocusedArrows α :=
  ⟨ArrowLayout.compute r.snapshot.frames r.geometry r.anchors, r.focus⟩

inductive ArrowCacheCall (α : Type) where
  | nominal (s : Snapshot) (focus : Option UInt32) (g : ArrowGeometry α)
  | layout (request : LayoutRequest α)
  | invalidate

namespace ArrowCache

variable [Scalar α]

/-- All that a request for a layout can do. The memo gives back what it holds, under a key that matches, and
stays as it is; or what is computed is given back and is the one thing that the memo holds afterwards. -/
theorem layout_cases (c : ArrowCache α) (r : LayoutRequest α) :
    (∃ key held, c.entry = some (key, held) ∧ key.isMatch r.key = true ∧
        c.layout r.snapshot r.focus r.geometry r.anchors = (⟨held, r.focus⟩, c)) ∨
      (c.lookup? r.key = none ∧
        c.layout r.snapshot r.focus r.geometry r.anchors =
          (r.answer, ⟨some (r.key, r.answer.layout), c.computations + 1⟩)) := by
  cases hentry : c.entry with
  | none =>
    have hnone : c.lookup? r.key = none := by rw [lookup?, hentry]
    refine .inr ⟨hnone, ?_⟩
    rw [LayoutRequest.key] at hnone
    rw [layout, hnone]
    rfl
  | some held =>
    have hlookup : c.lookup? r.key = if held.1.isMatch r.key then some held.2 else none := by
      rw [lookup?, hentry]
    by_cases hmatch : held.1.isMatch r.key = true
    · refine .inl ⟨held.1, held.2, rfl, hmatch, ?_⟩
      rw [if_pos hmatch, LayoutRequest.key] at hlookup
      rw [layout, hlookup]
    · rw [if_neg hmatch] at hlookup
      refine .inr ⟨hlookup, ?_⟩
      rw [LayoutRequest.key] at hlookup
      rw [layout, hlookup]
      rfl

def layoutNominal (c : ArrowCache α) (s : Snapshot) (focus : Option UInt32) (g : ArrowGeometry α) :
    FocusedArrows α × ArrowCache α :=
  c.layout s focus g .empty

def handle (c : ArrowCache α) : ArrowCacheCall α → Option (FocusedArrows α) × ArrowCache α
  | .nominal s focus g =>
    let (arrows, c) := c.layoutNominal s focus g
    (some arrows, c)
  | .layout r =>
    let (arrows, c) := c.layout r.snapshot r.focus r.geometry r.anchors
    (some arrows, c)
  | .invalidate => (none, c.invalidate)

def after (c : ArrowCache α) (calls : List (ArrowCacheCall α)) : ArrowCache α :=
  calls.foldl (fun c call => (c.handle call).2) c

@[simp] theorem after_nil (c : ArrowCache α) : c.after [] = c := rfl

@[simp] theorem after_cons (c : ArrowCache α) (call : ArrowCacheCall α) (rest : List (ArrowCacheCall α)) :
    c.after (call :: rest) = (c.handle call).2.after rest := rfl

end ArrowCache

end FrameAtlas

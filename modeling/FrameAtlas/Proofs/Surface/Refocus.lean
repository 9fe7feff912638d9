import FrameAtlas.Proofs.Surface.Paths
import FrameAtlas.Scalar.Exact

namespace FrameAtlas

variable {α : Type}

def Command.unflagged : Command α → Command α
  | .path c => .path { c with visible := false }
  | c => c

def ArrowLayout.tellsApart (l : ArrowLayout α) (before after : Option UInt32) (a : Arrow α) : Bool :=
  (FocusedArrows.mk l before).isVisible a != (FocusedArrows.mk l after).isVisible a

namespace Overlay

section Flags

/-- Of two focuses the later counts. -/
theorem refocusCommand_refocusCommand (f g : Option UInt32) (c : Command α) :
    refocusCommand g (refocusCommand f c) = refocusCommand g c := by
  cases c <;> rfl

theorem unflagged_refocusCommand (g : Option UInt32) (c : Command α) :
    (refocusCommand g c).unflagged = c.unflagged := by
  cases c <;> rfl

/-- Under the focus it was last put under, no command has anything left to flip. -/
theorem isFlipped_refocusCommand (g : Option UInt32) (c : Command α) :
    isFlipped g (refocusCommand g c) = false := by
  cases c with
  | path c => exact bne_self_eq_false _
  | rect | text | line | beginGroup | endGroup => rfl

/-- A path is shown if it starts from the focused frame. One that starts nowhere is never shown. -/
theorem isShown_iff (g : Option UInt32) (c : PathCommand α) :
    isShown g c = true ↔ ∃ i, c.sourceFrame = some i ∧ g = some i := by
  rw [isShown, Bool.and_eq_true, beq_iff_eq, Option.isSome_iff_exists]
  constructor
  · rintro ⟨⟨i, hi⟩, hg⟩
    exact ⟨i, hi, hg ▸ hi⟩
  · rintro ⟨i, hi, rfl⟩
    exact ⟨⟨i, hi⟩, hi⟩

/-- A second focus makes the first one forgotten. -/
theorem refocus_refocus (f g : Option UInt32) (commands : List (Command α)) :
    (refocus g (refocus f commands).2).2 = (refocus g commands).2 := by
  simp only [refocus, List.map_map]
  apply List.map_congr_left
  intro c _
  exact refocusCommand_refocusCommand f g c

/-- A change of focus leaves everything but the flags as it was. -/
theorem map_unflagged_refocus (g : Option UInt32) (commands : List (Command α)) :
    (refocus g commands).2.map Command.unflagged = commands.map Command.unflagged := by
  simp only [refocus, List.map_map]
  apply List.map_congr_left
  intro c _
  exact unflagged_refocusCommand g c

theorem visible_of_mem_refocus {g : Option UInt32} {commands : List (Command α)} {c : PathCommand α}
    (hc : .path c ∈ (refocus g commands).2) : c.visible = isShown g c := by
  obtain ⟨before, -, hbefore⟩ := List.mem_map.1 hc
  cases before with
  | path p => rw [← Command.path.inj hbefore]; rfl
  | rect | text | line | beginGroup | endGroup => contradiction

/-- The same focus twice changes nothing the second time. -/
theorem refocus_same (g : Option UInt32) (commands : List (Command α)) :
    refocus g (refocus g commands).2 = (0, (refocus g commands).2) := by
  have hcount : (refocus g (refocus g commands).2).1 = 0 := by
    apply List.countP_eq_zero.2
    intro c hc
    obtain ⟨before, -, rfl⟩ := List.mem_map.1 hc
    rw [isFlipped_refocusCommand]
    exact Bool.false_ne_true
  exact Prod.ext hcount (refocus_refocus g g commands)

end Flags

section Drawn

variable [Scalar α]

def drawnArrows (l : ArrowLayout α) : List (Arrow α) := if l.isRenderable then l.arrows else []

/-- The path of an arrow under a new focus is the path drawn with that focus. -/
theorem refocusCommand_arrowPath (l : ArrowLayout α) (f g : Option UInt32) (a : Arrow α) :
    refocusCommand g (arrowPath ⟨l, f⟩ a) = arrowPath ⟨l, g⟩ a := by
  have hshown : (some a.source == g) = (g == some a.source) := Bool.beq_comm
  simp only [arrowPath, refocusCommand, isShown, FocusedArrows.isVisible, Option.isSome_some,
    Bool.true_and, hshown]

theorem isFlipped_arrowPath (l : ArrowLayout α) (f g : Option UInt32) (a : Arrow α) :
    isFlipped g (arrowPath ⟨l, f⟩ a) = l.tellsApart f g a := by
  have hshown : (some a.source == g) = (g == some a.source) := Bool.beq_comm
  simp only [arrowPath, isFlipped, isShown, ArrowLayout.tellsApart, FocusedArrows.isVisible,
    Option.isSome_some, Bool.true_and, hshown]

def turned (l : ArrowLayout α) (before after : Option UInt32) : Nat :=
  (drawnArrows l).countP (l.tellsApart before after)

/-- One change of focus: the overlay under the new focus, and one change for every drawn arrow that
the two focuses show differently. -/
theorem refocus_render (l : ArrowLayout α) (f g : Option UInt32) :
    refocus g (render ⟨l, f⟩) = (turned l f g, render ⟨l, g⟩) := by
  cases hshown : l.isRenderable with
  | false =>
    have hdrawn (focus : Option UInt32) : render ⟨l, focus⟩ = [] := render_eq_nil hshown
    have hnone : drawnArrows l = [] := by rw [drawnArrows, hshown, if_neg Bool.false_ne_true]
    rw [hdrawn f, hdrawn g, turned, hnone]
    rfl
  | true =>
    have hrender (focus : Option UInt32) : render ⟨l, focus⟩ =
        .beginGroup "arrows" (some "References") :: l.arrows.map (arrowPath ⟨l, focus⟩) ++ [.endGroup] :=
      if_pos hshown
    have hall : drawnArrows l = l.arrows := if_pos hshown
    have hcount : (l.arrows.map (arrowPath ⟨l, f⟩)).countP (isFlipped g) =
        turned l f g := by
      rw [List.countP_map, turned, hall]
      apply List.countP_congr
      intro a _
      rw [Function.comp_apply, isFlipped_arrowPath]
    have hpaths : (l.arrows.map (arrowPath ⟨l, f⟩)).map (refocusCommand g) =
        l.arrows.map (arrowPath ⟨l, g⟩) := by
      rw [List.map_map]
      apply List.map_congr_left
      intro a _
      exact refocusCommand_arrowPath l f g a
    rw [hrender f, hrender g, refocus, List.countP_append, List.countP_cons, hcount,
      List.map_append, List.map_cons, hpaths]
    rfl

omit [Scalar α] in
theorem refocusAll_cons (g : Option UInt32) (later : List (Option UInt32)) (commands : List (Command α)) :
    refocusAll (g :: later) commands =
      ((refocus g commands).1 :: (refocusAll later (refocus g commands).2).1,
        (refocusAll later (refocus g commands).2).2) := rfl

/-- Any number of changes of focus: the overlay under the last one, each change counted against the
focus just before it. -/
theorem refocusAll_render (l : ArrowLayout α) (f : Option UInt32) (gs : List (Option UInt32)) :
    refocusAll gs (render ⟨l, f⟩) =
      (List.zipWith (turned l) (f :: gs) gs, render ⟨l, gs.getLastD f⟩) := by
  induction gs generalizing f with
  | nil => rfl
  | cons g later ih =>
    rw [refocusAll_cons, refocus_render, ih g, List.zipWith_cons_cons, List.getLastD_cons]

/-- Flipping flags is drawing anew. An overlay taken through any focuses is the overlay under the last, and
each focus changes the drawn arrows that it shows otherwise than the focus before. Of any commands whatever a
focus changes the flags of paths alone, which show what starts from the focused frame; focuses before the
last leave no trace, and the same one again changes nothing. -/
theorem refocused_eq_redrawn :
    (∀ (l : ArrowLayout α) (f : Option UInt32) (gs : List (Option UInt32)),
      refocusAll gs (render ⟨l, f⟩) =
        (List.zipWith (turned l) (f :: gs) gs, render ⟨l, gs.getLastD f⟩)) ∧
      ∀ (commands : List (Command α)) (f g : Option UInt32),
        (refocus g commands).2.map Command.unflagged = commands.map Command.unflagged ∧
          (∀ c, .path c ∈ (refocus g commands).2 →
            (c.visible = true ↔ ∃ i, c.sourceFrame = some i ∧ g = some i)) ∧
          (refocus g (refocus f commands).2).2 = (refocus g commands).2 ∧
          refocus g (refocus g commands).2 = (0, (refocus g commands).2) := by
  refine ⟨refocusAll_render, ?_⟩
  intro commands f g
  refine ⟨map_unflagged_refocus g commands, ?_, refocus_refocus f g commands, refocus_same g commands⟩
  intro c hc
  rw [visible_of_mem_refocus hc]
  exact isShown_iff g c

/-- A margin far below zero leaves no width to a layout, so it has an arrow and no overlay. The arrow is visible
under one focus and hidden under the other, and yet nothing drawn changes. -/
theorem refocus_skips_undrawn_arrow :
    let frames : List Frame := [{ index := 0, kind := .intra }, { index := 1, refs := [0] }]
    let g : ArrowGeometry Rat := { ArrowGeometry.default with margin := -1000 }
    let l := ArrowLayout.computeNominal frames g
    render ⟨l, none⟩ = [] ∧ (refocus (some 1) (render ⟨l, none⟩)).1 = 0 ∧
      (FocusedArrows.mk l none).visibility = [false] ∧ (FocusedArrows.mk l (some 1)).visibility = [true] ∧
      l.arrows.countP (l.tellsApart none (some 1)) = 1 := by
  decide +kernel

end Drawn

end Overlay

end FrameAtlas

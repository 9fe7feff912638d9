import FrameAtlas.Surface.Overlay
import FrameAtlas.Surface.Timeline
import Mathlib.Data.List.Forall2

namespace FrameAtlas

variable {α : Type}

namespace Command

def path? : Command α → Option (PathCommand α)
  | .path c => some c
  | _ => none

def groupId? : Command α → Option String
  | .beginGroup id _ => some id
  | _ => none

def IsShape : Command α → Prop
  | .rect _ => True
  | .text _ => True
  | .line _ => True
  | _ => False

theorem IsShape.path?_eq_none {c : Command α} (hc : c.IsShape) : c.path? = none := by
  cases c with
  | path p => exact hc.elim
  | rect | text | line | beginGroup | endGroup => rfl

theorem IsShape.groupId?_eq_none {c : Command α} (hc : c.IsShape) : c.groupId? = none := by
  cases c with
  | beginGroup id label => exact hc.elim
  | rect | text | line | path | endGroup => rfl

end Command

def pathsOf (commands : List (Command α)) : List (PathCommand α) := commands.filterMap Command.path?

def groupIds (commands : List (Command α)) : List String := commands.filterMap Command.groupId?

theorem pathsOf_append (first second : List (Command α)) :
    pathsOf (first ++ second) = pathsOf first ++ pathsOf second := List.filterMap_append

theorem groupIds_append (first second : List (Command α)) :
    groupIds (first ++ second) = groupIds first ++ groupIds second := List.filterMap_append

theorem pathsOf_beginGroup (id : String) (label : Option String) (rest : List (Command α)) :
    pathsOf (.beginGroup id label :: rest) = pathsOf rest := rfl

theorem groupIds_beginGroup (id : String) (label : Option String) (rest : List (Command α)) :
    groupIds (.beginGroup id label :: rest) = id :: groupIds rest := rfl

variable [Scalar α]

namespace Timeline

theorem isShape_of_mem_frameCommands {analysis : TemporalAnalysis α} {current : Option Nat}
    {position : Nat} {f : Frame} {r : Rect α} {c : Command α}
    (hc : c ∈ frameCommands analysis current position f r) : c.IsShape := by
  rcases List.mem_cons.1 hc with rfl | hmarks
  · trivial
  · rcases List.mem_append.1 hmarks with hline | htext
    · split at hline
      · rw [List.mem_singleton.1 hline]
        trivial
      · contradiction
    · split at htext
      · rw [List.mem_singleton.1 htext]
        trivial
      · contradiction

/-- What the timeline draws, beside the brackets of its group. -/
theorem mem_render {frames : List Frame} {analysis : TemporalAnalysis α} {strip : Strip α}
    {current : Option Nat} {cursorX : α} {c : Command α}
    (hc : c ∈ render frames analysis strip current cursorX) :
    c.IsShape ∨ c = .beginGroup "timeline" (some "Timeline") ∨ c = .endGroup := by
  unfold render at hc
  split at hc
  · contradiction
  · rcases List.mem_append.1 hc with hcells | hlast
    · rcases List.mem_cons.1 hcells with rfl | hcells
      · exact .inr (.inl rfl)
      · rcases List.mem_cons.1 hcells with rfl | hcells
        · exact .inl trivial
        · obtain ⟨drawn, hdrawn, hmem⟩ := List.mem_flatten.1 hcells
          obtain ⟨position, hposition, rfl⟩ := List.mem_mapIdx.1 hdrawn
          exact .inl (isShape_of_mem_frameCommands hmem)
    · rcases List.mem_cons.1 hlast with rfl | hlast
      · exact .inl trivial
      · exact .inr (.inr (List.mem_singleton.1 hlast))

/-- The timeline proper draws no paths. -/
theorem pathsOf_render (frames : List Frame) (analysis : TemporalAnalysis α) (strip : Strip α)
    (current : Option Nat) (cursorX : α) :
    pathsOf (render frames analysis strip current cursorX) = [] := by
  rw [pathsOf, List.filterMap_eq_nil_iff]
  intro c hc
  rcases mem_render hc with hshape | rfl | rfl
  · exact hshape.path?_eq_none
  · rfl
  · rfl

theorem groupIds_render_subset (frames : List Frame) (analysis : TemporalAnalysis α) (strip : Strip α)
    (current : Option Nat) (cursorX : α) :
    groupIds (render frames analysis strip current cursorX) ⊆ ["timeline"] := by
  intro id hid
  obtain ⟨c, hc, hgroup⟩ := List.mem_filterMap.1 hid
  rcases mem_render hc with hshape | rfl | rfl
  · rw [hshape.groupId?_eq_none] at hgroup
    contradiction
  · rw [← Option.some.inj hgroup]
    exact List.mem_singleton_self _
  · contradiction

end Timeline

namespace Overlay

/-- An overlay that is shown draws one path for every arrow, in order. -/
theorem forall₂_pathsOf_render {arrows : FocusedArrows α} (hshown : arrows.layout.isRenderable = true) :
    List.Forall₂ (fun a c => arrowPath arrows a = .path c) arrows.layout.arrows
      (pathsOf (render arrows)) := by
  have hpaths (l : List (Arrow α)) :
      List.Forall₂ (fun a c => arrowPath arrows a = .path c) l (pathsOf (l.map (arrowPath arrows))) := by
    induction l with
    | nil => exact .nil
    | cons a rest ih => exact .cons rfl ih
  have hrender : pathsOf (render arrows) = pathsOf (arrows.layout.arrows.map (arrowPath arrows)) := by
    rw [render, if_pos hshown, List.cons_append, pathsOf_beginGroup, pathsOf_append]
    exact List.append_nil _
  rw [hrender]
  exact hpaths arrows.layout.arrows

theorem render_eq_nil {arrows : FocusedArrows α} (hhidden : arrows.layout.isRenderable = false) :
    render arrows = [] := by
  rw [render, hhidden, if_neg Bool.false_ne_true]

/-- An overlay opens its group exactly if there is something to draw. -/
theorem mem_groupIds_render (arrows : FocusedArrows α) :
    "arrows" ∈ groupIds (render arrows) ↔ arrows.layout.isRenderable = true := by
  cases hshown : arrows.layout.isRenderable with
  | true =>
    rw [render, if_pos hshown, List.cons_append, groupIds_beginGroup]
    exact iff_of_true List.mem_cons_self rfl
  | false =>
    rw [render_eq_nil hshown]
    exact iff_of_false List.not_mem_nil Bool.false_ne_true

end Overlay

end FrameAtlas

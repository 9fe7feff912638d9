import FrameAtlas.Proofs.Surface.Paths
import FrameAtlas.Session

namespace FrameAtlas

variable {α : Type}

def groupDepth? : Nat → List (Command α) → Option Nat
  | depth, [] => some depth
  | depth, .beginGroup _ _ :: rest => groupDepth? (depth + 1) rest
  | depth + 1, .endGroup :: rest => groupDepth? depth rest
  | 0, .endGroup :: _ => none
  | depth, .rect _ :: rest => groupDepth? depth rest
  | depth, .text _ :: rest => groupDepth? depth rest
  | depth, .line _ :: rest => groupDepth? depth rest
  | depth, .path _ :: rest => groupDepth? depth rest

/-- Whether the groups of commands are properly nested: every end closes a group, and no group stays open. -/
def IsNested (commands : List (Command α)) : Prop := groupDepth? 0 commands = some 0

instance (commands : List (Command α)) : Decidable (IsNested commands) :=
  inferInstanceAs (Decidable (groupDepth? 0 commands = some 0))

def Command.isGroup : Command α → Bool
  | .beginGroup _ _ | .endGroup => true
  | .rect _ | .text _ | .line _ | .path _ => false

theorem Command.IsShape.isGroup_eq_false {c : Command α} (hc : c.IsShape) : c.isGroup = false := by
  cases c with
  | beginGroup | endGroup => exact hc.elim
  | rect | text | line | path => rfl

def Draws (commands : List (Command α)) : Prop := ∀ c ∈ commands, c.isGroup = false

theorem draws_nil : Draws ([] : List (Command α)) := fun _ h => absurd h List.not_mem_nil

theorem Draws.cons {commands : List (Command α)} (h : Draws commands) {c : Command α} (hc : c.isGroup = false) :
    Draws (c :: commands) := List.forall_mem_cons.2 ⟨hc, h⟩

theorem Draws.append {commands others : List (Command α)} (h : Draws commands) (hothers : Draws others) :
    Draws (commands ++ others) := List.forall_mem_append.2 ⟨h, hothers⟩

theorem draws_of_isShape {commands : List (Command α)} (h : ∀ c ∈ commands, c.IsShape) : Draws commands :=
  fun c hc => (h c hc).isGroup_eq_false

theorem draws_mapIdx {β : Type} {draw : Nat → β → List (Command α)} (h : ∀ i b, Draws (draw i b)) (items : List β) :
    Draws (items.mapIdx draw).flatten := by
  intro c hc
  obtain ⟨drawn, hdrawn, hmem⟩ := List.mem_flatten.1 hc
  obtain ⟨i, hi, rfl⟩ := List.mem_mapIdx.1 hdrawn
  exact h i _ c hmem

/-- How many groups are open behind two lists is counted on from the first to the second. -/
theorem groupDepth?_append (depth : Nat) (commands others : List (Command α)) :
    groupDepth? depth (commands ++ others) = (groupDepth? depth commands).bind (groupDepth? · others) := by
  induction commands generalizing depth with
  | nil => rfl
  | cons c rest ih =>
    cases c with
    | beginGroup id label => exact ih (depth + 1)
    | endGroup =>
      cases depth with
      | zero => rfl
      | succ depth => exact ih depth
    | rect | text | line | path => exact ih depth

theorem groupDepth?_of_draws {commands : List (Command α)} (h : Draws commands) (depth : Nat) :
    groupDepth? depth commands = some depth := by
  induction commands with
  | nil => rfl
  | cons c rest ih =>
    have hc := h c List.mem_cons_self
    have hrest := ih fun d hd => h d (List.mem_cons_of_mem c hd)
    cases c with
    | beginGroup | endGroup => contradiction
    | rect | text | line | path => exact hrest

theorem isNested_nil : IsNested ([] : List (Command α)) := rfl

/-- Nested commands one after the other are nested. -/
theorem IsNested.append {commands others : List (Command α)} (h : IsNested commands) (hothers : IsNested others) :
    IsNested (commands ++ others) := by
  rw [IsNested, groupDepth?_append, h]
  exact hothers

/-- A group of commands that draw. -/
theorem isNested_group {commands : List (Command α)} (h : Draws commands) (id : String) (label : Option String) :
    IsNested (.beginGroup id label :: (commands ++ [.endGroup])) := by
  show groupDepth? 1 (commands ++ [.endGroup]) = some 0
  rw [groupDepth?_append, groupDepth?_of_draws h]
  rfl

variable [Scalar α]

/-- A timeline is properly nested. -/
theorem isNested_timeline (frames : List Frame) (analysis : TemporalAnalysis α) (strip : Strip α)
    (current : Option Nat) (cursorX : α) : IsNested (Timeline.render frames analysis strip current cursorX) := by
  unfold Timeline.render
  split
  · exact isNested_nil
  · have hframe : ∀ position (p : Frame × Rect α),
        Draws (Timeline.frameCommands analysis current position p.1 p.2) :=
      fun position p => draws_of_isShape fun c hc => Timeline.isShape_of_mem_frameCommands hc
    have hcursor : Draws [Timeline.cursorLine strip.container cursorX] := draws_nil.cons rfl
    have hcells := ((draws_mapIdx hframe (frames.zip strip.elements)).cons
      (show (Timeline.lane strip.container).isGroup = false from rfl)).append hcursor
    have hgroup := isNested_group hcells "timeline" (some "Timeline")
    rw [List.append_assoc] at hgroup
    exact hgroup

theorem isNested_overlay (arrows : FocusedArrows α) : IsNested (Overlay.render arrows) := by
  unfold Overlay.render
  split
  · have harrows : Draws (arrows.layout.arrows.map (Overlay.arrowPath arrows)) := by
      intro c hc
      obtain ⟨a, -, rfl⟩ := List.mem_map.1 hc
      rfl
    exact isNested_group harrows "arrows" (some "References")
  · exact isNested_nil

theorem isNested_minimap (frames : List Frame) (analysis : TemporalAnalysis α) (v : Viewport α)
    (visible : PositionRange) (current : Option Nat) :
    IsNested (Minimap.render frames analysis v visible current) := by
  unfold Minimap.render
  simp only
  split
  · exact isNested_nil
  · refine isNested_group (Draws.cons (((Draws.append ?bars ?ticks).append ?window).append ?marker) rfl) _ _
    case bars =>
      refine draws_mapIdx ?_ _
      intro column b
      split
      · exact draws_nil
      · exact draws_nil.cons rfl
    case ticks =>
      refine draws_mapIdx ?_ _
      intro position f
      split
      · exact draws_nil.cons rfl
      · exact draws_nil
    case window =>
      unfold Minimap.window
      simp only
      split
      · exact draws_nil.cons rfl
      · exact draws_nil
    case marker =>
      split
      · exact draws_nil
      · split
        · exact draws_nil.cons rfl
        · exact draws_nil

theorem draws_rowCommands (g : PyramidGrid α) (v : Viewport α) (current : Option UInt32) (row : Nat)
    (l : TemporalLevel) : Draws (Pyramid.rowCommands g v current row l) := by
  refine Draws.cons ?_ rfl
  intro c hc
  obtain ⟨f, -, hf⟩ := List.mem_filterMap.1 hc
  obtain ⟨r, -, rfl⟩ := Option.map_eq_some_iff.1 hf
  rfl

/-- A pyramid is properly nested. -/
theorem isNested_pyramid (analysis : TemporalAnalysis α) (v : Viewport α) (current : Option UInt32) :
    IsNested (Pyramid.render analysis v current) := by
  unfold Pyramid.render
  split
  · exact isNested_nil
  · refine isNested_group (Draws.cons (Draws.append (draws_mapIdx (draws_rowCommands _ v current) _) ?boundaries) rfl)
      _ _
    case boundaries =>
      intro c hc
      obtain ⟨b, -, hb⟩ := List.mem_filterMap.1 hc
      obtain ⟨r, -, rfl⟩ := Option.map_eq_some_iff.1 hb
      rfl

theorem draws_card (analysis : TemporalAnalysis α) (v : Viewport α) (current : Option Nat) (place position : Nat)
    (f : Frame) : Draws (Filmstrip.card analysis v current place position f) := by
  unfold Filmstrip.card
  refine Draws.cons (Draws.append ?_ (draws_nil.cons rfl)) rfl
  split
  · exact draws_nil.cons rfl
  · exact draws_nil

theorem isNested_filmstrip (frames : List Frame) (analysis : TemporalAnalysis α) (v : Viewport α)
    (current : Option Nat) : IsNested (Filmstrip.render frames analysis v current) := by
  unfold Filmstrip.render
  simp only
  split
  · exact isNested_nil
  · exact isNested_group (draws_mapIdx (fun place f => draws_card analysis v current place _ f) _) _ _

/-- Whatever a session has been through, what it draws on a surface is properly nested. -/
theorem Session.isNested_render (s : Session α) (surface : SurfaceKind) (v : Viewport α) :
    IsNested (s.render surface v).1 := by
  cases surface with
  | timeline => exact (isNested_timeline _ _ _ _ _).append (isNested_overlay _)
  | minimap => exact isNested_minimap _ _ _ _ _
  | pyramid => exact isNested_pyramid _ _ _
  | filmstrip => exact isNested_filmstrip _ _ _ _

end FrameAtlas

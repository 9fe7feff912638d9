import FrameAtlas.Command

namespace FrameAtlas

variable {α β γ : Type}

/-- What is not found among the commands of any element of a list is not found among them all. -/
theorem filterMap_flatten_mapIdx_eq_nil {find? : Command α → Option γ} {draw : Nat → β → List (Command α)}
    (hdraw : ∀ i a, (draw i a).filterMap find? = []) (l : List β) :
    (l.mapIdx draw).flatten.filterMap find? = [] := by
  induction l generalizing draw with
  | nil => rfl
  | cons a rest ih =>
    rw [List.mapIdx_cons, List.flatten_cons, List.filterMap_append, hdraw 0 a, ih fun i b => hdraw (i + 1) b]
    rfl

def Command.rect? : Command α → Option (RectCommand α)
  | .rect c => some c
  | _ => none

def rectsOf (commands : List (Command α)) : List (RectCommand α) := commands.filterMap Command.rect?

@[simp] theorem rectsOf_nil : rectsOf ([] : List (Command α)) = [] := rfl

@[simp] theorem rectsOf_append (first second : List (Command α)) :
    rectsOf (first ++ second) = rectsOf first ++ rectsOf second := List.filterMap_append

@[simp] theorem rectsOf_rect (c : RectCommand α) (rest : List (Command α)) :
    rectsOf (.rect c :: rest) = c :: rectsOf rest := rfl

@[simp] theorem rectsOf_text (c : TextCommand α) (rest : List (Command α)) :
    rectsOf (.text c :: rest) = rectsOf rest := rfl

@[simp] theorem rectsOf_line (c : LineCommand α) (rest : List (Command α)) :
    rectsOf (.line c :: rest) = rectsOf rest := rfl

@[simp] theorem rectsOf_path (c : PathCommand α) (rest : List (Command α)) :
    rectsOf (.path c :: rest) = rectsOf rest := rfl

@[simp] theorem rectsOf_beginGroup (id : String) (label : Option String) (rest : List (Command α)) :
    rectsOf (.beginGroup id label :: rest) = rectsOf rest := rfl

@[simp] theorem rectsOf_endGroup (rest : List (Command α)) :
    rectsOf (.endGroup :: rest) = rectsOf rest := rfl

theorem rectsOf_flatten (drawn : List (List (Command α))) :
    rectsOf drawn.flatten = (drawn.map rectsOf).flatten := List.filterMap_flatten

/-- Where each element of a list is drawn with one rectangle, the rectangles stand in the order of the list. -/
theorem rectsOf_mapIdx {draw : Nat → β → List (Command α)} {rect : Nat → β → RectCommand α} {l : List β}
    (hdraw : ∀ i, ∀ a ∈ l, rectsOf (draw i a) = [rect i a]) :
    rectsOf (l.mapIdx draw).flatten = l.mapIdx rect := by
  induction l generalizing draw rect with
  | nil => rfl
  | cons a rest ih =>
    rw [List.mapIdx_cons, List.flatten_cons, rectsOf_append, hdraw 0 a List.mem_cons_self, List.mapIdx_cons,
      ih fun i b hb => hdraw (i + 1) b (List.mem_cons_of_mem a hb)]
    rfl

theorem rectsOf_mapIdx_eq_nil {draw : Nat → β → List (Command α)} (hdraw : ∀ i a, rectsOf (draw i a) = [])
    (l : List β) : rectsOf (l.mapIdx draw).flatten = [] := filterMap_flatten_mapIdx_eq_nil hdraw l

end FrameAtlas

/-!
Search by halving, in a list that stands in order around what is looked for. Main statement: in such a list a
search ends at an element looked for, or at the one place where such an element could be put in.
-/

namespace FrameAtlas

variable {β : Type}

inductive SearchEnd where
  | found (place : Nat)
  | missing (place : Nat)
deriving DecidableEq, Repr

/-- Looks in a list whose first element has a given place. `order` tells on which side of what is looked for
an element stands. -/
def searchFrom (order : β → Ordering) : Nat → Nat → List β → SearchEnd
  | 0, place, _ => .missing place
  | steps + 1, place, xs =>
    let middle := xs.length / 2
    match xs.drop middle with
    | [] => .missing place
    | x :: upper => match order x with
      | .eq => .found (place + middle)
      | .lt => searchFrom order steps (place + middle + 1) upper
      | .gt => searchFrom order steps place (xs.take middle)

def search (order : β → Ordering) (xs : List β) : SearchEnd := searchFrom order xs.length 0 xs

def partitionPoint (holds : β → Bool) (xs : List β) : Nat :=
  match search (fun x => if holds x then .lt else .gt) xs with
  | .found place => place
  | .missing place => place

def IsOrderedBy (order : β → Ordering) (xs : List β) : Prop :=
  xs.Pairwise fun a b => (order b = .lt → order a = .lt) ∧ (order a = .gt → order b = .gt)

def SearchEnd.IsRight (order : β → Ordering) (xs : List β) : SearchEnd → Prop
  | .found place => ∃ x, xs[place]? = some x ∧ order x = .eq
  | .missing place => ∃ lower upper, xs = lower ++ upper ∧ lower.length = place ∧
      (∀ x ∈ lower, order x = .lt) ∧ ∀ x ∈ upper, order x = .gt

theorem searchFrom_nil (order : β → Ordering) (steps place : Nat) :
    searchFrom order steps place [] = .missing place := by
  cases steps with
  | zero => rfl
  | succ steps => rw [searchFrom, List.drop_nil]

/-- A list that is not empty is cut at the element in its middle. -/
theorem exists_middle {xs : List β} (h : xs ≠ []) :
    ∃ front x rest, xs = front ++ x :: rest ∧ front.length = xs.length / 2 := by
  have hpos : 0 < xs.length := List.length_pos_iff.2 h
  have hmiddle : xs.length / 2 < xs.length := by omega
  refine ⟨xs.take (xs.length / 2), xs[xs.length / 2], xs.drop (xs.length / 2 + 1), ?_, ?_⟩
  · rw [List.getElem_cons_drop, List.take_append_drop]
  · rw [List.length_take]
    omega

theorem searchFrom_succ (order : β → Ordering) (steps place : Nat) {front : List β} {x : β} {rest : List β}
    (h : front.length = (front ++ x :: rest).length / 2) :
    searchFrom order (steps + 1) place (front ++ x :: rest) = match order x with
      | .eq => .found (place + front.length)
      | .lt => searchFrom order steps (place + front.length + 1) rest
      | .gt => searchFrom order steps place front := by
  rw [searchFrom, ← h, List.drop_left, List.take_left]

/-- In a list that stands in order the search ends where it has to, with as many steps as there are elements. -/
theorem searchFrom_isRight {order : β → Ordering} {steps : Nat} {lower xs upper : List β}
    (hsteps : xs.length ≤ steps) (hordered : IsOrderedBy order xs)
    (hlower : ∀ x ∈ lower, order x = .lt) (hupper : ∀ x ∈ upper, order x = .gt) :
    (searchFrom order steps lower.length xs).IsRight order (lower ++ xs ++ upper) := by
  -- What has been cut off stands on its side for good; each step adds to one of the two sides.
  induction steps generalizing lower xs upper with
  | zero =>
    obtain rfl : xs = [] := List.length_eq_zero_iff.1 (Nat.le_zero.1 hsteps)
    rw [searchFrom_nil]
    exact ⟨lower, upper, by simp, rfl, hlower, hupper⟩
  | succ steps ih =>
    by_cases hempty : xs = []
    · rw [hempty, searchFrom_nil]
      exact ⟨lower, upper, by simp, rfl, hlower, hupper⟩
    obtain ⟨front, x, rest, rfl, hfront⟩ := exists_middle hempty
    have hlength : (front ++ x :: rest).length = front.length + (rest.length + 1) := by
      rw [List.length_append, List.length_cons]
    obtain ⟨hbefore, hbehind, hacross⟩ := List.pairwise_append.1 hordered
    obtain ⟨hx, hafter⟩ := List.pairwise_cons.1 hbehind
    rw [searchFrom_succ order steps _ hfront]
    cases horder : order x with
    | eq =>
      refine ⟨x, ?_, horder⟩
      have hplace : (lower ++ front).length = lower.length + front.length := List.length_append
      have hwhole : lower ++ (front ++ x :: rest) ++ upper = lower ++ front ++ x :: (rest ++ upper) := by simp
      rw [hwhole, ← hplace, List.getElem?_append_right (Nat.le_refl _), Nat.sub_self, List.getElem?_cons_zero]
    | lt =>
      have hnext : ∀ y ∈ lower ++ front ++ [x], order y = .lt := by
        intro y hy
        rcases List.mem_append.1 hy with hy | hy
        · rcases List.mem_append.1 hy with hy | hy
          · exact hlower y hy
          · exact (hacross y hy x List.mem_cons_self).1 horder
        · rw [List.mem_singleton.1 hy]
          exact horder
      have h := @ih (lower ++ front ++ [x]) rest upper (by omega) hafter hnext hupper
      have hplace : (lower ++ front ++ [x]).length = lower.length + front.length + 1 := by
        simp [Nat.add_assoc]
      have hwhole : lower ++ front ++ [x] ++ rest = lower ++ (front ++ x :: rest) := by simp
      rwa [hplace, hwhole] at h
    | gt =>
      have hnext : ∀ y ∈ x :: (rest ++ upper), order y = .gt := by
        intro y hy
        rcases List.mem_cons.1 hy with rfl | hy
        · exact horder
        · rcases List.mem_append.1 hy with hy | hy
          · exact (hx y hy).2 horder
          · exact hupper y hy
      have h := @ih lower front (x :: (rest ++ upper)) (by omega) hbefore hlower hnext
      have hwhole : lower ++ front ++ x :: (rest ++ upper) = lower ++ (front ++ x :: rest) ++ upper := by simp
      rwa [hwhole] at h

/-- In a list that stands in order a search ends where it has to. -/
theorem search_isRight {order : β → Ordering} {xs : List β} (h : IsOrderedBy order xs) :
    (search order xs).IsRight order xs := by
  have hright := @searchFrom_isRight _ order xs.length [] xs [] (Nat.le_refl _) h
    (fun _ hx => absurd hx List.not_mem_nil) (fun _ hx => absurd hx List.not_mem_nil)
  rwa [List.nil_append, List.append_nil] at hright

/-- Up to the partition point all elements satisfy the condition, and from there on none does. -/
theorem partitionPoint_split {holds : β → Bool} {xs : List β}
    (h : xs.Pairwise fun a b => holds b = true → holds a = true) :
    ∃ lower upper, xs = lower ++ upper ∧ lower.length = partitionPoint holds xs ∧
      (∀ x ∈ lower, holds x = true) ∧ ∀ x ∈ upper, holds x = false := by
  let order : β → Ordering := fun x => if holds x then .lt else .gt
  have hlt (x : β) : order x = .lt ↔ holds x = true := by
    cases hx : holds x <;> simp [order, hx]
  have hgt (x : β) : order x = .gt ↔ holds x = false := by
    cases hx : holds x <;> simp [order, hx]
  have hordered : IsOrderedBy order xs := by
    refine h.imp ?_
    intro a b hab
    rw [hlt, hlt, hgt, hgt]
    refine ⟨hab, ?_⟩
    intro ha
    rw [← Bool.not_eq_true] at ha ⊢
    exact fun hb => ha (hab hb)
  have hright := search_isRight hordered
  unfold partitionPoint
  cases hend : search order xs with
  | found place =>
    rw [hend] at hright
    obtain ⟨x, -, hx⟩ := hright
    -- No element is looked for: each is on one side or on the other.
    cases hholds : holds x <;> simp [order, hholds] at hx
  | missing place =>
    rw [hend] at hright
    obtain ⟨lower, upper, hxs, hplace, hlower, hupper⟩ := hright
    exact ⟨lower, upper, hxs, hplace, fun x hx => (hlt x).1 (hlower x hx), fun x hx => (hgt x).1 (hupper x hx)⟩

end FrameAtlas

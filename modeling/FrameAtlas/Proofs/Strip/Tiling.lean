import FrameAtlas.Proofs.Scalar.Exact
import FrameAtlas.Proofs.Strip
import Mathlib.Algebra.Order.BigOperators.Group.List
import Mathlib.Algebra.Order.Field.Rat
import Mathlib.Tactic.Linarith
import Mathlib.Tactic.Ring

/-!
The elements of a strip in exact numbers. They stand one beside the other without a gap, from the left edge of the
container to its right edge or, where the least widths ask for more, beyond it. So every number lies under one
element, left of all of them or right of all of them, and the search for the element under it finds that one.
-/

namespace FrameAtlas.Strip

inductive Tiles : Rat → List (Rect Rat) → Rat → Prop
  | nil (x : Rat) : Tiles x [] x
  | cons {r : Rect Rat} {rest : List (Rect Rat)} {stop : Rat} (hwidth : 0 < r.w) (hrest : Tiles r.right rest stop) :
    Tiles r.x (r :: rest) stop

variable {start stop : Rat} {elements : List (Rect Rat)}

theorem containsX_iff {r : Rect Rat} {x : Rat} : r.containsX x = true ↔ r.x ≤ x ∧ x < r.right := by
  rw [Rect.containsX, Bool.and_eq_true, decide_eq_true_eq, decide_eq_true_eq]

theorem Tiles.start_le_stop (h : Tiles start elements stop) : start ≤ stop := by
  induction h with
  | nil x => exact le_refl x
  | @cons r rest stop hwidth hrest ih =>
    have hright : r.right = r.x + r.w := rfl
    linarith

/-- An element is not empty and lies between the ends. -/
theorem Tiles.bounds (h : Tiles start elements stop) {r : Rect Rat} (hr : r ∈ elements) :
    start ≤ r.x ∧ r.x < r.right ∧ r.right ≤ stop := by
  induction h with
  | nil x => exact absurd hr List.not_mem_nil
  | @cons first rest stop hwidth hrest ih =>
    have hright : first.right = first.x + first.w := rfl
    rcases List.mem_cons.1 hr with rfl | hr
    · exact ⟨le_refl _, by linarith, hrest.start_le_stop⟩
    · obtain ⟨hleft, hinside, hstop⟩ := ih hr
      exact ⟨by linarith, hinside, hstop⟩

/-- Each tile ends before those behind it start. -/
theorem Tiles.pairwise (h : Tiles start elements stop) : elements.Pairwise fun a b => a.right ≤ b.x := by
  induction h with
  | nil x => exact .nil
  | cons hwidth hrest ih => exact .cons (fun r hr => (hrest.bounds hr).1) ih

/-- There is no gap between the ends. -/
theorem Tiles.covers (h : Tiles start elements stop) (x : Rat) :
    x < start ∨ stop ≤ x ∨ ∃ (i : Nat) (r : Rect Rat), elements[i]? = some r ∧ r.containsX x = true := by
  induction h with
  | nil first =>
    rcases lt_or_ge x first with hbefore | hbeyond
    · exact .inl hbefore
    · exact .inr (.inl hbeyond)
  | @cons r rest stop hwidth hrest ih =>
    rcases lt_or_ge x r.x with hbefore | hleft
    · exact .inl hbefore
    rcases ih with hinside | hbeyond | ⟨i, other, hother, hcontains⟩
    · exact .inr (.inr ⟨0, r, rfl, containsX_iff.2 ⟨hleft, hinside⟩⟩)
    · exact .inr (.inl hbeyond)
    · exact .inr (.inr ⟨i + 1, other, hother, hcontains⟩)

/-- Where a number lies along a strip: under an element, left of all elements, or right of them. -/
inductive LiesAt (s : Strip Rat) (x : Rat) : Nat → Prop
  | under {i : Nat} {r : Rect Rat} (hr : s.elements[i]? = some r) (hx : r.containsX x = true) : LiesAt s x i
  | left (h : ∀ r ∈ s.elements, x < r.x) : LiesAt s x 0
  | right (h : ∀ r ∈ s.elements, r.right ≤ x) : LiesAt s x (s.elements.length - 1)

variable {s : Strip Rat} {x : Rat} {i : Nat}

/-- All that ends at or before a number stands before what does not. -/
theorem Tiles.pairwise_ended (h : Tiles start elements stop) (x : Rat) :
    elements.Pairwise fun a b => decide (b.right ≤ x) = true → decide (a.right ≤ x) = true := by
  refine h.pairwise.imp_of_mem ?_
  intro a b _ hb hab hbx
  have hinside := (h.bounds hb).2.1
  rw [decide_eq_true_eq] at hbx ⊢
  linarith

/-- The element under a number is the first one that does not end at or before it. -/
theorem Tiles.eq_length_lower {lower upper : List (Rect Rat)} (h : Tiles start (lower ++ upper) stop)
    (hlower : ∀ r ∈ lower, r.right ≤ x) (hupper : ∀ r ∈ upper, x < r.right) {r : Rect Rat}
    (hr : (lower ++ upper)[i]? = some r) (hcontains : r.containsX x = true) : i = lower.length := by
  obtain ⟨hleft, hinside⟩ := containsX_iff.1 hcontains
  have hnotLower : ¬ i < lower.length := by
    intro hi
    rw [List.getElem?_append_left hi] at hr
    have hpassed := hlower r (List.mem_of_getElem? hr)
    linarith
  by_contra hne
  rw [List.getElem?_append_right (Nat.not_lt.1 hnotLower)] at hr
  cases upper with
  | nil => contradiction
  | cons first rest =>
    have hfirst := hupper first List.mem_cons_self
    have hrest : r ∈ rest := by
      obtain ⟨k, hk⟩ : ∃ k, i - lower.length = k + 1 := ⟨i - lower.length - 1, by omega⟩
      rw [hk, List.getElem?_cons_succ] at hr
      exact List.mem_of_getElem? hr
    have hbefore : first.right ≤ r.x :=
      (List.pairwise_cons.1 (List.pairwise_append.1 h.pairwise).2.1).1 r hrest
    linarith

/-- The search by halving ends at the element under a number, if there is one. -/
theorem hitTest_eq_some_iff (h : Tiles start s.elements stop) :
    s.hitTest x = some i ↔ ∃ r, s.elements[i]? = some r ∧ r.containsX x = true := by
  obtain ⟨lower, upper, hsplit, hplace, hlower, hupper⟩ := partitionPoint_split (h.pairwise_ended x)
  unfold hitTest
  simp only [← hplace]
  constructor
  · intro hfound
    split at hfound
    · rename_i r hr
      split at hfound
      · rename_i hcontains
        obtain rfl := Option.some.inj hfound
        exact ⟨r, hr, hcontains⟩
      · contradiction
    · contradiction
  · rintro ⟨r, hr, hcontains⟩
    have hended : ∀ r ∈ lower, r.right ≤ x := fun r hr => of_decide_eq_true (hlower r hr)
    have hopen : ∀ r ∈ upper, x < r.right := fun r hr => not_le.1 (of_decide_eq_false (hupper r hr))
    have hfirst : i = lower.length := by
      rw [hsplit] at h hr
      exact h.eq_length_lower hended hopen hr hcontains
    rw [← hfirst, hr]
    exact if_pos hcontains

/-- Of all places along a strip a number has one. -/
theorem Tiles.exists_liesAt (h : Tiles start s.elements stop) (hsome : s.elements ≠ []) (x : Rat) :
    ∃ i < s.elements.length, s.LiesAt x i := by
  have hlength : 0 < s.elements.length := List.length_pos_iff.2 hsome
  rcases h.covers x with hbefore | hbeyond | ⟨i, r, hr, hcontains⟩
  · exact ⟨0, hlength, .left fun r hr => hbefore.trans_le (h.bounds hr).1⟩
  · exact ⟨_, by omega, .right fun r hr => (h.bounds hr).2.2.trans hbeyond⟩
  · exact ⟨i, (List.getElem?_eq_some_iff.1 hr).1, .under hr hcontains⟩

/-- Farther right is no lower position. -/
theorem Tiles.liesAt_mono (h : Tiles start s.elements stop) (hsome : s.elements ≠ []) {x y : Rat} {i j : Nat}
    (hxy : x ≤ y) (hi : s.LiesAt x i) (hj : s.LiesAt y j) : i ≤ j := by
  obtain ⟨any, hany⟩ := List.exists_mem_of_ne_nil _ hsome
  have hinside := (h.bounds hany).2.1
  cases hi with
  | left hx => exact Nat.zero_le j
  | under hr hx =>
    rename_i r
    obtain ⟨hleft, hright⟩ := containsX_iff.1 hx
    cases hj with
    | left hy =>
      have := hy r (List.mem_of_getElem? hr)
      linarith
    | right hy =>
      have := (List.getElem?_eq_some_iff.1 hr).1
      omega
    | under hr' hy =>
      rename_i r'
      obtain ⟨hleft', hright'⟩ := containsX_iff.1 hy
      by_contra hlt
      obtain ⟨hi, rfl⟩ := List.getElem?_eq_some_iff.1 hr
      obtain ⟨hj, rfl⟩ := List.getElem?_eq_some_iff.1 hr'
      -- An element of a lower position would have ended before this one starts.
      have hbefore := List.pairwise_iff_getElem.1 h.pairwise j i hj hi (Nat.not_le.1 hlt)
      linarith
  | right hx =>
    have hpassed := hx any hany
    cases hj with
    | left hy =>
      have := hy any hany
      linarith
    | under hr' hy =>
      rename_i r'
      have := hx r' (List.mem_of_getElem? hr')
      obtain ⟨hleft', hright'⟩ := containsX_iff.1 hy
      linarith
    | right hy => exact Nat.le_refl _

/-- Left of all elements is left of where they start. -/
theorem Tiles.lt_start (h : Tiles start elements stop) (hsome : elements ≠ []) {x : Rat}
    (hx : ∀ r ∈ elements, x < r.x) : x < start := by
  obtain ⟨any, hany⟩ := List.exists_mem_of_ne_nil _ hsome
  rcases h.covers x with hbefore | hbeyond | ⟨i, r, hr, hcontains⟩
  · exact hbefore
  · have := hx any hany
    obtain ⟨-, hinside, hstop⟩ := h.bounds hany
    linarith
  · exact absurd (containsX_iff.1 hcontains).1 (not_le.2 (hx r (List.mem_of_getElem? hr)))

/-- Right of all elements is right of where they stop. -/
theorem Tiles.stop_le (h : Tiles start elements stop) (hsome : elements ≠ []) {x : Rat}
    (hx : ∀ r ∈ elements, r.right ≤ x) : stop ≤ x := by
  obtain ⟨any, hany⟩ := List.exists_mem_of_ne_nil _ hsome
  rcases h.covers x with hbefore | hbeyond | ⟨i, r, hr, hcontains⟩
  · have := hx any hany
    obtain ⟨hstart, hinside, -⟩ := h.bounds hany
    linarith
  · exact hbeyond
  · exact absurd (containsX_iff.1 hcontains).2 (not_lt.2 (hx r (List.mem_of_getElem? hr)))

theorem tiles_tile (y h : Rat) {widths : List Rat} (hpos : ∀ w ∈ widths, 0 < w) (x : Rat) :
    Tiles x (tile y h x widths) (x + widths.sum) := by
  induction widths generalizing x with
  | nil =>
    rw [List.sum_nil, add_zero]
    exact .nil x
  | cons w rest ih =>
    have hrest := ih (fun w hw => hpos w (List.mem_cons_of_mem _ hw)) (x + w)
    rw [List.sum_cons, ← add_assoc]
    exact Tiles.cons (r := ⟨x, y, w, h⟩) (hpos w List.mem_cons_self) hrest

theorem sum_eq (xs : List Rat) : Scalar.sum xs = xs.sum := by
  rw [List.sum_eq_foldl]
  rfl

theorem one_le_weights (frames : List Frame) (sizing : StripSizing) :
    ∀ w ∈ (weights frames sizing : List Rat), 1 ≤ w := by
  intro w hw
  cases sizing with
  | uniform =>
    obtain ⟨f, -, rfl⟩ := List.mem_map.1 hw
    exact le_refl 1
  | bySize =>
    obtain ⟨f, -, rfl⟩ := List.mem_map.1 hw
    rw [Scalar.larger_eq_max]
    exact le_max_right _ 1

theorem positivePart_eq_max (x : Rat) : Scalar.positivePart x = max 0 x := by
  unfold Scalar.positivePart
  show (if (0 : Rat) < x then x else 0) = max 0 x
  split
  · rename_i hpos
    exact (max_eq_right (le_of_lt hpos)).symm
  · rename_i hneg
    exact (max_eq_left (not_lt.1 hneg)).symm

theorem elementWidth_eq (spare total weight : Rat) :
    elementWidth spare total weight = 2 + spare * weight / total := rfl

/-- The shares together are what is left over, spread by weight. -/
theorem sum_elementWidth (spare total : Rat) (ws : List Rat) :
    (ws.map (elementWidth spare total)).sum = 2 * ws.length + spare * ws.sum / total := by
  induction ws with
  | nil => simp
  | cons w rest ih =>
    rw [List.map_cons, List.sum_cons, ih, elementWidth_eq, List.length_cons, List.sum_cons]
    push_cast
    ring

def leastWidth (count : Nat) : Rat := 2 * count

/-- A list with a frame has a positive total weight. -/
theorem sum_weights_pos {frames : List Frame} (hsome : frames ≠ []) (sizing : StripSizing) :
    0 < (weights frames sizing : List Rat).sum := by
  apply List.sum_pos
  · intro w hw
    exact lt_of_lt_of_le one_pos (one_le_weights frames sizing w hw)
  · intro hnone
    have hlength : (weights frames sizing : List Rat).length = frames.length := length_weights frames sizing
    rw [hnone] at hlength
    exact hsome (List.length_eq_zero_iff.1 hlength.symm)

def spareWidth (frames : List Frame) (v : Viewport Rat) : Rat :=
  max 0 (max 0 v.width - leastWidth frames.length)

theorem elements_compute (frames : List Frame) (v : Viewport Rat) (sizing : StripSizing) :
    (compute frames v sizing).elements = tile v.y (Scalar.smaller (height : Rat) v.height) v.x
      ((weights frames sizing).map (elementWidth (spareWidth frames v) (weights frames sizing).sum)) := by
  rw [compute, sum_eq, positivePart_eq_max, positivePart_eq_max]
  rfl

theorem two_le_elementWidth {frames : List Frame} (v : Viewport Rat) (sizing : StripSizing) {weight : Rat}
    (hweight : weight ∈ (weights frames sizing : List Rat)) :
    2 ≤ elementWidth (spareWidth frames v) (weights frames sizing).sum weight := by
  have hone := one_le_weights frames sizing
  have htotal : 0 ≤ (weights frames sizing : List Rat).sum :=
    List.sum_nonneg fun w hw => zero_le_one.trans (hone w hw)
  have hpart : 0 ≤ spareWidth frames v * weight / (weights frames sizing).sum :=
    div_nonneg (mul_nonneg (le_max_left _ _) (zero_le_one.trans (hone weight hweight))) htotal
  rw [elementWidth_eq]
  linarith

/-- A strip starts where its container does, and is as wide as the container or as its elements have to be. -/
theorem tiles_compute {frames : List Frame} (hsome : frames ≠ []) (v : Viewport Rat) (sizing : StripSizing) :
    Tiles v.x (compute frames v sizing).elements (v.x + max (leastWidth frames.length) (max 0 v.width)) := by
  let ws : List Rat := weights frames sizing
  let spare : Rat := spareWidth frames v
  have hlength : ws.length = frames.length := length_weights frames sizing
  have htotal : 0 < ws.sum := sum_weights_pos hsome sizing
  have hpos : ∀ w ∈ ws.map (elementWidth spare ws.sum), 0 < w := by
    intro w hw
    obtain ⟨weight, hweight, rfl⟩ := List.mem_map.1 hw
    exact two_pos.trans_le (two_le_elementWidth v sizing hweight)
  have hsum : (ws.map (elementWidth spare ws.sum)).sum = max (leastWidth frames.length) (max 0 v.width) := by
    rw [sum_elementWidth, hlength, mul_div_assoc, div_self (ne_of_gt htotal), mul_one]
    show leastWidth frames.length + max 0 (max 0 v.width - leastWidth frames.length) = _
    -- Nothing is left over in a narrow container; in a wide one all that is left over is shared out.
    rcases le_total (max 0 v.width) (leastWidth frames.length) with hnarrow | hwide
    · rw [max_eq_left (sub_nonpos.2 hnarrow), add_zero, max_eq_left hnarrow]
    · rw [max_eq_right (sub_nonneg.2 hwide), max_eq_right hwide]
      ring
  rw [elements_compute, ← hsum]
  exact tiles_tile v.y _ hpos v.x

theorem getElem?_tile_replicate {y h x w : Rat} {count i : Nat} {r : Rect Rat}
    (hr : (tile y h x (List.replicate count w))[i]? = some r) : r.x = x + i * w ∧ r.w = w := by
  induction count generalizing x i with
  | zero => contradiction
  | succ count ih =>
    cases i with
    | zero =>
      obtain rfl := Option.some.inj hr
      exact ⟨by push_cast; ring, rfl⟩
    | succ i =>
      obtain ⟨hleft, hwidth⟩ := ih (i := i) hr
      refine ⟨?_, hwidth⟩
      rw [hleft]
      push_cast
      ring

/-- Equal elements that fill the container have their share of its width each. -/
theorem elements_compute_uniform {frames : List Frame} (hsome : frames ≠ []) {v : Viewport Rat}
    (hwide : leastWidth frames.length ≤ v.width) :
    (compute frames v .uniform).elements = tile v.y (Scalar.smaller (height : Rat) v.height) v.x
      (List.replicate frames.length (v.width / frames.length)) := by
  have hcount : (0 : Rat) < frames.length := Nat.cast_pos.2 (List.length_pos_iff.2 hsome)
  have hleast : leastWidth frames.length = 2 * frames.length := rfl
  have hwidth : max 0 v.width = v.width := max_eq_right (by linarith)
  have hweights : (weights frames .uniform : List Rat) = List.replicate frames.length 1 := List.map_const'
  have hsum : (List.replicate frames.length (1 : Rat)).sum = frames.length := by
    rw [List.sum_replicate, nsmul_eq_mul, mul_one]
  have hshare : elementWidth (v.width - leastWidth frames.length) frames.length 1 = v.width / frames.length := by
    rw [elementWidth_eq, hleast, mul_one, sub_div, mul_div_assoc, div_self (ne_of_gt hcount), mul_one]
    exact add_sub_cancel 2 _
  rw [elements_compute, hweights, hsum, spareWidth, hwidth, max_eq_right (sub_nonneg.2 hwide), List.map_replicate,
    hshare]

/-- In such a strip the element under a number can be told from the fraction of the width. -/
theorem floor_fraction_eq {frames : List Frame} (hsome : frames ≠ []) {v : Viewport Rat}
    (hwide : leastWidth frames.length ≤ v.width) {x : Rat} {i : Nat} {r : Rect Rat}
    (hr : (compute frames v .uniform).elements[i]? = some r) (hx : r.containsX x = true) :
    ((x - v.x) / v.width * frames.length).floor = i := by
  have hcount : (0 : Rat) < frames.length := Nat.cast_pos.2 (List.length_pos_iff.2 hsome)
  have hwidth : 0 < v.width := by
    have hleast : leastWidth frames.length = 2 * frames.length := rfl
    linarith
  rw [elements_compute_uniform hsome hwide] at hr
  obtain ⟨hleft, hshare⟩ := getElem?_tile_replicate hr
  obtain ⟨hbegins, hends⟩ := containsX_iff.1 hx
  have hright : r.right = v.x + i * (v.width / frames.length) + v.width / frames.length := by
    rw [← hleft, ← hshare]
    rfl
  rw [hleft] at hbegins
  rw [hright] at hends
  have hpitch (k : Rat) : k * v.width = k * (v.width / frames.length) * frames.length := by
    rw [mul_assoc, div_mul_cancel₀ _ (ne_of_gt hcount)]
  have hlow : (i : Rat) ≤ (x - v.x) / v.width * frames.length := by
    rw [div_mul_eq_mul_div, le_div_iff₀ hwidth, hpitch]
    exact mul_le_mul_of_nonneg_right (by linarith) (le_of_lt hcount)
  have hhigh : (x - v.x) / v.width * frames.length < (i : Rat) + 1 := by
    rw [div_mul_eq_mul_div, div_lt_iff₀ hwidth, hpitch]
    exact mul_lt_mul_of_pos_right (by linarith) hcount
  apply le_antisymm
  · exact Int.lt_add_one_iff.1 (Rat.floor_lt_iff.2 (by push_cast; exact hhigh))
  · exact Rat.le_floor_iff.2 (by push_cast; exact hlow)

end FrameAtlas.Strip

import FrameAtlas.Proofs.Strip.Tiling
import FrameAtlas.Scalar.Checked
import Mathlib.Data.List.Chain

namespace FrameAtlas

def Rect.map {α β : Type} (f : α → β) (r : Rect α) : Rect β := ⟨f r.x, f r.y, f r.w, f r.h⟩

def Viewport.map {α β : Type} (f : α → β) (v : Viewport α) : Viewport β :=
  ⟨f v.x, f v.y, f v.width, f v.height, f v.pixelRatio⟩

def Strip.map {α β : Type} (f : α → β) (s : Strip α) : Strip β := ⟨s.container.map f, s.elements.map (Rect.map f)⟩

namespace Checked

/-- A choice between two numbers that rests on a comparison of numbers. -/
theorem choice_number {p q : Prop} [Decidable p] [Decidable q] (h : p ↔ q) (a b : Rat) :
    (if p then number b else if Scalar.isUndefined (number a) then number b else number a) =
      number (if q then b else if Scalar.isUndefined a then b else a) := by
  have hdefined : Scalar.isUndefined (number a) = false := by simp [Scalar.isUndefined]
  rw [hdefined, Scalar.isUndefined_eq_false, if_neg Bool.false_ne_true, if_neg Bool.false_ne_true]
  by_cases hq : q
  · rw [if_pos hq, if_pos (h.2 hq)]
  · rw [if_neg hq, if_neg (mt h.1 hq)]

theorem larger_number (a b : Rat) : Scalar.larger (number a) (number b) = number (Scalar.larger a b) :=
  choice_number (number_lt a b) a b

theorem smaller_number (a b : Rat) : Scalar.smaller (number a) (number b) = number (Scalar.smaller a b) :=
  choice_number (number_lt b a) a b

theorem positivePart_number (a : Rat) : Scalar.positivePart (number a) = number (Scalar.positivePart a) := by
  unfold Scalar.positivePart
  by_cases h : ((0 : Nat) : Rat) < a
  · rw [if_pos h]
    exact if_pos ((number_lt _ a).2 h)
  · rw [if_neg h]
    exact if_neg (mt (number_lt _ a).1 h)

theorem sum_number (xs : List Rat) : Scalar.sum (xs.map number) = number (Scalar.sum xs) := by
  have hfrom (xs : List Rat) (start : Rat) :
      (xs.map number).foldl (· + ·) (number start) = number (xs.foldl (· + ·) start) := by
    induction xs generalizing start with
    | nil => rfl
    | cons x rest ih => exact ih (start + x)
  exact hfrom xs _

end Checked

namespace Strip

open Checked

variable {start stop : Rat} {elements : List (Rect Rat)}

theorem Tiles.x_of_cons {r : Rect Rat} (h : Tiles start (r :: elements) stop) : r.x = start := by
  cases h with
  | cons hwidth hrest => rfl

theorem Tiles.head?_x (h : Tiles start elements stop) (hsome : elements ≠ []) :
    elements.head?.map Rect.x = some start := by
  obtain ⟨first, rest, rfl⟩ := List.exists_cons_of_ne_nil hsome
  exact congrArg some h.x_of_cons

theorem Tiles.isChain (h : Tiles start elements stop) : elements.IsChain fun a b => b.x = a.right := by
  induction h with
  | nil x => exact .nil
  | @cons r rest stop hwidth hrest ih =>
    cases rest with
    | nil => exact .singleton r
    | cons next later => exact .cons_cons hrest.x_of_cons ih

/-- The widths of tiles add up to the length that they cover. -/
theorem Tiles.sum_w (h : Tiles start elements stop) : (elements.map Rect.w).sum = stop - start := by
  induction h with
  | nil x => exact (sub_self x).symm
  | @cons r rest stop hwidth hrest ih =>
    have hright : r.right = r.x + r.w := rfl
    rw [List.map_cons, List.sum_cons, ih, hright]
    ring

/-- What lies between the ends lies under one element and no other. -/
theorem Tiles.existsUnique (h : Tiles start elements stop) {x : Rat} (hstart : start ≤ x) (hstop : x < stop) :
    ∃! i : Nat, ∃ r, elements[i]? = some r ∧ r.containsX x = true := by
  rcases h.covers x with hbefore | hbeyond | ⟨i, r, hr, hcontains⟩
  · exact absurd hbefore (not_lt.2 hstart)
  · exact absurd hstop (not_lt.2 hbeyond)
  · let s : Strip Rat := ⟨r, elements⟩
    have hs : Tiles start s.elements stop := h
    refine ⟨i, ⟨r, hr, hcontains⟩, ?_⟩
    intro j hj
    have hi : s.hitTest x = some i := (hitTest_eq_some_iff hs).2 ⟨r, hr, hcontains⟩
    have hfound : s.hitTest x = some j := (hitTest_eq_some_iff hs).2 hj
    exact Option.some.inj (hfound.symm.trans hi)

/-- Outside its ends a search finds nothing. -/
theorem hitTest_eq_none {s : Strip Rat} (h : Tiles start s.elements stop) {x : Rat} (hx : x < start ∨ stop ≤ x) :
    s.hitTest x = none := by
  apply Option.eq_none_iff_forall_ne_some.2
  intro i hi
  obtain ⟨r, hr, hcontains⟩ := (hitTest_eq_some_iff h).1 hi
  obtain ⟨hleft, hright⟩ := containsX_iff.1 hcontains
  obtain ⟨hbegins, -, hends⟩ := h.bounds (List.mem_of_getElem? hr)
  rcases hx with hbefore | hbeyond
  · linarith
  · linarith

theorem map_w_compute (frames : List Frame) (v : Viewport Rat) (sizing : StripSizing) :
    (compute frames v sizing).elements.map Rect.w =
      (weights frames sizing).map (elementWidth (spareWidth frames v) (weights frames sizing).sum) := by
  rw [elements_compute, map_w_tile]

/-- More weight is no less width. -/
theorem elementWidth_mono (frames : List Frame) (v : Viewport Rat) (sizing : StripSizing) {a b : Rat} (h : a ≤ b) :
    elementWidth (spareWidth frames v) (weights frames sizing).sum a ≤
      elementWidth (spareWidth frames v) (weights frames sizing).sum b := by
  have htotal : 0 ≤ (weights frames sizing : List Rat).sum :=
    List.sum_nonneg fun w hw => zero_le_one.trans (one_le_weights frames sizing w hw)
  have hshare : spareWidth frames v * a ≤ spareWidth frames v * b :=
    mul_le_mul_of_nonneg_left h (le_max_left 0 _)
  rw [elementWidth_eq, elementWidth_eq]
  exact add_le_add_right (div_le_div_of_nonneg_right hshare htotal) 2

/-- An element is as wide as the weight of the frame of its position gives. -/
theorem w_of_getElem?_compute {frames : List Frame} {v : Viewport Rat} {sizing : StripSizing} {i : Nat}
    {r : Rect Rat} (hr : (compute frames v sizing).elements[i]? = some r) :
    ∃ weight, (weights frames sizing : List Rat)[i]? = some weight ∧
      r.w = elementWidth (spareWidth frames v) (weights frames sizing).sum weight := by
  have hwidth : ((compute frames v sizing).elements.map Rect.w)[i]? = some r.w := by
    rw [List.getElem?_map, hr]
    rfl
  rw [map_w_compute, List.getElem?_map, Option.map_eq_some_iff] at hwidth
  obtain ⟨weight, hweight, hw⟩ := hwidth
  exact ⟨weight, hweight, hw.symm⟩

/-- No element is narrower than two pixels. -/
theorem two_le_w {frames : List Frame} {v : Viewport Rat} {sizing : StripSizing} {r : Rect Rat}
    (hr : r ∈ (compute frames v sizing).elements) : 2 ≤ r.w := by
  obtain ⟨i, hi⟩ := List.getElem?_of_mem hr
  obtain ⟨weight, hweight, hw⟩ := w_of_getElem?_compute hi
  rw [hw]
  exact two_le_elementWidth v sizing (List.mem_of_getElem? hweight)

theorem w_eq_of_uniform {frames : List Frame} {v : Viewport Rat} {r : Rect Rat}
    (hr : r ∈ (compute frames v .uniform).elements) :
    r.w = elementWidth (spareWidth frames v) (weights frames .uniform).sum 1 := by
  obtain ⟨i, hi⟩ := List.getElem?_of_mem hr
  obtain ⟨weight, hweight, hw⟩ := w_of_getElem?_compute hi
  obtain ⟨f, -, rfl⟩ := List.mem_map.1 (List.mem_of_getElem? hweight)
  exact hw

theorem getElem?_weights_bySize {frames : List Frame} {i : Nat} {f : Frame} (hf : frames[i]? = some f)
    {size : UInt64} (hsize : f.size = some size) :
    (weights frames .bySize : List Rat)[i]? = some (max (size.toNat : Rat) 1) := by
  show (frames.map _)[i]? = _
  rw [List.getElem?_map, hf, Option.map_some, Scalar.larger_eq_max, sizeOf?, hsize]
  rfl

/-- A frame of more bytes is given no less width. -/
theorem w_le_of_size_le {frames : List Frame} {v : Viewport Rat} {i j : Nat} {f g : Frame} {m n : UInt64}
    {a b : Rect Rat} (hf : frames[i]? = some f) (hg : frames[j]? = some g) (hm : f.size = some m)
    (hn : g.size = some n) (hmn : m ≤ n) (ha : (compute frames v .bySize).elements[i]? = some a)
    (hb : (compute frames v .bySize).elements[j]? = some b) : a.w ≤ b.w := by
  obtain ⟨weightA, hweightA, hwidthA⟩ := w_of_getElem?_compute ha
  obtain ⟨weightB, hweightB, hwidthB⟩ := w_of_getElem?_compute hb
  obtain rfl := Option.some.inj ((getElem?_weights_bySize hf hm).symm.trans hweightA)
  obtain rfl := Option.some.inj ((getElem?_weights_bySize hg hn).symm.trans hweightB)
  have hsizes : (m.toNat : Rat) ≤ n.toNat := Nat.cast_le.2 (UInt64.le_iff_toNat_le.1 hmn)
  rw [hwidthA, hwidthB]
  exact elementWidth_mono frames v .bySize (max_le_max_right 1 hsizes)

theorem sizeOf?_checked (f : Frame) : (sizeOf? f : Option Checked) = (sizeOf? f).map number := by
  unfold sizeOf?
  rw [Option.map_map]
  rfl

theorem filterMap_sizeOf?_checked (frames : List Frame) :
    (frames.filterMap sizeOf? : List Checked) = (frames.filterMap sizeOf?).map number := by
  rw [List.map_filterMap]
  exact List.filterMap_congr fun f _ => sizeOf?_checked f

/-- The mean is taken of known sizes only where there are any. -/
theorem meanSize_checked (known : List Rat) : meanSize (known.map number) = number (meanSize known) := by
  unfold meanSize
  cases known with
  | nil => rfl
  | cons size rest =>
    have hcount : ((size :: rest).length : Rat) ≠ 0 := Nat.cast_ne_zero.2 (Nat.succ_ne_zero _)
    rw [sum_number, List.length_map]
    exact number_div _ hcount

/-- No weight is computed by a division by zero. -/
theorem weights_checked (frames : List Frame) (sizing : StripSizing) :
    (weights frames sizing : List Checked) = (weights frames sizing).map number := by
  cases sizing with
  | uniform =>
    show frames.map _ = (frames.map _).map number
    rw [List.map_map]
    rfl
  | bySize =>
    show frames.map _ = (frames.map _).map number
    rw [List.map_map, filterMap_sizeOf?_checked, meanSize_checked]
    apply List.map_congr_left
    intro f _
    have hweight : (sizeOf? f : Option Checked).getD (number (meanSize (frames.filterMap sizeOf?))) =
        number ((sizeOf? f).getD (meanSize (frames.filterMap sizeOf?))) := by
      rw [sizeOf?_checked, Option.getD_map]
    rw [hweight]
    exact larger_number _ 1

theorem tile_checked (y h x : Rat) (widths : List Rat) :
    tile (number y) (number h) (number x) (widths.map number) = (tile y h x widths).map (Rect.map number) := by
  induction widths generalizing x with
  | nil => rfl
  | cons w rest ih => exact congrArg _ (ih (x + w))

/-- On scalars that keep account of division the strip comes out in the same numbers. -/
theorem compute_checked (frames : List Frame) (v : Viewport Rat) (sizing : StripSizing) :
    compute frames (v.map number) sizing = (compute frames v sizing).map number := by
  let ws : List Rat := weights frames sizing
  let spare : Rat := Scalar.positivePart (Scalar.positivePart v.width - (minElementWidth : Rat) * (frames.length : Rat))
  have hwidths : (ws.map number).map (elementWidth (number spare) (number (Scalar.sum ws))) =
      (ws.map (elementWidth spare (Scalar.sum ws))).map number := by
    rw [List.map_map, List.map_map]
    apply List.map_congr_left
    intro w hw
    have hsome : frames ≠ [] := by
      rintro rfl
      cases sizing <;> exact List.not_mem_nil hw
    have htotal : Scalar.sum ws ≠ 0 := by
      rw [sum_eq]
      exact ne_of_gt (sum_weights_pos hsome sizing)
    show number _ + number _ / number _ = number (_ + _ / _)
    rw [number_div _ htotal]
    rfl
  have hspare : Scalar.positivePart (Scalar.positivePart (number v.width) -
      (minElementWidth : Checked) * (frames.length : Checked)) = number spare := by
    rw [positivePart_number]
    exact positivePart_number _
  have hheight : Scalar.smaller (height : Checked) (number v.height) =
      number (Scalar.smaller (height : Rat) v.height) := smaller_number _ _
  unfold compute Strip.map
  simp only [Viewport.map]
  rw [hspare, hheight, weights_checked, sum_number, hwidths, tile_checked, positivePart_number]
  rfl

/-- The elements of a frame list laid edge to edge in the container of a viewport. -/
structure IsExactTiling (frames : List Frame) (v : Viewport Rat) (sizing : StripSizing) (s : Strip Rat) : Prop where
  container_x : s.container.x = v.x
  container_w : s.container.w = max 0 v.width
  length : s.elements.length = frames.length
  first : s.elements.head?.map Rect.x = some s.container.x
  adjacent : s.elements.IsChain fun a b => b.x = a.right
  least : ∀ r ∈ s.elements, 2 ≤ r.w
  together : (s.elements.map Rect.w).sum = max s.container.w (2 * frames.length)
  uniform : sizing = .uniform → ∀ a ∈ s.elements, ∀ b ∈ s.elements, a.w = b.w
  /-- An element and its frame have one position; a frame of more bytes is given no less width. -/
  bySize : sizing = .bySize → ∀ (i j : Nat) (f g : Frame) (m n : UInt64) (a b : Rect Rat),
    frames[i]? = some f → frames[j]? = some g → f.size = some m → g.size = some n → m ≤ n →
      s.elements[i]? = some a → s.elements[j]? = some b → a.w ≤ b.w
  hit : ∀ x i, s.hitTest x = some i ↔ ∃ r, s.elements[i]? = some r ∧ r.containsX x = true
  inside : ∀ x, s.container.x ≤ x → x < s.container.x + max s.container.w (2 * frames.length) →
    ∃! i : Nat, ∃ r, s.elements[i]? = some r ∧ r.containsX x = true
  outside : ∀ x, x < s.container.x ∨ s.container.x + max s.container.w (2 * frames.length) ≤ x → s.hitTest x = none

/-- The strip is tiled exactly, whatever the sizes of its frames, and nothing is divided by zero for it: neither in
the mean of the known sizes nor in the width of any element. -/
theorem compute_tiles_exactly {frames : List Frame} (hsome : frames ≠ []) (v : Viewport Rat) (sizing : StripSizing) :
    IsExactTiling frames v sizing (compute frames v sizing) ∧
      (meanSize (frames.filterMap sizeOf?) : Checked) = number (meanSize (frames.filterMap sizeOf?)) ∧
      compute frames (v.map number) sizing = (compute frames v sizing).map number := by
  have htiles := tiles_compute hsome v sizing
  have hlength : (compute frames v sizing).elements.length = frames.length := length_elements_compute frames v sizing
  have helements : (compute frames v sizing).elements ≠ [] := by
    intro hnone
    rw [hnone] at hlength
    exact hsome (List.length_eq_zero_iff.1 hlength.symm)
  have hcontainer : (compute frames v sizing).container.w = max 0 v.width := positivePart_eq_max v.width
  have htotal : max (leastWidth frames.length) (max 0 v.width) =
      max (compute frames v sizing).container.w (2 * frames.length) := by
    rw [hcontainer, max_comm]
    rfl
  rw [htotal] at htiles
  refine ⟨?tiling, ?mean, compute_checked frames v sizing⟩
  case mean =>
    rw [filterMap_sizeOf?_checked]
    exact meanSize_checked _
  case tiling =>
    refine {
      container_x := rfl
      container_w := hcontainer
      length := hlength
      first := htiles.head?_x helements
      adjacent := htiles.isChain
      least := fun _ hr => two_le_w hr
      together := by rw [htiles.sum_w, add_sub_cancel_left]
      uniform := ?_
      bySize := ?_
      hit := fun x i => hitTest_eq_some_iff htiles
      inside := fun x hstart hstop => htiles.existsUnique hstart hstop
      outside := fun x hx => hitTest_eq_none htiles hx }
    · rintro rfl a ha b hb
      rw [w_eq_of_uniform ha, w_eq_of_uniform hb]
    · rintro rfl i j f g m n a b hf hg hm hn hmn ha hb
      exact w_le_of_size_le hf hg hm hn hmn ha hb

/-- Frames of no bytes, of unknown bytes and of many, in a container that starts right of zero. -/
theorem compute_tiles_exactly_mixed :
    let frames : List Frame := [{ index := 3, size := some 0 }, { index := 1 }, { index := 2, size := some 900 }]
    let v : Viewport Rat := ⟨10, 0, 60, 40, 1⟩
    let strip := compute frames v .bySize
    frames ≠ [] ∧ (strip.elements.map Rect.w).sum = 60 ∧ strip.hitTest 69 = some 2 ∧ strip.hitTest 70 = none ∧
      compute frames (v.map number) .bySize = strip.map number := by
  intro frames v strip
  have hsome : frames ≠ [] := List.cons_ne_nil _ _
  obtain ⟨htiling, -, hchecked⟩ := compute_tiles_exactly hsome v .bySize
  have hwidth : max strip.container.w (2 * frames.length) = 60 := by decide +kernel
  have hlast : ∃ r, strip.elements[2]? = some r ∧ r.containsX 69 = true :=
    ⟨⟨10 + (2 + 54 * 1 / 1351) + (2 + 54 * 450 / 1351), 0, 2 + 54 * 900 / 1351, 28⟩, by decide +kernel,
      by decide +kernel⟩
  refine ⟨hsome, htiling.together.trans hwidth, (htiling.hit 69 2).2 hlast, htiling.outside 70 (.inr ?_), hchecked⟩
  rw [hwidth]
  decide +kernel

end Strip

end FrameAtlas

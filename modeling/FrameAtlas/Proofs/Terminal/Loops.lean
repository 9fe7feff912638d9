import FrameAtlas.Proofs.Steps
import FrameAtlas.Scalar.Extended
import FrameAtlas.Terminal.Raster
import Mathlib.Algebra.Order.Field.Basic
import Mathlib.Algebra.Order.Ring.Rat
import Mathlib.Data.Rat.Floor
import Mathlib.Tactic.Linarith
import Mathlib.Tactic.Ring

/-!
The loops of a drawing. One over the members of a list ends if it ends for each of them. The loops of lines and arcs
have no bound on their steps: they go on as long as their position is below their end, and whatever they come to is
written, visible or not. In exact numbers such a loop ends unless it has a way to go and one of its ends is infinite,
and then it writes what is found by a bounded search for the visible positions.
-/

namespace FrameAtlas.Terminal

section InTurn

variable {β : Type} {runs : β → List CellWrite → Prop}

inductive InTurn (runs : β → List CellWrite → Prop) : List β → List CellWrite → Prop where
  | nil : InTurn runs [] []
  | cons {b : β} {rest : List β} {writes later : List CellWrite} (hb : runs b writes)
      (hrest : InTurn runs rest later) : InTurn runs (b :: rest) (writes ++ later)

theorem InTurn.forall {P : CellWrite → Prop} (hP : ∀ b writes, runs b writes → ∀ w ∈ writes, P w) {l : List β}
    {writes : List CellWrite} (h : InTurn runs l writes) : ∀ w ∈ writes, P w := by
  induction h with
  | nil => exact fun w hw => absurd hw List.not_mem_nil
  | cons hb _ ih =>
    intro w hw
    rcases List.mem_append.1 hw with hw | hw
    · exact hP _ _ hb w hw
    · exact ih w hw

/-- A list comes to its end exactly if all of its members do. -/
theorem exists_inTurn_iff {l : List β} : (∃ writes, InTurn runs l writes) ↔ ∀ b ∈ l, ∃ writes, runs b writes := by
  constructor
  · rintro ⟨writes, h⟩
    induction h with
    | nil => exact fun b hb => absurd hb List.not_mem_nil
    | cons hb _ ih => exact List.forall_mem_cons.2 ⟨⟨_, hb⟩, ih⟩
  · intro h
    induction l with
    | nil => exact ⟨[], .nil⟩
    | cons b rest ih =>
      obtain ⟨⟨writes, hb⟩, hrest⟩ := List.forall_mem_cons.1 h
      obtain ⟨later, hlater⟩ := ih hrest
      exact ⟨writes ++ later, .cons hb hlater⟩

/-- If what each member writes can be computed, so can what the list writes. -/
theorem inTurn_iff {compute : β → Except DrawFailure (List CellWrite)}
    (hcompute : ∀ b writes, runs b writes ↔ compute b = .ok writes) {l : List β} {writes : List CellWrite} :
    InTurn runs l writes ↔ (l.mapM compute).map List.flatten = .ok writes := by
  constructor
  · intro h
    induction h with
    | nil => rfl
    | cons hb _ ih =>
      obtain ⟨parts, hparts, rfl⟩ := map_eq_ok_iff.1 ih
      rw [List.mapM_cons, (hcompute _ _).1 hb, hparts]
      rfl
  · intro h
    obtain ⟨parts, hparts, rfl⟩ := map_eq_ok_iff.1 h
    clear h
    induction l generalizing parts with
    | nil =>
      cases hparts
      exact .nil
    | cons b rest ih =>
      rw [List.mapM_cons] at hparts
      obtain ⟨part, hpart, hrest⟩ := bind_eq_ok_iff.1 hparts
      obtain ⟨later, hlater, hjoined⟩ := bind_eq_ok_iff.1 hrest
      cases hjoined
      exact .cons ((hcompute _ _).2 hpart) (ih later hlater)

end InTurn

variable {α : Type} [Scalar α]

/-- What a loop writes from a position on. Only a loop that comes to its end writes a list at all. -/
inductive Sweep (step stop : α) (body : α → List CellWrite) : α → List CellWrite → Prop where
  | done {position : α} (hstop : ¬ position < stop) : Sweep step stop body position []
  | next {position : α} {later : List CellWrite} (hbelow : position < stop)
      (hlater : Sweep step stop body (position + step) later) :
      Sweep step stop body position (body position ++ later)

/-- A loop writes one list at most. -/
theorem Sweep.unique {step stop position : α} {body : α → List CellWrite} {writes others : List CellWrite}
    (h : Sweep step stop body position writes) (hother : Sweep step stop body position others) :
    writes = others := by
  induction h generalizing others with
  | done hstop =>
    cases hother with
    | done => rfl
    | next hbelow => exact absurd hbelow hstop
  | next hbelow hlater ih =>
    cases hother with
    | done hstop => exact absurd hbelow hstop
    | next _ hother => rw [ih hother]

/-- What holds of all that is written at any position holds of all that a loop writes. -/
theorem Sweep.forall {step stop position : α} {body : α → List CellWrite} {writes : List CellWrite}
    {P : CellWrite → Prop} (hP : ∀ x, ∀ w ∈ body x, P w) (h : Sweep step stop body position writes) :
    ∀ w ∈ writes, P w := by
  induction h with
  | done => exact fun w hw => absurd hw List.not_mem_nil
  | next _ _ ih =>
    intro w hw
    rcases List.mem_append.1 hw with hw | hw
    · exact hP _ w hw
    · exact ih w hw

theorem stepsOnto?_eq_map (visible : α → Bool) (step : α) (bound : Nat) (reached : List α) (start stop : α) :
    stepsOnto? visible step bound reached start stop =
      (stepsOnto? visible step bound [] start stop).map (· ++ reached) := by
  induction bound generalizing reached start with
  | zero =>
    unfold stepsOnto?
    split
    · rfl
    · rfl
  | succ bound ih =>
    unfold stepsOnto?
    split
    · rw [ih (if visible start then start :: reached else reached), ih (if visible start then [start] else []),
        Option.map_map]
      congr 1
      funext found
      cases visible start with
      | false => simp
      | true => simp
    · rfl

/-- A search goes on from the next position, with the one at hand before all it finds. -/
theorem stepsOnto?_succ (visible : α → Bool) (step : α) (bound : Nat) {start stop : α} (h : start < stop) :
    stepsOnto? visible step (bound + 1) [] start stop =
      (stepsOnto? visible step bound [] (start + step) stop).map
        (· ++ if visible start then [start] else []) := by
  rw [stepsOnto?, if_pos h, stepsOnto?_eq_map]

section Exact

open Extended

variable {visible : Extended → Bool} {body : Extended → List CellWrite}

/-- A loop that ends within a bound writes at the visible positions that are found within the bound. -/
theorem sweep_stepsOnto? (hbody : ∀ x, visible x = false → body x = []) {step stop : Rat} (bound : Nat) {start : Rat}
    (hbound : stop ≤ start + bound * step) :
    ∃ positions, stepsOnto? visible (number step) bound [] (number start) (number stop) = some positions ∧
      Sweep (number step) (number stop) body (number start) (positions.reverse.flatMap body) := by
  induction bound generalizing start with
  | zero =>
    have hstop : ¬ number start < number stop := by
      rw [Nat.cast_zero, zero_mul, add_zero] at hbound
      rw [number_lt]
      exact not_lt.2 hbound
    exact ⟨[], if_neg hstop, .done hstop⟩
  | succ bound ih =>
    by_cases hbelow : number start < number stop
    · have hnext : stop ≤ start + step + bound * step := by
        rw [Nat.cast_succ] at hbound
        linarith
      obtain ⟨positions, hfound, hlater⟩ := ih hnext
      rw [← number_add] at hfound hlater
      have hhere : (if visible (number start) then [number start] else []).flatMap body = body (number start) := by
        cases hvisible : visible (number start) with
        | false => rw [hbody _ hvisible, if_neg Bool.false_ne_true, List.flatMap_nil]
        | true => rw [if_pos rfl, List.flatMap_singleton]
      refine ⟨_, by rw [stepsOnto?_succ _ _ _ hbelow, hfound, Option.map_some], ?_⟩
      have hreverse : ((if visible (number start) then [number start] else []) : List Extended).reverse =
          if visible (number start) then [number start] else [] := by
        split
        · rfl
        · rfl
      rw [List.reverse_append, List.flatMap_append, hreverse, hhere]
      exact .next hbelow hlater
    · exact ⟨[], if_neg hbelow, .done hbelow⟩

/-- A loop between two positions comes to its end if it has no way to go, or if both are finite. -/
def LoopEnds (start stop : Extended) : Prop :=
  start < stop → Scalar.isFinite start = true ∧ Scalar.isFinite stop = true

instance (start stop : Extended) : Decidable (LoopEnds start stop) := inferInstanceAs (Decidable (_ → _))

theorem exists_number {x : Extended} (h : Scalar.isFinite x = true) : ∃ a, x = number a := by
  cases x with
  | number a => exact ⟨a, rfl⟩
  | infinite negative => contradiction
  | undefined => contradiction

/-- A bounded search takes no fewer steps than a loop between two numbers. -/
theorem le_bound {step : Nat} (hstep : 0 < step) (start stop : Rat) :
    let bound := Scalar.toNat (Scalar.floor ((number stop - number start) / ((step : Nat) : Extended))) + 2
    stop ≤ start + bound * step := by
  intro bound
  have hpos : (0 : Rat) < step := Nat.cast_pos.2 hstep
  have hquotient : (number stop - number start) / ((step : Nat) : Extended) = number ((stop - start) / step) := by
    show quotient (number (stop + -start)) (number step) = _
    rw [quotient, if_neg (ne_of_gt hpos), sub_eq_add_neg]
  have hfloor : (stop - start) / step < (((stop - start) / step).floor : Rat) + 1 := by
    exact_mod_cast Rat.lt_floor_add_one _
  have hcount : (((stop - start) / step).floor : Rat) ≤ (bound : Rat) - 2 := by
    have hself : Scalar.toNat (Scalar.floor (number ((stop - start) / step))) = ((stop - start) / step).floor.toNat :=
      congrArg Int.toNat (Rat.floor_intCast _)
    have hbound : (bound : Rat) = (((stop - start) / step).floor.toNat : Rat) + 2 := by
      show ((Scalar.toNat (Scalar.floor ((number stop - number start) / ((step : Nat) : Extended))) + 2 : Nat) : Rat) = _
      rw [hquotient, hself]
      push_cast
      rfl
    rw [hbound, add_sub_cancel_right]
    exact_mod_cast Int.self_le_toNat _
  have hlength : stop - start ≤ bound * step := by
    apply (div_le_iff₀ hpos).1
    linarith
  linarith

theorem sweep_steps? (hbody : ∀ x, visible x = false → body x = []) {step : Nat} (hstep : 0 < step)
    {start stop : Extended} (hends : LoopEnds start stop) :
    ∃ positions, steps? visible step start stop = some positions ∧
      Sweep ((step : Nat) : Extended) stop body start (positions.flatMap body) := by
  by_cases hbelow : start < stop
  · obtain ⟨hstart, hstop⟩ := hends hbelow
    obtain ⟨a, rfl⟩ := exists_number hstart
    obtain ⟨b, rfl⟩ := exists_number hstop
    obtain ⟨positions, hfound, hsweep⟩ := sweep_stepsOnto? hbody _ (le_bound hstep a b)
    refine ⟨positions.reverse, ?_, hsweep⟩
    rw [steps?, if_pos hbelow, hstart, hstop, Bool.and_self, if_pos rfl]
    exact congrArg (Option.map List.reverse) hfound
  · exact ⟨[], if_neg hbelow, .done hbelow⟩

/-- Between a position and the next one a loop does not come past its end, if one of the two is infinite. -/
theorem loopEnds_of_add {start stop : Extended} {step : Rat} (h : LoopEnds (start + number step) stop) :
    LoopEnds start stop := by
  intro hbelow
  cases start with
  | undefined => exact absurd hbelow Bool.false_ne_true
  | infinite negative =>
    cases negative with
    | false => cases stop with
      | number b => exact absurd hbelow Bool.false_ne_true
      | infinite other => exact absurd hbelow Bool.false_ne_true
      | undefined => exact absurd hbelow Bool.false_ne_true
    | true => exact h hbelow
  | number a =>
    cases stop with
    | number b => exact ⟨rfl, rfl⟩
    | infinite negative => exact h hbelow
    | undefined => exact absurd hbelow Bool.false_ne_true

/-- A loop that comes to its end had no infinite way to go. -/
theorem Sweep.loopEnds {step : Rat} {start stop : Extended} {writes : List CellWrite}
    (h : Sweep (number step) stop body start writes) : LoopEnds start stop := by
  induction h with
  | done hstop => exact fun hbelow => absurd hbelow hstop
  | next _ _ ih => exact loopEnds_of_add ih

/-- A loop ends exactly if the search does, and writes at what is found. -/
theorem sweep_iff (hbody : ∀ x, visible x = false → body x = []) {step : Nat} (hstep : 0 < step)
    {start stop : Extended} {writes : List CellWrite} :
    Sweep ((step : Nat) : Extended) stop body start writes ↔ sweepWrites visible step start stop body = .ok writes := by
  by_cases hends : LoopEnds start stop
  · obtain ⟨positions, hfound, hsweep⟩ := sweep_steps? hbody hstep hends
    rw [sweepWrites, hfound]
    constructor
    · intro h
      rw [h.unique hsweep]
    · intro h
      rw [← Except.ok.inj h]
      exact hsweep
  · obtain ⟨hbelow, hinfinite⟩ := Classical.not_imp.1 hends
    have hnone : steps? visible step start stop = none := by
      rw [steps?, if_pos hbelow, if_neg]
      rwa [Bool.and_eq_true]
    rw [sweepWrites, hnone]
    constructor
    · exact fun h => absurd h.loopEnds hends
    · exact fun h => nomatch h

/-- A loop ends unless it has an infinite way to go. -/
theorem exists_sweep_iff {step : Nat} (hstep : 0 < step) {start stop : Extended} :
    (∃ writes, Sweep ((step : Nat) : Extended) stop body start writes) ↔ LoopEnds start stop := by
  constructor
  · rintro ⟨writes, h⟩
    exact h.loopEnds
  · intro hends
    have hseen : ∀ x, (fun _ : Extended => true) x = false → body x = [] := fun _ h => nomatch h
    obtain ⟨positions, -, hsweep⟩ := sweep_steps? hseen hstep hends
    exact ⟨_, hsweep⟩

end Exact

end FrameAtlas.Terminal

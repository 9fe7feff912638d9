import FrameAtlas.Proofs.Cursor.Commit
import FrameAtlas.Proofs.Session.Standing
import FrameAtlas.Proofs.Strip.Tiling
import Mathlib.Algebra.Order.Field.Basic

namespace FrameAtlas

namespace Cursor

variable {c : Cursor Rat} {x width : Rat}

theorem positionAt_eq (c : Cursor Rat) (x width : Rat) : c.positionAt x width =
    (Scalar.clamp (0 : Rat) ((c.frameCount - 1 : Nat) : Rat)
      ((x / width * c.frameCount).floor : Rat)).floor.toNat := rfl

/-- Left of the strip a fraction falls on the first position. -/
theorem positionAt_of_neg (hwidth : 0 < width) (hx : x < 0) (hcount : c.frameCount ≠ 0) :
    c.positionAt x width = 0 := by
  have hframes : (0 : Rat) < c.frameCount := Nat.cast_pos.2 (Nat.pos_of_ne_zero hcount)
  have hfraction : x / width * c.frameCount < ((0 : Int) : Rat) :=
    mul_neg_of_neg_of_pos (div_neg_of_neg_of_pos hx hwidth) hframes
  have hfloor : ((x / width * c.frameCount).floor : Rat) < 0 := by
    exact_mod_cast Rat.floor_lt_iff.2 hfraction
  have hlast : ¬ ((c.frameCount - 1 : Nat) : Rat) < 0 := not_lt.2 (Nat.cast_nonneg _)
  rw [positionAt_eq, Scalar.clamp]
  simp only [if_pos hfloor, if_neg hlast]
  rfl

/-- Right of the strip a fraction falls on the last position. -/
theorem positionAt_of_le (hwidth : 0 < width) (hx : width ≤ x) (hcount : c.frameCount ≠ 0) :
    c.positionAt x width = c.frameCount - 1 := by
  have hframes : (0 : Rat) < c.frameCount := Nat.cast_pos.2 (Nat.pos_of_ne_zero hcount)
  have hwhole : 1 ≤ x / width := (one_le_div hwidth).2 hx
  have hfraction : ((c.frameCount : Int) : Rat) ≤ x / width * c.frameCount := by
    calc ((c.frameCount : Int) : Rat) = 1 * (c.frameCount : Rat) := (one_mul _).symm
      _ ≤ x / width * c.frameCount := mul_le_mul_of_nonneg_right hwhole (le_of_lt hframes)
  have hfloor : (c.frameCount : Rat) ≤ ((x / width * c.frameCount).floor : Rat) := by
    exact_mod_cast Rat.le_floor_iff.2 hfraction
  have hlast : ((c.frameCount - 1 : Nat) : Rat) < c.frameCount :=
    Nat.cast_lt.2 (Nat.sub_lt (Nat.pos_of_ne_zero hcount) Nat.one_pos)
  have hpos : ¬ ((x / width * c.frameCount).floor : Rat) < 0 := by linarith
  have hbeyond : ((c.frameCount - 1 : Nat) : Rat) < ((x / width * c.frameCount).floor : Rat) := by linarith
  have hcount : (((c.frameCount - 1 : Nat) : Rat)).floor = ((c.frameCount - 1 : Nat) : Int) :=
    Rat.floor_intCast _
  rw [positionAt_eq, Scalar.clamp]
  simp only [if_neg hpos, if_pos hbeyond]
  rw [hcount, Int.toNat_natCast]

/-- A fraction that falls on a position of the list is left as it is. -/
theorem positionAt_of_floor {i : Nat} (hi : i < c.frameCount)
    (hfloor : (x / width * c.frameCount).floor = (i : Int)) : c.positionAt x width = i := by
  have hlow : ¬ ((i : Int) : Rat) < 0 := not_lt.2 (Nat.cast_nonneg i)
  have hhigh : ¬ ((c.frameCount - 1 : Nat) : Rat) < ((i : Int) : Rat) :=
    not_lt.2 (Nat.cast_le.2 (Nat.le_sub_one_of_lt hi))
  rw [positionAt_eq, hfloor, Scalar.clamp]
  simp only [if_neg hlow, if_neg hhigh]
  rw [Rat.floor_intCast, Int.toNat_natCast]

theorem resolve_congr {α : Type} [Scalar α] {c d : Cursor α} (h : d.frameCount = c.frameCount) (hit : Option Nat)
    (x width : α) : d.resolve hit x width = c.resolve hit x width := by
  unfold resolve positionAt
  rw [h]

/-- A hit inside the list decides alone. -/
theorem resolve_of_hit {hit : Nat} (hhit : hit < c.frameCount) : c.resolve (some hit) x width = some hit := by
  have hsome : c.frameCount ≠ 0 := by omega
  rw [resolve, if_neg hsome, Option.filter_some, if_pos (decide_eq_true hhit)]

/-- Where nothing is hit the fraction of the width counts. -/
theorem resolve_none (hwidth : 0 < width) (hcount : c.frameCount ≠ 0) :
    c.resolve none x width = some (c.positionAt x width) := by
  have hwide : ¬ width ≤ ((0 : Nat) : Rat) := not_le.2 hwidth
  have hfinite : Scalar.isFinite x = true := rfl
  -- All that a fraction is refused for is absent: the width is there, and no exact number is undefined.
  rw [resolve, if_neg hcount, Option.filter_none]
  simp only [Scalar.isUndefined_eq_false, decide_eq_false hwide, hfinite, Bool.not_true, Bool.or_false]
  rfl

theorem fst_pointerDown {α : Type} [Scalar α] (c : Cursor α) (hit : Option Nat) (x width : α) :
    (c.pointerDown hit x width).1 = c.resolve hit x width := by
  unfold pointerDown
  split
  · rename_i hnone
    exact hnone.symm
  · rename_i hsome
    exact hsome.symm

/-- A move in a drag gives the position of a press, unless that is where the drag is already. -/
theorem fst_pointerMove {α : Type} [Scalar α] {c : Cursor α} (hdrag : c.isDragging = true) (hit : Option Nat)
    (x width : α) : (c.pointerMove hit x width).1 =
      if c.resolve hit x width = c.drag then none else c.resolve hit x width := by
  obtain ⟨last, hlast⟩ := Option.isSome_iff_exists.1 hdrag
  rw [pointerMove, hlast]
  cases c.resolve hit x width with
  | none => rfl
  | some position =>
    by_cases hsame : position = last
    · rw [hsame]
      simp
    · simp [hsame]

end Cursor

namespace Session

theorem fst_pointerDown_eq {α : Type} [Scalar α] (s : Session α) (x : α) (v : Viewport α) :
    (s.pointerDown x v).1 = s.cursor.resolve ((s.stripLayout v).hitTest x) (x - (s.stripLayout v).container.x)
      (s.stripLayout v).container.w := by
  rw [← Cursor.resolve_congr (sameList_trackStrip s v).frameCount, ← Cursor.fst_pointerDown]
  rfl

theorem fst_pointerMove_eq {α : Type} [Scalar α] {s : Session α} (hdrag : s.cursor.isDragging = true) (x : α)
    (v : Viewport α) : (s.pointerMove x v).1 =
      if (s.pointerDown x v).1 = s.cursor.drag then none else (s.pointerDown x v).1 := by
  let c : Cursor α := (s.trackStrip v).2.cursor
  have hsame : c.drag = s.cursor.drag := (sameStanding_trackStrip s v).drag
  have htracked : c.isDragging = true := by rwa [Cursor.isDragging, hsame]
  have hmove : (s.pointerMove x v).1 = (c.pointerMove ((s.stripLayout v).hitTest x)
      (x - (s.stripLayout v).container.x) (s.stripLayout v).container.w).1 := by
    rw [pointerMove, if_pos hdrag]
    rfl
  rw [hmove, Cursor.fst_pointerMove htracked, fst_pointerDown_eq,
    Cursor.resolve_congr (sameList_trackStrip s v).frameCount, hsame]

variable {s : Session Rat} {v : Viewport Rat}

theorem frames_ne_nil (hsome : 0 < s.length) : s.frames ≠ [] := List.length_pos_iff.1 hsome

theorem elements_ne_nil (hsome : 0 < s.length) (v : Viewport Rat) : (s.stripLayout v).elements ≠ [] := by
  apply List.length_pos_iff.1
  exact hsome.trans_eq (Strip.length_elements_compute s.frames v s.sizing).symm

/-- The strip of a session runs from the left edge of the viewport on without gaps. -/
theorem tiles_stripLayout (hsome : 0 < s.length) (v : Viewport Rat) :
    Strip.Tiles v.x (s.stripLayout v).elements (v.x + max (Strip.leastWidth s.length) (max 0 v.width)) :=
  Strip.tiles_compute (frames_ne_nil hsome) v s.sizing

theorem container_w_stripLayout (s : Session Rat) (hwidth : 0 < v.width) :
    (s.stripLayout v).container.w = v.width :=
  (Strip.positivePart_eq_max v.width).trans (max_eq_right (le_of_lt hwidth))

/-- The cursor knows of as many frames as the strip has elements. -/
theorem Derived.length_elements (hs : s.Derived) (v : Viewport Rat) :
    (s.stripLayout v).elements.length = s.cursor.frameCount :=
  (Strip.length_elements_compute s.frames v s.sizing).trans hs.frameCount.symm

/-- A press lands where the pointer lies along the strip. -/
theorem Derived.fst_pointerDown_of_liesAt (hs : s.Derived) (hsome : 0 < s.length) (hwidth : 0 < v.width) {x : Rat}
    {i : Nat} (hx : (s.stripLayout v).LiesAt x i) : (s.pointerDown x v).1 = some i := by
  have htiles := tiles_stripLayout hsome v
  have helements := elements_ne_nil hsome v
  have hcount : s.cursor.frameCount ≠ 0 := by
    rw [hs.frameCount]
    omega
  have hlength := hs.length_elements v
  have hleft : (s.stripLayout v).container.x = v.x := rfl
  have hmissed (hno : ∀ r ∈ (s.stripLayout v).elements, ¬ r.containsX x = true) :
      (s.pointerDown x v).1 = some (s.cursor.positionAt (x - v.x) v.width) := by
    have hnone : (s.stripLayout v).hitTest x = none := by
      rw [Option.eq_none_iff_forall_ne_some]
      intro j hj
      obtain ⟨r, hr, hcontains⟩ := (Strip.hitTest_eq_some_iff htiles).1 hj
      exact hno r (List.mem_of_getElem? hr) hcontains
    rw [fst_pointerDown_eq, hnone, container_w_stripLayout s hwidth, hleft, Cursor.resolve_none hwidth hcount]
  cases hx with
  | under hr hcontains =>
    have hhit := (Strip.hitTest_eq_some_iff htiles).2 ⟨_, hr, hcontains⟩
    rw [fst_pointerDown_eq, hhit]
    exact Cursor.resolve_of_hit (hlength ▸ (List.getElem?_eq_some_iff.1 hr).1)
  | left h =>
    have hbefore : x < v.x := htiles.lt_start helements h
    rw [hmissed fun r hr hcontains => absurd (Strip.containsX_iff.1 hcontains).1 (not_le.2 (h r hr)),
      Cursor.positionAt_of_neg hwidth (sub_neg.2 hbefore) hcount]
  | right h =>
    have hbeyond := htiles.stop_le helements h
    -- The strip is at least as wide as its container, so the fraction is of the whole width or more.
    have hfull : v.width ≤ max (Strip.leastWidth s.length) (max 0 v.width) :=
      (le_max_right 0 v.width).trans (le_max_right _ _)
    rw [hmissed fun r hr hcontains => absurd (Strip.containsX_iff.1 hcontains).2 (not_lt.2 (h r hr)),
      Cursor.positionAt_of_le hwidth (by linarith) hcount, hlength]

/-- A press lands on an element exactly if it lies there, the first and the last element reaching on outside the
strip. -/
theorem Derived.fst_pointerDown_eq_some_iff (hs : s.Derived) (hsome : 0 < s.length) (hwidth : 0 < v.width)
    {x : Rat} {i : Nat} : (s.pointerDown x v).1 = some i ↔ (s.stripLayout v).LiesAt x i := by
  constructor
  · intro hi
    obtain ⟨j, -, hj⟩ := (tiles_stripLayout hsome v).exists_liesAt (elements_ne_nil hsome v) x
    obtain rfl := Option.some.inj ((hs.fst_pointerDown_of_liesAt hsome hwidth hj).symm.trans hi)
    exact hj
  · exact hs.fst_pointerDown_of_liesAt hsome hwidth

/-- Presses and drags land on the element under the pointer. After every history, in a viewport of any positive
width, a press gives the position of the element whose extent holds the pointer, the first position left of the
strip and the last one right of it. So there is always a position, it never goes back as the pointer goes right,
and a drag gives it too wherever it is another than the drag is at. In a strip of equal elements that fills its
container the fraction of the width gives the same position. -/
theorem pointerDown_lands (events : List (SessionEvent Rat)) (v : Viewport Rat) (hwidth : 0 < v.width)
    (hsome : 0 < ((new : Session Rat).after events).length) :
    let s := (new : Session Rat).after events
    let strip := s.stripLayout v
    (∀ x, ∃ i < s.length, (s.pointerDown x v).1 = some i) ∧
      (∀ x i, (s.pointerDown x v).1 = some i ↔ strip.LiesAt x i) ∧
      (∀ x y i j, x ≤ y → (s.pointerDown x v).1 = some i → (s.pointerDown y v).1 = some j → i ≤ j) ∧
      (s.cursor.isDragging = true → ∀ x, (s.pointerMove x v).1 =
        if (s.pointerDown x v).1 = s.cursor.drag then none else (s.pointerDown x v).1) ∧
      (s.sizing = .uniform → ((2 * s.length : Nat) : Rat) ≤ v.width → ∀ x i r, strip.elements[i]? = some r →
        r.containsX x = true → strip.hitTest x = some i ∧
          ((x - strip.container.x) / strip.container.w * (s.length : Rat)).floor = i ∧
          s.cursor.positionAt (x - strip.container.x) strip.container.w = i) := by
  intro s strip
  have hs : s.Derived := derived_new.after events
  have htiles := tiles_stripLayout hsome v
  have helements := elements_ne_nil hsome v
  have hlands (x : Rat) (i : Nat) := hs.fst_pointerDown_eq_some_iff hsome hwidth (x := x) (i := i)
  refine ⟨?inside, hlands, ?monotone, ?drag, ?uniform⟩
  case inside =>
    intro x
    obtain ⟨i, hi, hx⟩ := htiles.exists_liesAt helements x
    rw [hs.length_elements v, hs.frameCount] at hi
    exact ⟨i, hi, (hlands x i).2 hx⟩
  case monotone =>
    intro x y i j hxy hi hj
    exact htiles.liesAt_mono helements hxy ((hlands x i).1 hi) ((hlands y j).1 hj)
  case drag =>
    intro hdrag x
    exact fst_pointerMove_eq hdrag x v
  case uniform =>
    intro huniform hwide x i r hr hcontains
    have hleast : Strip.leastWidth s.frames.length ≤ v.width := by
      rw [Nat.cast_mul] at hwide
      exact hwide
    have hstrip : strip = Strip.compute s.frames v .uniform := by
      show Strip.compute s.frames v s.sizing = _
      rw [huniform]
    have hfloor : ((x - strip.container.x) / strip.container.w * (s.length : Rat)).floor = i := by
      rw [container_w_stripLayout s hwidth]
      exact Strip.floor_fraction_eq (frames_ne_nil hsome) hleast (hstrip ▸ hr) hcontains
    refine ⟨(Strip.hitTest_eq_some_iff htiles).2 ⟨r, hr, hcontains⟩, hfloor, ?_⟩
    apply Cursor.positionAt_of_floor
    · exact hs.length_elements v ▸ (List.getElem?_eq_some_iff.1 hr).1
    · rw [hs.frameCount]
      exact hfloor

/-- A drag over three equal cells that start right of zero. -/
theorem pointerDown_lands_off_zero :
    let list : Snapshot := ⟨1, [{ index := 4 }, { index := 2, size := some 900 }, { index := 7 }]⟩
    let v : Viewport Rat := ⟨10, 0, 60, 40, 1⟩
    let s := (new : Session Rat).after [.replace list, .pointerDown 200 v]
    let strip := s.stripLayout v
    0 < v.width ∧ 0 < s.length ∧ s.cursor.drag = some 2 ∧ (s.pointerDown 45 v).1 = some 1 ∧
      (s.pointerDown 9 v).1 = some 0 ∧ (s.pointerMove 45 v).1 = some 1 ∧ strip.hitTest 45 = some 1 ∧
      ((45 - strip.container.x) / strip.container.w * (s.length : Rat)).floor = 1 := by
  intro list v s strip
  have hwidth : 0 < v.width := by decide
  have hsome : 0 < s.length := by decide
  obtain ⟨-, hlands, -, hdrag, huniform⟩ := pointerDown_lands [.replace list, .pointerDown 200 v] v hwidth hsome
  have hcell : strip.elements[1]? = some ⟨30, 0, 20, 28⟩ := by decide +kernel
  have hcontains : (⟨30, 0, 20, 28⟩ : Rect Rat).containsX 45 = true := by decide +kernel
  have hmiddle : (s.pointerDown 45 v).1 = some 1 := (hlands 45 1).2 (.under hcell hcontains)
  have hleft : (s.pointerDown 9 v).1 = some 0 := (hlands 9 0).2 (.left (by decide +kernel))
  have hdragged : s.cursor.drag = some 2 := by decide +kernel
  have hmoved : (s.pointerMove 45 v).1 = some 1 := by
    rw [hdrag (congrArg Option.isSome hdragged) 45, hmiddle, hdragged]
    rfl
  obtain ⟨hhit, hfloor, -⟩ := huniform rfl (by decide) 45 1 _ hcell hcontains
  exact ⟨hwidth, hsome, hdragged, hmiddle, hleft, hmoved, hhit, hfloor⟩

end Session

end FrameAtlas

import FrameAtlas.Proofs.Arrow.Anchors
import FrameAtlas.Proofs.Number.Tenths
import FrameAtlas.Proofs.Text.Blank
import FrameAtlas.Terminal.Arc

/-!
Arcs read back from the paths of arrows. A path has ten words, two of them letters that are no numbers and eight the
coordinates of its four points, and no coordinate can break a word or fail to be a number, however it is written. So
the arc that is read has the ends and the depth that were written.
-/

namespace FrameAtlas

namespace Terminal.ArcBracket

variable {α : Type} [Scalar α]

def isSeparator (c : Char) : Bool := Text.isBlank c || c == ','

def words (path : String) : List (List Char) := Text.pieces isSeparator path.toList

def numbers (path : String) : List α := (literals path).filterMap Scalar.ofLiteral?

theorem isSeparator_of_isDigit {c : Char} (hc : c.isDigit = true) : isSeparator c = false := by
  have hcomma : (c == ',') = false := by
    rw [beq_eq_false_iff_ne]
    rintro rfl
    contradiction
  rw [isSeparator, Text.isBlank_of_isDigit hc, hcomma]
  rfl

theorem unbroken_of_all {word : List Char} (h : word.all (fun c => !isSeparator c) = true) :
    ∀ c ∈ word, isSeparator c = false := by
  intro c hc
  exact Bool.eq_false_of_not_eq_true' (List.all_eq_true.1 h c hc)

/-- Numbers that are written as one word, and as a word that is a number. -/
structure WritesWords (α : Type) [Scalar α] : Prop where
  unbroken : ∀ x : α, ∀ c ∈ (Scalar.oneDecimal x).toList, isSeparator c = false
  read : ∀ x : α, ∃ y : α, written? x = some y

/-- A number with one place after the point is one word. -/
theorem unbroken_oneDecimalText (negative : Bool) (num den : Nat) :
    ∀ c ∈ (oneDecimalText negative num den).toList, isSeparator c = false := by
  rw [toList_oneDecimalText]
  intro c hc
  rcases List.mem_append.1 hc with hsign | hdigits
  · cases negative with
    | false => contradiction
    | true =>
      rw [List.mem_singleton.1 hsign]
      decide
  · rcases List.mem_append.1 hdigits with hwhole | hpart
    · exact isSeparator_of_isDigit (isDigit_of_mem_decimalDigits hwhole)
    · rcases List.mem_cons.1 hpart with rfl | hpart
      · decide
      · exact isSeparator_of_isDigit (isDigit_of_mem_decimalDigits hpart)

theorem writesWords_exact : WritesWords Rat where
  unbroken _ := unbroken_oneDecimalText _ _ _
  read x := by
    obtain ⟨y, hy, -⟩ := written?_exact x
    exact ⟨y, hy⟩

/-- Doubles without a decimal are written by name, in one word too. -/
theorem writesWords_double : WritesWords Float where
  unbroken x := by
    show ∀ c ∈ (doubleOneDecimal x).toList, isSeparator c = false
    unfold doubleOneDecimal
    split
    · exact unbroken_of_all (by decide)
    · split
      · exact unbroken_of_all (by decide)
      · exact unbroken_of_all (by decide)
    · exact unbroken_oneDecimalText _ _ _
  read := written?_double

/-- No word of a path is lost, and none is made of two. -/
theorem words_arcPath (hα : WritesWords α) (sourceX targetX anchorY controlY : α) :
    let text (x : α) := (Scalar.oneDecimal x).toList
    words (Arrow.arcPath sourceX targetX anchorY controlY) =
      [['M'], text sourceX, text anchorY, ['C'], text sourceX, text controlY, text targetX, text controlY,
        text targetX, text anchorY] := by
  intro text
  have hblank : isSeparator ' ' = true := by decide
  have hcomma : isSeparator ',' = true := by decide
  have hmove : ∀ c ∈ ['M'], isSeparator c = false := unbroken_of_all (by decide)
  have hcurve : ∀ c ∈ ['C'], isSeparator c = false := unbroken_of_all (by decide)
  have htext : ∀ x : α, ∀ c ∈ text x, isSeparator c = false := hα.unbroken
  have hpath : (Arrow.arcPath sourceX targetX anchorY controlY).toList =
      ['M'] ++ ' ' :: (text sourceX ++ ',' :: (text anchorY ++ ' ' :: (['C'] ++ ' ' ::
        (text sourceX ++ ',' :: (text controlY ++ ' ' :: (text targetX ++ ',' :: (text controlY ++ ' ' ::
          (text targetX ++ ',' :: text anchorY)))))))) := by
    simp [Arrow.arcPath, text]
  rw [words, hpath, Text.pieces_append_cons hmove hblank, Text.pieces_append_cons (htext sourceX) hcomma,
    Text.pieces_append_cons (htext anchorY) hblank, Text.pieces_append_cons hcurve hblank,
    Text.pieces_append_cons (htext sourceX) hcomma, Text.pieces_append_cons (htext controlY) hblank,
    Text.pieces_append_cons (htext targetX) hcomma, Text.pieces_append_cons (htext controlY) hblank,
    Text.pieces_append_cons (htext targetX) hcomma, Text.pieces_of_word (htext anchorY)]

/-- What is read of a path of an arrow, given what each of its coordinates is read as. -/
theorem literals_arcPath (hα : WritesWords α) {sourceX targetX anchorY controlY : α} {sx tx ay cy : NumberLiteral}
    (hsource : NumberLiteral.ofText? (Scalar.oneDecimal sourceX).toList = some sx)
    (htarget : NumberLiteral.ofText? (Scalar.oneDecimal targetX).toList = some tx)
    (hanchor : NumberLiteral.ofText? (Scalar.oneDecimal anchorY).toList = some ay)
    (hcontrol : NumberLiteral.ofText? (Scalar.oneDecimal controlY).toList = some cy) :
    literals (Arrow.arcPath sourceX targetX anchorY controlY) = [sx, ay, sx, cy, tx, cy, tx, ay] := by
  have hmove : NumberLiteral.ofText? ['M'] = none := rfl
  have hcurve : NumberLiteral.ofText? ['C'] = none := rfl
  show (words (Arrow.arcPath sourceX targetX anchorY controlY)).filterMap NumberLiteral.ofText? = _
  rw [words_arcPath hα, List.filterMap_cons_none hmove, List.filterMap_cons_some hsource,
    List.filterMap_cons_some hanchor, List.filterMap_cons_none hcurve, List.filterMap_cons_some hsource,
    List.filterMap_cons_some hcontrol, List.filterMap_cons_some htarget, List.filterMap_cons_some hcontrol,
    List.filterMap_cons_some htarget, List.filterMap_cons_some hanchor, List.filterMap_nil]

/-- An arrow is read as an arc between the numbers that are written for its anchors, as deep as the numbers for the
anchor line and the control line make it. -/
structure IsReadAs (g : ArrowGeometry α) (anchors : FrameAnchors α) (a : Arrow α) (sx tx ay cy : α) : Prop where
  source : written? (anchors.x a.source g) = some sx
  target : written? (anchors.x a.target g) = some tx
  anchor : written? g.anchorY = some ay
  control : written? (g.anchorY + g.arcDepth a.slot) = some cy
  words : words a.path =
    [['M'], (Scalar.oneDecimal (anchors.x a.source g)).toList, (Scalar.oneDecimal g.anchorY).toList,
      ['C'], (Scalar.oneDecimal (anchors.x a.source g)).toList,
      (Scalar.oneDecimal (g.anchorY + g.arcDepth a.slot)).toList,
      (Scalar.oneDecimal (anchors.x a.target g)).toList,
      (Scalar.oneDecimal (g.anchorY + g.arcDepth a.slot)).toList,
      (Scalar.oneDecimal (anchors.x a.target g)).toList, (Scalar.oneDecimal g.anchorY).toList]
  numbers : numbers a.path = [sx, ay, sx, cy, tx, cy, tx, ay]
  arc : ofPath? a.path = some ⟨sx, tx, ay, ay + (cy - ay) * (((3 : Nat) : α) / ((4 : Nat) : α))⟩

/-- Any arrow of a layout is read back as an arc, if its numbers are written as words that are numbers. -/
theorem exists_isReadAs (hα : WritesWords α) {frames : List Frame} {g : ArrowGeometry α} {anchors : FrameAnchors α}
    {a : Arrow α} (ha : a ∈ (ArrowLayout.compute frames g anchors).arrows) :
    ∃ sx tx ay cy, IsReadAs g anchors a sx tx ay cy := by
  obtain ⟨e, -, slot, rfl⟩ := ArrowLayout.mem_compute_arrows ha
  obtain ⟨sx, hsource⟩ := hα.read (anchors.x e.source g)
  obtain ⟨tx, htarget⟩ := hα.read (anchors.x e.target g)
  obtain ⟨ay, hanchor⟩ := hα.read g.anchorY
  obtain ⟨cy, hcontrol⟩ := hα.read (g.anchorY + g.arcDepth slot)
  obtain ⟨source, hsourceText, hsx⟩ := Option.bind_eq_some_iff.1 hsource
  obtain ⟨target, htargetText, htx⟩ := Option.bind_eq_some_iff.1 htarget
  obtain ⟨anchor, hanchorText, hay⟩ := Option.bind_eq_some_iff.1 hanchor
  obtain ⟨control, hcontrolText, hcy⟩ := Option.bind_eq_some_iff.1 hcontrol
  have hliterals : literals (Arrow.ofEdge g anchors (ArrowLayout.levelsByIndex frames) e slot).path =
      [source, anchor, source, control, target, control, target, anchor] :=
    literals_arcPath hα hsourceText htargetText hanchorText hcontrolText
  refine ⟨sx, tx, ay, cy, hsource, htarget, hanchor, hcontrol, words_arcPath hα _ _ _ _, ?_, ?_⟩
  · rw [numbers, hliterals, List.filterMap_cons_some hsx, List.filterMap_cons_some hay, List.filterMap_cons_some hsx,
      List.filterMap_cons_some hcy, List.filterMap_cons_some htx, List.filterMap_cons_some hcy,
      List.filterMap_cons_some htx, List.filterMap_cons_some hay, List.filterMap_nil]
  · rw [ofPath?, hliterals]
    simp only [hsx, hay, hcy, htx]
    rfl

/-- The terminal reads the arrows that were laid out. Doubles and exact numbers alike are written as one word each, a
word that is a number, and an exact number comes back as the nearest tenth. So the words of the path of any arrow are
the two letters and the eight coordinates that were written, no more numbers are found among them, and the arc has
its ends at what was written for its two anchors and reaches three quarters down to what was written for its control
line. -/
theorem arrows_read_back :
    (WritesWords Float ∧ WritesWords Rat ∧ ∀ x : Rat, ∃ y, written? x = some y ∧ |y - x| ≤ 1 / 20) ∧
      ∀ {α : Type} [Scalar α], WritesWords α →
        ∀ (frames : List Frame) (g : ArrowGeometry α) (anchors : FrameAnchors α),
          ∀ a ∈ (ArrowLayout.compute frames g anchors).arrows,
            ∃ sx tx ay cy, IsReadAs g anchors a sx tx ay cy := by
  refine ⟨⟨writesWords_double, writesWords_exact, written?_exact⟩, ?_⟩
  intro α _ hα frames g anchors a ha
  exact exists_isReadAs hα ha

/-- An arrow that starts left of zero, above zero and between two tenths, and ends far to the right. -/
theorem arrows_read_back_left_of_zero :
    let frames : List Frame := [{ index := 3, refs := [7] }, { index := 7 }]
    let g : ArrowGeometry Rat := { ArrowGeometry.default with anchorY := -1 / 4 }
    let anchors : FrameAnchors Rat := .ofCenters [(3, -1234 / 100), (7, 12345678995 / 100)]
    ∃ a ∈ (ArrowLayout.compute frames g anchors).arrows,
      a.path = "M -12.3,-0.2 C -12.3,15.8 123456790.0,15.8 123456790.0,-0.2" ∧
        ofPath? a.path = some (⟨-123 / 10, 123456790, -1 / 5, 59 / 5⟩ : ArcBracket Rat) := by
  intro frames g anchors
  obtain ⟨a, ha, hsource, htarget, hslot, hpath⟩ : ∃ a ∈ (ArrowLayout.compute frames g anchors).arrows,
      a.source = 3 ∧ a.target = 7 ∧ a.slot = 0 ∧
        a.path = "M -12.3,-0.2 C -12.3,15.8 123456790.0,15.8 123456790.0,-0.2" := by decide +kernel
  obtain ⟨sx, tx, ay, cy, hread⟩ := arrows_read_back.2 writesWords_exact frames g anchors a ha
  have hsx : written? (anchors.x 3 g) = some (-123 / 10) := by decide +kernel
  have htx : written? (anchors.x 7 g) = some 123456790 := by decide +kernel
  have hay : written? g.anchorY = some (-1 / 5) := by decide +kernel
  have hcy : written? (g.anchorY + g.arcDepth 0) = some (79 / 5) := by decide +kernel
  obtain rfl : -123 / 10 = sx := Option.some.inj (hsx.symm.trans (hsource ▸ hread.source))
  obtain rfl : 123456790 = tx := Option.some.inj (htx.symm.trans (htarget ▸ hread.target))
  obtain rfl : -1 / 5 = ay := Option.some.inj (hay.symm.trans hread.anchor)
  obtain rfl : 79 / 5 = cy := Option.some.inj (hcy.symm.trans (hslot ▸ hread.control))
  have hpeak : (-1 / 5 + (79 / 5 - -1 / 5) * (((3 : Nat) : Rat) / ((4 : Nat) : Rat))) = 59 / 5 := by norm_num
  refine ⟨a, ha, hpath, ?_⟩
  rw [hread.arc, hpeak]

end Terminal.ArcBracket

end FrameAtlas

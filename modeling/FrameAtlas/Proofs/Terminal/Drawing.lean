import FrameAtlas.Proofs.Terminal.Loops
import FrameAtlas.Proofs.Terminal.Screen
import Mathlib.Data.List.ReduceOption

/-!
Drawing onto the cells of an area. Every command, whatever it is and wherever it lies, writes through one write that
keeps to the area; so drawing changes no cell outside the area and never reaches past the screen. It comes to an end
unless a row of a rectangle is too wide or an arc reaches to infinity.
-/

namespace FrameAtlas.Terminal

variable {α : Type} [Scalar α]

namespace Raster

open Extended

def puts (r : Raster) (x y : α) (text : List Char) (style : Style) : List CellWrite :=
  (text.mapIdx fun i symbol => r.write (x + (i : α) * (cellWidth : α)) y symbol style).flatten

def RowRuns (r : Raster) (c : RectCommand α) (row : Nat) (writes : List CellWrite) : Prop :=
  ∃ text, rectRow (cellsOf c.rect.w cellWidth) row (c.label.getD "") = some text ∧
    writes = r.puts c.rect.x (c.rect.y + (row : α) * (cellHeight : α)) text (rectStyle c)

def LineRuns (r : Raster) (c : LineCommand α) (writes : List CellWrite) : Prop :=
  if Scalar.distance c.start.x c.stop.x < (cellWidth : α) / ((2 : Nat) : α) then
    Sweep (cellHeight : α) (Scalar.larger c.start.y c.stop.y)
      (fun y => r.write c.start.x y '│' (plain c.color)) (Scalar.smaller c.start.y c.stop.y) writes
  else
    Sweep (cellWidth : α) (Scalar.larger c.start.x c.stop.x)
      (fun x => r.write x c.start.y '─' (plain c.color)) (Scalar.smaller c.start.x c.stop.x) writes

def ArcRuns (r : Raster) (arc : ArcBracket α) (dashed : Bool) (style : Style) (writes : List CellWrite) : Prop :=
  let left := Scalar.smaller arc.sourceX arc.targetX
  let right := Scalar.larger arc.sourceX arc.targetX
  ∃ posts bar,
    Sweep (cellHeight : α) arc.peakY (fun y => r.write left y '│' style ++ r.write right y '│' style)
        arc.anchorY posts ∧
      Sweep (cellWidth : α) right (fun x => r.write x arc.peakY (if dashed then '╌' else '─') style)
        (left + (cellWidth : α)) bar ∧
      writes = posts ++ bar ++ r.write left arc.peakY '╰' style ++ r.write right arc.peakY '╯' style

def PathRuns (r : Raster) (c : PathCommand α) (writes : List CellWrite) : Prop :=
  if c.visible then
    match (ArcBracket.ofPath? c.path : Option (ArcBracket α)) with
    | none => writes = []
    | some arc => ∃ outline, r.ArcRuns arc c.dashed (plain c.color) outline ∧
        writes = outline ++ match c.label with
          | none => []
          | some label =>
            r.puts (c.labelPosition.x - (label.utf8ByteSize : α) * (cellWidth : α) / ((2 : Nat) : α))
              c.labelPosition.y label.toList (plain c.color)
  else writes = []

def textStart (c : TextCommand α) : α :=
  let width : α := (c.text.length : α) * (cellWidth : α)
  match c.align with
  | .left => c.position.x
  | .center => c.position.x - width / ((2 : Nat) : α)
  | .right => c.position.x - width

def CommandRuns (r : Raster) : Command α → List CellWrite → Prop
  | .rect c, writes => InTurn (r.RowRuns c) (List.range (cellsOf c.rect.h cellHeight)) writes
  | .line c, writes => r.LineRuns c writes
  | .text c, writes =>
    writes = r.puts (textStart c) (c.position.y - (cellHeight : α) / ((4 : Nat) : α)) c.text.toList (plain c.color)
  | .path c, writes => r.PathRuns c writes
  | .beginGroup _ _, writes => writes = []
  | .endGroup, writes => writes = []

def Runs (r : Raster) (commands : List (Command α)) (writes : List CellWrite) : Prop :=
  InTurn r.CommandRuns commands writes

theorem reduceOption_mapIdx {β γ : Type} (f : Nat → β → Option γ) (l : List β) :
    (l.mapIdx f).reduceOption = (l.mapIdx fun i a => (f i a).toList).flatten := by
  induction l generalizing f with
  | nil => rfl
  | cons a rest ih =>
    rw [List.mapIdx_cons, List.mapIdx_cons, List.flatten_cons, ← ih]
    cases f 0 a with
    | none => rw [List.reduceOption_cons_of_none, Option.toList_none, List.nil_append]
    | some b => rw [List.reduceOption_cons_of_some, Option.toList_some, List.singleton_append]

theorem write_of_row? {r : Raster} {y : α} {row : Nat} (hrow : r.row? y = some row) (x : α) (symbol : Char)
    (style : Style) :
    r.write x y symbol style = ((r.column? x).map fun column => (⟨column, row, symbol, style⟩ : CellWrite)).toList := by
  rw [write, hrow]
  cases r.column? x with
  | none => rfl
  | some column => rfl

theorem write_of_row?_eq_none {r : Raster} {y : α} (hrow : r.row? y = none) (x : α) (symbol : Char)
    (style : Style) : r.write x y symbol style = [] := by
  rw [write, hrow]
  cases r.column? x with
  | none => rfl
  | some column => rfl

theorem write_of_column?_eq_none {r : Raster} {x : α} (hcolumn : r.column? x = none) (y : α) (symbol : Char)
    (style : Style) : r.write x y symbol style = [] := by
  rw [write, hcolumn]

/-- A text is written character by character, whether it has a row or not. -/
theorem writeText_eq_puts (r : Raster) (x y : α) (text : List Char) (style : Style) :
    r.writeText x y text style = r.puts x y text style := by
  unfold writeText puts
  cases hrow : r.row? y with
  | none =>
    simp only [write_of_row?_eq_none hrow]
    symm
    rw [List.flatten_eq_nil_iff]
    intro writes hwrites
    obtain ⟨i, hi, rfl⟩ := List.mem_mapIdx.1 hwrites
    rfl
  | some row =>
    simp only [write_of_row? hrow]
    exact reduceOption_mapIdx _ text

theorem write_of_showsRow {r : Raster} {y : α} (h : r.showsRow y = false) (x : α) (symbol : Char) (style : Style) :
    r.write x y symbol style = [] :=
  write_of_row?_eq_none (Option.isSome_eq_false_iff.1 h |> Option.isNone_iff_eq_none.1) x symbol style

theorem write_of_showsColumn {r : Raster} {x : α} (h : r.showsColumn x = false) (y : α) (symbol : Char)
    (style : Style) : r.write x y symbol style = [] :=
  write_of_column?_eq_none (Option.isSome_eq_false_iff.1 h |> Option.isNone_iff_eq_none.1) y symbol style

theorem rowRuns_iff (r : Raster) (c : RectCommand α) (row : Nat) (writes : List CellWrite) :
    r.RowRuns c row writes ↔ r.rowWrites c row = .ok writes := by
  unfold RowRuns rowWrites
  cases rectRow (cellsOf c.rect.w cellWidth) row (c.label.getD "") with
  | none =>
    constructor
    · rintro ⟨_, ⟨⟩, -⟩
    · rintro ⟨⟩
  | some text =>
    simp only [← writeText_eq_puts]
    constructor
    · rintro ⟨_, ⟨⟩, rfl⟩
      rfl
    · rintro ⟨⟩
      exact ⟨text, rfl, rfl⟩

theorem labelWrites_eq_puts (r : Raster) (c : PathCommand α) :
    r.labelWrites c = match c.label with
      | none => []
      | some label =>
        r.puts (c.labelPosition.x - (label.utf8ByteSize : α) * (cellWidth : α) / ((2 : Nat) : α))
          c.labelPosition.y label.toList (plain c.color) := by
  unfold labelWrites
  cases c.label with
  | none => rfl
  | some label => exact writeText_eq_puts _ _ _ _ _

theorem postsAndCorners (left right : α) {r : Raster} {y : α} (h : r.showsRow y = false) (style : Style) :
    r.write left y '│' style ++ r.write right y '│' style = [] := by
  rw [write_of_showsRow h, write_of_showsRow h, List.append_nil]

section Exact

theorem lineRuns_iff (r : Raster) (c : LineCommand Extended) (writes : List CellWrite) :
    r.LineRuns c writes ↔ r.lineWrites c = .ok writes := by
  unfold LineRuns lineWrites
  simp only
  split
  · exact sweep_iff (fun y hy => write_of_showsRow hy _ _ _) (by decide)
  · exact sweep_iff (fun x hx => write_of_showsColumn hx _ _ _) (by decide)

theorem arcRuns_iff (r : Raster) (arc : ArcBracket Extended) (dashed : Bool) (style : Style)
    (writes : List CellWrite) :
    r.ArcRuns arc dashed style writes ↔ r.arcWrites arc dashed style = .ok writes := by
  unfold ArcRuns arcWrites
  simp only [bind_eq_ok_iff, ← sweep_iff (fun y hy => postsAndCorners _ _ hy style) (by decide : 0 < cellHeight),
    ← sweep_iff (fun x hx => write_of_showsColumn hx _ _ _) (by decide : 0 < cellWidth)]
  constructor
  · rintro ⟨posts, bar, hposts, hbar, rfl⟩
    exact ⟨posts, hposts, bar, hbar, rfl⟩
  · rintro ⟨posts, hposts, bar, hbar, hwrites⟩
    exact ⟨posts, bar, hposts, hbar, (Except.ok.inj hwrites).symm⟩

theorem pathRuns_iff (r : Raster) (c : PathCommand Extended) (writes : List CellWrite) :
    r.PathRuns c writes ↔ r.pathWrites c = .ok writes := by
  have hnothing : writes = [] ↔ (.ok [] : Except DrawFailure (List CellWrite)) = .ok writes :=
    ⟨fun h => h ▸ rfl, fun h => (Except.ok.inj h).symm⟩
  unfold PathRuns pathWrites
  split
  · cases (ArcBracket.ofPath? c.path : Option (ArcBracket Extended)) with
    | none => exact hnothing
    | some arc =>
      simp only [map_eq_ok_iff, arcRuns_iff, labelWrites_eq_puts, @eq_comm _ writes]
  · exact hnothing

/-- What a command writes is computed, or it does not come to an end. -/
theorem commandRuns_iff (r : Raster) (c : Command Extended) (writes : List CellWrite) :
    r.CommandRuns c writes ↔ r.commandWrites c = .ok writes := by
  have hgiven : ∀ given : List CellWrite,
      writes = given ↔ (.ok given : Except DrawFailure (List CellWrite)) = .ok writes :=
    fun given => ⟨fun h => h ▸ rfl, fun h => (Except.ok.inj h).symm⟩
  cases c with
  | rect c => exact inTurn_iff (r.rowRuns_iff c)
  | text c =>
    simp only [CommandRuns, ← writeText_eq_puts]
    exact hgiven _
  | line c => exact r.lineRuns_iff c writes
  | path c => exact r.pathRuns_iff c writes
  | beginGroup id label => exact hgiven []
  | endGroup => exact hgiven []

/-- A drawing has the outcome that its loops have, if they all end. -/
theorem runs_iff (r : Raster) (commands : List (Command Extended)) (writes : List CellWrite) :
    r.Runs commands writes ↔ r.writes commands = .ok writes :=
  inTurn_iff r.commandRuns_iff

end Exact

section Writes

variable {r : Raster} {P : CellWrite → Prop}

theorem forall_puts (hP : ∀ (x y : α) symbol style, ∀ w ∈ r.write x y symbol style, P w) (x y : α)
    (text : List Char) (style : Style) : ∀ w ∈ r.puts x y text style, P w := by
  intro w hw
  obtain ⟨writes, hwrites, hmem⟩ := List.mem_flatten.1 hw
  obtain ⟨i, _, rfl⟩ := List.mem_mapIdx.1 hwrites
  exact hP _ _ _ _ w hmem

theorem LineRuns.forall (hP : ∀ (x y : α) symbol style, ∀ w ∈ r.write x y symbol style, P w) {c : LineCommand α}
    {writes : List CellWrite} (h : r.LineRuns c writes) : ∀ w ∈ writes, P w := by
  unfold LineRuns at h
  split at h
  · exact h.forall fun y => hP _ y _ _
  · exact h.forall fun x => hP x _ _ _

theorem ArcRuns.forall (hP : ∀ (x y : α) symbol style, ∀ w ∈ r.write x y symbol style, P w) {arc : ArcBracket α}
    {dashed : Bool} {style : Style} {writes : List CellWrite} (h : r.ArcRuns arc dashed style writes) :
    ∀ w ∈ writes, P w := by
  obtain ⟨posts, bar, hposts, hbar, rfl⟩ := h
  intro w hw
  rw [List.mem_append, List.mem_append, List.mem_append] at hw
  rcases hw with ((hw | hw) | hw) | hw
  · refine hposts.forall (fun y v hv => ?_) w hw
    rcases List.mem_append.1 hv with hv | hv
    · exact hP _ _ _ _ v hv
    · exact hP _ _ _ _ v hv
  · exact hbar.forall (fun x => hP x _ _ _) w hw
  · exact hP _ _ _ _ w hw
  · exact hP _ _ _ _ w hw

theorem PathRuns.forall (hP : ∀ (x y : α) symbol style, ∀ w ∈ r.write x y symbol style, P w) {c : PathCommand α}
    {writes : List CellWrite} (h : r.PathRuns c writes) : ∀ w ∈ writes, P w := by
  unfold PathRuns at h
  split at h
  · split at h
    · rw [h]
      exact fun w hw => absurd hw List.not_mem_nil
    · obtain ⟨outline, harc, rfl⟩ := h
      intro w hw
      rcases List.mem_append.1 hw with hw | hw
      · exact harc.forall hP w hw
      · split at hw
        · exact absurd hw List.not_mem_nil
        · exact forall_puts hP _ _ _ _ w hw
  · rw [h]
    exact fun w hw => absurd hw List.not_mem_nil

/-- Whatever a command writes, it writes by writes at positions; so what holds of those holds of it. -/
theorem CommandRuns.forall (hP : ∀ (x y : α) symbol style, ∀ w ∈ r.write x y symbol style, P w) {c : Command α}
    {writes : List CellWrite} (h : r.CommandRuns c writes) : ∀ w ∈ writes, P w := by
  cases c with
  | rect c =>
    refine InTurn.forall (fun row writes hrow => ?_) h
    obtain ⟨text, -, rfl⟩ := hrow
    exact forall_puts hP _ _ _ _
  | text c =>
    rw [show writes = _ from h]
    exact forall_puts hP _ _ _ _
  | line c => exact LineRuns.forall hP h
  | path c => exact PathRuns.forall hP h
  | beginGroup id label =>
    rw [show writes = [] from h]
    exact fun w hw => absurd hw List.not_mem_nil
  | endGroup =>
    rw [show writes = [] from h]
    exact fun w hw => absurd hw List.not_mem_nil

theorem Runs.forall (hP : ∀ (x y : α) symbol style, ∀ w ∈ r.write x y symbol style, P w)
    {commands : List (Command α)} {writes : List CellWrite} (h : r.Runs commands writes) : ∀ w ∈ writes, P w :=
  InTurn.forall (fun _ _ hc => hc.forall hP) h

end Writes

def HasCell (r : Raster) (column row : Nat) : Prop :=
  (r.x ≤ column ∧ column < r.x + r.width) ∧ (r.y ≤ row ∧ row < r.y + r.height)

theorem cellAt?_lt {position : Extended} {cell count n : Nat} (h : cellAt? position cell count = some n) :
    n < count := by
  unfold cellAt? at h
  simp only at h
  split at h
  · rename_i hinside
    rw [← Option.some.inj h]
    cases hquotient : position / (cell : Extended) with
    | undefined =>
      rw [hquotient] at hinside
      exact absurd hinside.2 Bool.false_ne_true
    | infinite negative =>
      rw [hquotient] at hinside
      cases negative with
      | false => exact absurd hinside.2 Bool.false_ne_true
      | true => exact absurd hinside.1 Bool.false_ne_true
    | number x =>
      have hfloor : Scalar.floor (number x) = number (x.floor : Rat) := rfl
      have hcount : Scalar.toNat (number (x.floor : Rat)) = x.floor.toNat :=
        congrArg Int.toNat (Rat.floor_intCast _)
      rw [hquotient, hfloor] at hinside
      rw [hfloor, hcount]
      have hlow : 0 ≤ x.floor := by exact_mod_cast (number_le _ _).1 hinside.1
      have hhigh : x.floor < (count : Int) := by exact_mod_cast (number_lt _ _).1 hinside.2
      omega
  · contradiction

/-- A write at a position is for a cell of the area, or there is none. -/
theorem hasCell_of_mem_write {r : Raster} {x y : Extended} {symbol : Char} {style : Style} {w : CellWrite}
    (h : w ∈ r.write x y symbol style) : r.HasCell w.column w.row := by
  unfold write at h
  split at h
  · rename_i column row hcolumn hrow
    obtain ⟨n, hn, rfl⟩ := Option.map_eq_some_iff.1 hcolumn
    obtain ⟨m, hm, rfl⟩ := Option.map_eq_some_iff.1 hrow
    rw [List.mem_singleton.1 h]
    have hwidth := cellAt?_lt hn
    have hheight := cellAt?_lt hm
    exact ⟨⟨Nat.le_add_right _ _, Nat.add_lt_add_left hwidth _⟩, Nat.le_add_right _ _,
      Nat.add_lt_add_left hheight _⟩
  · contradiction

theorem Runs.hasCell {r : Raster} {commands : List (Command Extended)} {writes : List CellWrite}
    (h : r.Runs commands writes) : ∀ w ∈ writes, r.HasCell w.column w.row :=
  h.forall fun _ _ _ _ _ => hasCell_of_mem_write

def isDrawn : Command α → Bool
  | .path c => c.visible && (ArcBracket.ofPath? c.path : Option (ArcBracket α)).isSome
  | .beginGroup _ _ => false
  | .endGroup => false
  | _ => true

/-- What is not drawn at all writes nothing, and never fails. -/
theorem commandWrites_of_not_isDrawn (r : Raster) {c : Command α} (h : isDrawn c = false) :
    r.commandWrites c = .ok [] := by
  cases c with
  | path c =>
    show r.pathWrites c = .ok []
    unfold pathWrites
    split
    · rename_i hvisible
      have hnone : (ArcBracket.ofPath? c.path : Option (ArcBracket α)) = none := by
        simpa [isDrawn, hvisible] using h
      rw [hnone]
    · rfl
  | beginGroup id label => rfl
  | endGroup => rfl
  | rect c => contradiction
  | text c => contradiction
  | line c => contradiction

theorem writes_cons (r : Raster) (c : Command α) (rest : List (Command α)) :
    r.writes (c :: rest) = (r.commandWrites c).bind fun part => (r.writes rest).map (part ++ ·) := by
  unfold writes
  rw [List.mapM_cons]
  cases r.commandWrites c with
  | error failure => rfl
  | ok part =>
    show Except.map _ (Except.bind _ _) = Except.map _ (Except.map _ _)
    cases rest.mapM r.commandWrites with
    | error failure => rfl
    | ok parts => rfl

/-- A drawing is that of the commands that are drawn at all. -/
theorem writes_filter_isDrawn (r : Raster) (commands : List (Command α)) :
    r.writes (commands.filter isDrawn) = r.writes commands := by
  induction commands with
  | nil => rfl
  | cons c rest ih =>
    cases hdrawn : isDrawn c with
    | false =>
      have hnothing : (r.writes rest).map (([] : List CellWrite) ++ ·) = r.writes rest := by
        cases r.writes rest with
        | error failure => rfl
        | ok writes => rfl
      rw [List.filter_cons_of_neg (by simp [hdrawn]), ih, writes_cons, r.commandWrites_of_not_isDrawn hdrawn]
      exact hnothing.symm
    | true => rw [List.filter_cons_of_pos hdrawn, writes_cons, writes_cons, ih]

/-- Whether the rows of a rectangle can be formed: the one with the label on it, if there is room, is padded, and the
others are full. -/
def RowsForm (columns : Nat) (label : String) : Prop :=
  columns ≤ if label.utf8ByteSize + 2 ≤ columns then maxPadding + 1 else maxColumns

instance (columns : Nat) (label : String) : Decidable (RowsForm columns label) :=
  inferInstanceAs (Decidable (columns ≤ _))

def ArcEnds (arc : ArcBracket Extended) : Prop :=
  LoopEnds arc.anchorY arc.peakY ∧
    LoopEnds (Scalar.smaller arc.sourceX arc.targetX + (cellWidth : Extended)) (Scalar.larger arc.sourceX arc.targetX)

instance (arc : ArcBracket Extended) : Decidable (ArcEnds arc) := inferInstanceAs (Decidable (_ ∧ _))

/-- Whether a command with finite coordinates comes to an end when it is drawn. -/
def IsDrawable : Command Extended → Prop
  | .rect c => RowsForm (cellsOf c.rect.w cellWidth) (c.label.getD "")
  | .path c => c.visible = true → ∀ arc ∈ (ArcBracket.ofPath? c.path : Option (ArcBracket Extended)), ArcEnds arc
  | _ => True

instance (c : Command Extended) : Decidable (IsDrawable c) :=
  match c with
  | .rect _ => inferInstanceAs (Decidable (RowsForm _ _))
  | .path _ => inferInstanceAs (Decidable (_ = true → ∀ arc ∈ _, ArcEnds arc))
  | .line _ => inferInstanceAs (Decidable True)
  | .text _ => inferInstanceAs (Decidable True)
  | .beginGroup _ _ => inferInstanceAs (Decidable True)
  | .endGroup => inferInstanceAs (Decidable True)

def hasFiniteCoordinates : Command α → Bool
  | .rect c =>
    Scalar.isFinite c.rect.x && Scalar.isFinite c.rect.y && Scalar.isFinite c.rect.w && Scalar.isFinite c.rect.h
  | .line c =>
    Scalar.isFinite c.start.x && Scalar.isFinite c.start.y && Scalar.isFinite c.stop.x && Scalar.isFinite c.stop.y
  | .text c => Scalar.isFinite c.position.x && Scalar.isFinite c.position.y
  | .path c => Scalar.isFinite c.labelPosition.x && Scalar.isFinite c.labelPosition.y
  | _ => true

theorem cellsOf_pos (length : α) (cell : Nat) : 0 < cellsOf length cell := by
  unfold cellsOf
  simp only
  split
  · decide
  · omega

/-- A row can be formed if it is narrow enough for what stands on it. -/
theorem exists_rectRow_iff {columns row : Nat} {label : String} :
    (∃ text, rectRow columns row label = some text) ↔
      columns ≤ if row = 0 ∧ label.utf8ByteSize + 2 ≤ columns then maxPadding + 1 else maxColumns := by
  unfold rectRow
  split
  · simp only [Option.ite_none_right_eq_some, exists_and_left, Option.some.injEq, exists_eq', and_true]
    exact Nat.sub_le_iff_le_add
  · simp only [Option.ite_none_right_eq_some, exists_and_left, Option.some.injEq, exists_eq', and_true]

/-- The first row is the only one that can hold the label, and there always is a first row. -/
theorem rowsForm_iff (length : α) (columns : Nat) (label : String) :
    RowsForm columns label ↔
      ∀ row ∈ List.range (cellsOf length cellHeight), ∃ text, rectRow columns row label = some text := by
  have hfirst : 0 ∈ List.range (cellsOf length cellHeight) := List.mem_range.2 (cellsOf_pos length cellHeight)
  have hpadded : maxPadding + 1 ≤ maxColumns := by decide
  simp only [exists_rectRow_iff, RowsForm]
  constructor
  · intro hcolumns row _
    refine Nat.le_trans hcolumns ?_
    by_cases hroom : label.utf8ByteSize + 2 ≤ columns
    · rw [if_pos hroom]
      split
      · exact Nat.le_refl _
      · exact hpadded
    · rw [if_neg hroom, if_neg fun h => hroom h.2]
  · intro h
    simpa using h 0 hfirst

/-- A rectangle is drawn if its rows can be formed. -/
theorem exists_rectRuns_iff (r : Raster) (c : RectCommand α) :
    (∃ writes, r.CommandRuns (.rect c) writes) ↔ RowsForm (cellsOf c.rect.w cellWidth) (c.label.getD "") := by
  rw [rowsForm_iff c.rect.h]
  show (∃ writes, InTurn (r.RowRuns c) _ writes) ↔ _
  rw [exists_inTurn_iff]
  refine forall₂_congr fun row _ => ?_
  constructor
  · rintro ⟨writes, text, htext, -⟩
    exact ⟨text, htext⟩
  · rintro ⟨text, htext⟩
    exact ⟨_, text, htext, rfl⟩

theorem isFinite_smaller_larger {x y : Extended} (hx : Scalar.isFinite x = true) (hy : Scalar.isFinite y = true) :
    Scalar.isFinite (Scalar.smaller x y) = true ∧ Scalar.isFinite (Scalar.larger x y) = true := by
  unfold Scalar.smaller Scalar.larger
  constructor
  · split
    · exact hy
    · split
      · exact hy
      · exact hx
  · split
    · exact hy
    · split
      · exact hy
      · exact hx

/-- Between finite coordinates a line always comes to its end. -/
theorem exists_lineRuns (r : Raster) {c : LineCommand Extended} (hfinite : hasFiniteCoordinates (.line c) = true) :
    ∃ writes, r.LineRuns c writes := by
  simp only [hasFiniteCoordinates, Bool.and_eq_true] at hfinite
  obtain ⟨⟨⟨hstartX, hstartY⟩, hstopX⟩, hstopY⟩ := hfinite
  unfold LineRuns
  split
  · exact (exists_sweep_iff (by decide)).2 fun _ => isFinite_smaller_larger hstartY hstopY
  · exact (exists_sweep_iff (by decide)).2 fun _ => isFinite_smaller_larger hstartX hstopX

/-- An arc is drawn if both of its loops end. -/
theorem exists_arcRuns_iff (r : Raster) (arc : ArcBracket Extended) (dashed : Bool) (style : Style) :
    (∃ writes, r.ArcRuns arc dashed style writes) ↔ ArcEnds arc := by
  constructor
  · rintro ⟨writes, posts, bar, hposts, hbar, -⟩
    exact ⟨hposts.loopEnds, hbar.loopEnds⟩
  · rintro ⟨hposts, hbar⟩
    obtain ⟨posts, hposts⟩ := (exists_sweep_iff (by decide : 0 < cellHeight)).2 hposts
    obtain ⟨bar, hbar⟩ := (exists_sweep_iff (by decide : 0 < cellWidth)).2 hbar
    exact ⟨_, posts, bar, hposts, hbar, rfl⟩

theorem exists_pathRuns_iff (r : Raster) (c : PathCommand Extended) :
    (∃ writes, r.PathRuns c writes) ↔
      (c.visible = true → ∀ arc ∈ (ArcBracket.ofPath? c.path : Option (ArcBracket Extended)), ArcEnds arc) := by
  unfold PathRuns
  split
  · rename_i hvisible
    cases (ArcBracket.ofPath? c.path : Option (ArcBracket Extended)) with
    | none => exact iff_of_true ⟨[], rfl⟩ fun _ arc harc => nomatch harc
    | some arc =>
      have hends : (∀ other ∈ some arc, ArcEnds other) ↔ ArcEnds arc :=
        ⟨fun h => h arc rfl, fun h other hother => Option.some.inj hother ▸ h⟩
      rw [hends, ← r.exists_arcRuns_iff arc c.dashed (plain c.color)]
      constructor
      · rintro ⟨writes, outline, houtline, -⟩ -
        exact ⟨outline, houtline⟩
      · intro h
        obtain ⟨outline, houtline⟩ := h hvisible
        exact ⟨_, outline, houtline, rfl⟩
  · rename_i hhidden
    exact iff_of_true ⟨[], rfl⟩ fun hvisible => absurd hvisible hhidden

/-- A command with finite coordinates is drawn if it is drawable. -/
theorem exists_commandRuns_iff (r : Raster) {c : Command Extended} (hfinite : hasFiniteCoordinates c = true) :
    (∃ writes, r.CommandRuns c writes) ↔ IsDrawable c := by
  cases c with
  | rect c => exact r.exists_rectRuns_iff c
  | path c => exact r.exists_pathRuns_iff c
  | line c => exact iff_of_true (r.exists_lineRuns hfinite) trivial
  | text c => exact iff_of_true ⟨_, rfl⟩ trivial
  | beginGroup id label => exact iff_of_true ⟨[], rfl⟩ trivial
  | endGroup => exact iff_of_true ⟨[], rfl⟩ trivial

/-- Drawing in exact numbers stays in its area, and it ends just where its rows and loops do. A list of commands with
finite coordinates, wherever they lie, comes to an end exactly if each rectangle is narrow enough for its rows to be
formed and no visible path is an arc that goes on without end. Then what its loops write is one list, and the same as
is drawn; every write is for a cell that has a column and a row with numbers and is on the screen, as soon as the area
is; and no cell outside the area changes, nor does the size of the screen. Hidden paths, paths that are no arcs and
groups might as well be missing from any list. -/
theorem drawing_ends_in_area (r : Raster) (commands : List (Command Extended))
    (hfinite : ∀ c ∈ commands, hasFiniteCoordinates c = true) (s : Screen) (hs : s.IsWhole)
    (hright : r.x + r.width ≤ maxCell) (hbottom : r.y + r.height ≤ maxCell)
    (hwidth : r.x + r.width ≤ s.width) (hheight : r.y + r.height ≤ s.height) :
    ((∃ writes, r.Runs commands writes) ↔ ∀ c ∈ commands, IsDrawable c) ∧
      (∀ writes, r.Runs commands writes →
        (∀ others, r.Runs commands others → others = writes) ∧
          (r.draw commands s = .ok (s.putAll writes) ∧ s.putAll? writes = some (s.putAll writes)) ∧
          ((s.putAll writes).width = s.width ∧ (s.putAll writes).height = s.height ∧ (s.putAll writes).IsWhole) ∧
          ∀ column row, ¬ r.HasCell column row → (s.putAll writes).get? column row = s.get? column row) ∧
      r.draw (commands.filter isDrawn) s = r.draw commands s := by
  refine ⟨?ends, ?inside, ?drawn⟩
  case ends =>
    exact exists_inTurn_iff.trans (forall₂_congr fun c hc => r.exists_commandRuns_iff (hfinite c hc))
  case inside =>
    intro writes hruns
    have hcells : ∀ w ∈ writes, r.HasCell w.column w.row := hruns.hasCell
    have hheld : ∀ w ∈ writes, s.Holds w := by
      intro w hw
      obtain ⟨⟨-, hcolumn⟩, -, hrow⟩ := hcells w hw
      exact hs.holds ⟨by omega, by omega⟩ (by omega) (by omega)
    obtain ⟨hsameWidth, hsameHeight, hsameCells⟩ := s.size_putAll writes
    have hwrites : r.writes commands = .ok writes := (r.runs_iff commands writes).1 hruns
    refine ⟨?unique, ⟨?draws, Screen.putAll?_eq hheld⟩, ⟨hsameWidth, hsameHeight, ?whole⟩, ?outside⟩
    case unique =>
      intro others hothers
      rw [r.runs_iff commands others, hwrites] at hothers
      exact (Except.ok.inj hothers).symm
    case draws =>
      rw [draw, hwrites]
      rfl
    case whole =>
      rw [Screen.IsWhole, hsameWidth, hsameHeight, hsameCells]
      exact hs
    case outside =>
      intro column row houtside
      refine Screen.get?_putAll_of_ne ?_
      rintro w hw ⟨rfl, rfl⟩
      exact houtside (hcells w hw)
  case drawn => rw [draw, r.writes_filter_isDrawn, draw]

/-- Commands that reach out of an area on all sides, an arc among them, and a path that is none. -/
theorem drawing_ends_in_area_of_outsiders :
    let r : Raster := ⟨2, 1, 5, 3⟩
    let s : Screen := .empty 9 5
    let line : Command Extended :=
      .line ⟨⟨number (-100), number 20⟩, ⟨number 200, number 20⟩, .cursor, number 2⟩
    let box : Command Extended :=
      .rect ⟨⟨number 30, number (-100), number 400, number 132⟩, .frameIntra, none, some "wide", none, true⟩
    let arc : Command Extended := .path ⟨"M 10.0,0.0 C 10.0,48.0 90.0,48.0 90.0,0.0", .level1, number 1, false,
      some "L0[0]", ⟨number (-4), number 4⟩, some 3, true⟩
    let broken : Command Extended :=
      .path ⟨"M 1,2", .level1, number 1, false, none, ⟨number 0, number 0⟩, none, true⟩
    let commands := [.beginGroup "all" none, line, box, broken, arc, .endGroup]
    ((∀ c ∈ commands, hasFiniteCoordinates c = true) ∧ s.IsWhole ∧ r.x + r.width ≤ maxCell ∧
        r.y + r.height ≤ maxCell ∧ r.x + r.width ≤ s.width ∧ r.y + r.height ≤ s.height) ∧
      (∃ drawn, r.draw commands s = .ok drawn ∧
        drawn.rows = ["         ", "  0] ██  ", "  ─│───  ", "   ╰───  ", "         "] ∧
        drawn.get? 7 2 = s.get? 7 2) ∧
      r.draw [line, box, arc] s = r.draw commands s := by
  intro r s line box arc broken commands
  have hs : s.IsWhole := Screen.isWhole_empty 9 5
  have hfinite : ∀ c ∈ commands, hasFiniteCoordinates c = true := by decide
  obtain ⟨hends, hinside, hdrawn⟩ := drawing_ends_in_area r commands hfinite s hs (by decide) (by decide)
    (by decide) (by decide)
  obtain ⟨writes, hruns⟩ := hends.2 (by decide +kernel)
  obtain ⟨-, ⟨hdraw, -⟩, -, houtside⟩ := hinside writes hruns
  have hfilter : commands.filter isDrawn = [line, box, arc] := by decide +kernel
  have hcell : ¬ r.HasCell 7 2 := fun h => absurd h.1.2 (by decide)
  have hrows : (r.draw commands s).map Screen.rows =
      .ok ["         ", "  0] ██  ", "  ─│───  ", "   ╰───  ", "         "] := by decide +kernel
  rw [hdraw] at hrows
  rw [hfilter] at hdrawn
  exact ⟨⟨hfinite, hs, by decide, by decide, by decide, by decide⟩,
    ⟨_, hdraw, Except.ok.inj hrows, houtside 7 2 hcell⟩, hdrawn⟩

/-- A rectangle whose first row cannot be padded to its width, and an arc that goes down without end: both have finite
coordinates, and neither can be drawn. -/
theorem drawing_fails_of_wide_and_of_endless :
    let r : Raster := ⟨0, 0, 4, 1⟩
    let wide : Command Extended :=
      .rect ⟨⟨number 0, number 0, number 600000, number 16⟩, .level1, none, none, none, false⟩
    let endless : Command Extended := .path ⟨"M 0.0,0.0 C 0.0,inf 32.0,inf 32.0,0.0", .level1, number 1, false, none,
      ⟨number 0, number 0⟩, none, true⟩
    (hasFiniteCoordinates wide = true ∧ r.draw [wide] r.blankScreen = .error .tooWide ∧
        ¬ ∃ writes, r.Runs [wide] writes) ∧
      hasFiniteCoordinates endless = true ∧ r.draw [endless] r.blankScreen = .error .endless ∧
        ¬ ∃ writes, r.Runs [endless] writes := by
  intro r wide endless
  have hnothing : ∀ {c : Command Extended} {failure : DrawFailure}, r.writes [c] = .error failure →
      ¬ ∃ writes, r.Runs [c] writes := by
    rintro c failure hfails ⟨writes, hruns⟩
    rw [r.runs_iff, hfails] at hruns
    contradiction
  have hwide : r.writes [wide] = .error .tooWide := by decide +kernel
  have hendless : r.writes [endless] = .error .endless := by decide +kernel
  refine ⟨⟨rfl, ?_, hnothing hwide⟩, rfl, ?_, hnothing hendless⟩
  · rw [draw, hwide]
    rfl
  · rw [draw, hendless]
    rfl

end Raster

end FrameAtlas.Terminal

import FrameAtlas.Json.Writer
import FrameAtlas.Proofs.Json.Numeral
import FrameAtlas.Proofs.Json.Order
import Mathlib.Tactic.SplitIfs

namespace FrameAtlas.Json

theorem hexValue?_hexDigit : ∀ n < 16, hexValue? (hexDigit n) = some n := by decide

/-- A control character is read from its code. -/
theorem readCode_control {c : Char} (hc : c.toNat < 0x20) (rest : List Char) :
    readCode ('0' :: '0' :: hexDigit (c.toNat / 16) :: hexDigit (c.toNat % 16) :: rest) = some (c, rest) := by
  have hhigh := hexValue?_hexDigit (c.toNat / 16) (by omega)
  have hlow := hexValue?_hexDigit (c.toNat % 16) (by omega)
  have hunit : readUnit ('0' :: '0' :: hexDigit (c.toNat / 16) :: hexDigit (c.toNat % 16) :: rest) =
      some (c.toNat, rest) := by
    have hvalue : ((0 * 16 + 0) * 16 + c.toNat / 16) * 16 + c.toNat % 16 = c.toNat := by omega
    have hzero : hexValue? '0' = some 0 := by decide
    simp only [readUnit, hzero, hhigh, hlow, Option.bind_eq_bind, Option.bind_some, hvalue]
  have hnotLow : ¬(0xDC00 ≤ c.toNat && c.toNat ≤ 0xDFFF) = true := by simp; omega
  have hnotHigh : ¬(0xD800 ≤ c.toNat && c.toNat ≤ 0xDBFF) = true := by simp; omega
  rw [readCode, hunit]
  simp only [Option.bind_eq_bind, Option.bind_some, if_neg hnotLow, if_neg hnotHigh, Char.ofNat_toNat]

theorem readText_plain {c : Char} (hquote : c ≠ '"') (hback : c ≠ '\\') (hcontrol : ¬c.toNat < 0x20)
    (fuel : Nat) (read rest : List Char) :
    readText (fuel + 1) read (c :: rest) = readText fuel (c :: read) rest := by
  have hplain : ¬(decide (c.toNat < 0x20) || c == '\\') = true := by simp [hcontrol, hback]
  conv_lhs => unfold readText
  split
  · contradiction
  · rename_i heq
    exact absurd (List.cons.inj heq).1 hquote
  · rename_i heq
    exact absurd (List.cons.inj heq).1 hback
  · rename_i heq
    exact absurd (List.cons.inj heq).1 hback
  · rename_i heq
    obtain ⟨rfl, rfl⟩ := List.cons.inj heq
    rw [if_neg hplain]

/-- A character is read in one step from what is written for it. -/
theorem readText_escapeChar (c : Char) (fuel : Nat) (read rest : List Char) :
    readText (fuel + 1) read (escapeChar c ++ rest) = readText fuel (c :: read) rest := by
  unfold escapeChar
  iterate 7
    split
    · subst_vars
      rfl
  split
  · rename_i hcontrol
    show (readCode ('0' :: '0' :: hexDigit (c.toNat / 16) :: hexDigit (c.toNat % 16) :: rest)).bind _ = _
    rw [readCode_control hcontrol rest]
    rfl
  · exact readText_plain ‹_› ‹_› ‹_› fuel read rest

/-- Escaped text is read back up to its closing quote. -/
theorem readText_escaped (cs : List Char) {fuel : Nat} (hfuel : cs.length < fuel) (read rest : List Char) :
    readText fuel read (cs.flatMap escapeChar ++ '"' :: rest) =
      some (String.ofList (read.reverse ++ cs), rest) := by
  induction cs generalizing fuel read with
  | nil =>
    obtain ⟨fuel, rfl⟩ := Nat.exists_eq_succ_of_ne_zero (Nat.ne_of_gt hfuel)
    rw [List.append_nil]
    rfl
  | cons c cs ih =>
    obtain ⟨fuel, rfl⟩ := Nat.exists_eq_succ_of_ne_zero (Nat.ne_of_gt (Nat.zero_lt_of_lt hfuel))
    rw [List.flatMap_cons, List.append_assoc, readText_escapeChar, ih (Nat.lt_of_succ_lt_succ hfuel),
      List.reverse_cons, List.append_assoc]
    rfl

theorem toList_quote (s : String) : (quote s).toList = '"' :: (s.toList.flatMap escapeChar ++ ['"']) := by
  rw [quote, String.toList_ofList]
  rfl

/-- Escaping never makes a text shorter, so the fuel for the written text is enough. -/
theorem length_le_flatMap_escapeChar (cs : List Char) : cs.length ≤ (cs.flatMap escapeChar).length := by
  induction cs with
  | nil => exact Nat.le_refl 0
  | cons c cs ih =>
    have hchar : 1 ≤ (escapeChar c).length := by
      unfold escapeChar
      split_ifs <;> simp
    rw [List.flatMap_cons, List.length_append, List.length_cons]
    omega

/-- A quoted text is read back with as many steps as it has characters, its closing quote included. -/
theorem readText_quote (s : String) {fuel : Nat} (hfuel : (quote s).toList.length ≤ fuel) (rest : List Char) :
    readText fuel [] ((quote s).toList.tail ++ rest) = some (s, rest) := by
  have hlength := length_le_flatMap_escapeChar s.toList
  rw [toList_quote] at hfuel ⊢
  rw [List.length_cons, List.length_append] at hfuel
  rw [List.tail_cons, List.append_assoc, List.singleton_append, readText_escaped s.toList (by omega),
    List.reverse_nil, List.nil_append, String.ofList_toList]

mutual

/-- Trees without doubles, whose whole numbers fit into 64 bits and whose lists and objects stand at most so deep
in one another. -/
def Legible : Nat → Json → Prop
  | _, .null => True
  | _, .boolean _ => True
  | _, .number (.integer n) => FitsWord n
  | _, .number (.float _) => False
  | _, .text _ => True
  | depth, .array items => 0 < depth ∧ LegibleItems (depth - 1) items
  | depth, .object members => 0 < depth ∧ LegibleMembers (depth - 1) members

def LegibleItems : Nat → List Json → Prop
  | _, [] => True
  | depth, j :: rest => Legible depth j ∧ LegibleItems depth rest

def LegibleMembers : Nat → List (String × Json) → Prop
  | _, [] => True
  | depth, (_, j) :: rest => Legible depth j ∧ LegibleMembers depth rest

end

def StartsNumber (c : Char) : Prop := c.isDigit = true ∨ c = '-'

theorem StartsNumber.ne {c d : Char} (h : StartsNumber c) (hdigit : d.isDigit = false) (hminus : d ≠ '-') :
    c ≠ d := by
  rintro rfl
  rcases h with h | h
  · rw [h] at hdigit
    contradiction
  · exact hminus h

theorem StartsNumber.isSpace {c : Char} (h : StartsNumber c) : isSpace c = false := by
  have hblank := h.ne (d := ' ') rfl (by decide)
  have hline := h.ne (d := '\n') rfl (by decide)
  have htab := h.ne (d := '\t') rfl (by decide)
  have hreturn := h.ne (d := '\r') rfl (by decide)
  simp [Json.isSpace, hblank, hline, htab, hreturn]

theorem render_integer (n : Int) :
    ∃ c tail, (Number.integer n).render.toList = c :: tail ∧ StartsNumber c := by
  rw [Number.render, Int.toString_eq_repr, Int.repr_eq_if]
  split
  · obtain ⟨c, tail, hdigits⟩ := List.exists_cons_of_ne_nil (decimalDigits_ne_nil n.toNat)
    refine ⟨c, tail, Nat.toList_repr.trans hdigits, .inl ?_⟩
    exact isDigit_of_mem_decimalDigits (hdigits ▸ List.mem_cons_self)
  · exact ⟨'-', _, String.toList_append, .inr rfl⟩

theorem skipSpace_cons {c : Char} (hc : isSpace c = false) (rest : List Char) :
    skipSpace (c :: rest) = c :: rest := by
  rw [skipSpace, List.dropWhile_cons, hc]
  rfl

/-- The text of a tree starts neither with a blank nor like the end of a list. -/
theorem render_starts {depth : Nat} {j : Json} (h : Legible depth j) :
    ∃ c tail, (render j).toList = c :: tail ∧ isSpace c = false ∧ c ≠ ']' := by
  cases j with
  | null => exact ⟨'n', _, rfl, rfl, by decide⟩
  | boolean b => cases b with
    | true => exact ⟨'t', _, rfl, rfl, by decide⟩
    | false => exact ⟨'f', _, rfl, rfl, by decide⟩
  | number n => cases n with
    | integer n =>
      obtain ⟨c, tail, htext, hc⟩ := render_integer n
      exact ⟨c, tail, htext, hc.isSpace, hc.ne rfl (by decide)⟩
    | float x => exact h.elim
  | text s => exact ⟨'"', _, toList_quote s, rfl, by decide⟩
  | array items => exact ⟨'[', _, by rw [render, String.toList_append, String.toList_append]; rfl, rfl, by decide⟩
  | object members =>
    exact ⟨'\x7b', _, by rw [render, String.toList_append, String.toList_append]; rfl, rfl, by decide⟩

theorem readValue_number {c : Char} (hc : StartsNumber c) (fuel depth : Nat) (tail : List Char) :
    readValue (fuel + 1) depth (c :: tail) =
      (readNumber (c :: tail)).map fun (n, rest) => (.number n, rest) := by
  conv_lhs => unfold readValue
  rw [skipSpace_cons hc.isSpace]
  split
  · rename_i heq
    exact absurd (List.cons.inj heq).1 (hc.ne rfl (by decide))
  · rename_i heq
    exact absurd (List.cons.inj heq).1 (hc.ne rfl (by decide))
  · rename_i heq
    exact absurd (List.cons.inj heq).1 (hc.ne rfl (by decide))
  · rename_i heq
    exact absurd (List.cons.inj heq).1 (hc.ne rfl (by decide))
  · rename_i heq
    exact absurd (List.cons.inj heq).1 (hc.ne rfl (by decide))
  · rename_i heq
    exact absurd (List.cons.inj heq).1 (hc.ne rfl (by decide))
  · rfl

theorem readValue_null (fuel depth : Nat) (rest : List Char) :
    readValue (fuel + 1) depth ((render .null).toList ++ rest) = some (.null, rest) := rfl

theorem readValue_true (fuel depth : Nat) (rest : List Char) :
    readValue (fuel + 1) depth ((render (.boolean true)).toList ++ rest) = some (.boolean true, rest) := rfl

theorem readValue_false (fuel depth : Nat) (rest : List Char) :
    readValue (fuel + 1) depth ((render (.boolean false)).toList ++ rest) = some (.boolean false, rest) := rfl

theorem readValue_text (s : String) {fuel : Nat} (hfuel : (quote s).toList.length ≤ fuel) (depth : Nat)
    (rest : List Char) :
    readValue (fuel + 1) depth ((render (.text s)).toList ++ rest) = some (.text s, rest) := by
  have hread := readText_quote s hfuel rest
  have hquote : (quote s).toList = '"' :: (quote s).toList.tail := by rw [toList_quote, List.tail_cons]
  rw [render, hquote, List.cons_append]
  show (readText fuel [] ((quote s).toList.tail ++ rest)).map _ = _
  rw [hread]
  rfl

theorem readValue_emptyArray (fuel depth : Nat) (rest : List Char) :
    readValue (fuel + 1) (depth + 1) ((render (.array [])).toList ++ rest) = some (.array [], rest) := rfl

theorem readValue_emptyObject (fuel depth : Nat) (rest : List Char) :
    readValue (fuel + 1) (depth + 1) ((render (.object [])).toList ++ rest) = some (.object [], rest) := rfl

theorem readValue_array {c : Char} (hspace : isSpace c = false) (hc : c ≠ ']') (fuel depth : Nat)
    (tail : List Char) :
    readValue (fuel + 1) (depth + 1) ('[' :: c :: tail) =
      (readItems fuel depth [] (c :: tail)).map fun (items, rest) => (.array items, rest) := by
  conv_lhs => unfold readValue
  simp only [skipSpace_cons hspace, skipSpace_cons (show isSpace '[' = false by decide)]
  split
  · rename_i heq
    exact absurd (List.cons.inj heq).1 hc
  · rfl

theorem readValue_object (fuel depth : Nat) (tail : List Char) :
    readValue (fuel + 1) (depth + 1) ('\x7b' :: '"' :: tail) =
      (readMembers fuel depth [] ('"' :: tail)).map fun (members, rest) => (.object members, rest) := rfl

theorem readItems_next {fuel depth : Nat} {s rest : List Char} {item : Json}
    (h : readValue fuel depth s = some (item, ',' :: rest)) (read : List Json) :
    readItems (fuel + 1) depth read s = readItems fuel depth (item :: read) rest := by
  show (readValue fuel depth s).bind _ = _
  rw [h]
  rfl

theorem readItems_last {fuel depth : Nat} {s rest : List Char} {item : Json}
    (h : readValue fuel depth s = some (item, ']' :: rest)) (read : List Json) :
    readItems (fuel + 1) depth read s = some ((item :: read).reverse, rest) := by
  show (readValue fuel depth s).bind _ = _
  rw [h]
  rfl

theorem readMembers_next {fuel depth : Nat} {name : String} {s valueText rest : List Char} {j : Json}
    (hname : readText fuel [] s = some (name, ':' :: valueText))
    (hvalue : readValue fuel depth valueText = some (j, ',' :: rest)) (read : List (String × Json)) :
    readMembers (fuel + 1) depth read ('"' :: s) = readMembers fuel depth (insertMember name j read) rest := by
  show (readText fuel [] s).bind _ = _
  rw [hname]
  show (readValue fuel depth valueText).bind _ = _
  rw [hvalue]
  rfl

theorem readMembers_last {fuel depth : Nat} {name : String} {s valueText rest : List Char} {j : Json}
    (hname : readText fuel [] s = some (name, ':' :: valueText))
    (hvalue : readValue fuel depth valueText = some (j, '\x7d' :: rest)) (read : List (String × Json)) :
    readMembers (fuel + 1) depth read ('"' :: s) = some (insertMember name j read, rest) := by
  show (readText fuel [] s).bind _ = _
  rw [hname]
  show (readValue fuel depth valueText).bind _ = _
  rw [hvalue]
  rfl

def joined (texts : List String) : List Char := (",".intercalate texts).toList

theorem joined_singleton (text : String) : joined [text] = text.toList := by
  rw [joined, String.intercalate_singleton]

theorem joined_cons_cons (text next : String) (rest : List String) :
    joined (text :: next :: rest) = text.toList ++ ',' :: joined (next :: rest) := by
  rw [joined, String.intercalate_cons_cons, String.toList_append, String.toList_append, List.append_assoc]
  rfl

theorem toList_render_array (items : List Json) :
    (render (.array items)).toList = '[' :: (joined (renderItems items) ++ [']']) := by
  rw [render, String.toList_append, String.toList_append, List.append_assoc]
  rfl

theorem toList_render_object (members : List (String × Json)) :
    (render (.object members)).toList = '\x7b' :: (joined (renderMembers members) ++ ['\x7d']) := by
  rw [render, String.toList_append, String.toList_append, List.append_assoc]
  rfl

def memberText (name : String) (j : Json) : String := quote name ++ ":" ++ render j

theorem toList_memberText (name : String) (j : Json) :
    (memberText name j).toList = '"' :: ((quote name).toList.tail ++ ':' :: (render j).toList) := by
  rw [memberText, String.toList_append, String.toList_append, List.append_assoc, toList_quote]
  rfl

theorem endsNumber_comma (rest : List Char) : EndsNumber (',' :: rest) := endsNumber_cons (by decide) rest

theorem endsNumber_bracket (rest : List Char) : EndsNumber (']' :: rest) := endsNumber_cons (by decide) rest

theorem endsNumber_brace (rest : List Char) : EndsNumber ('\x7d' :: rest) := endsNumber_cons (by decide) rest

theorem memberText_fuel {name : String} {j : Json} {fuel : Nat}
    (h : 2 * (memberText name j).toList.length < fuel + 1) :
    (quote name).toList.length ≤ fuel ∧ 2 * (render j).toList.length ≤ fuel := by
  rw [toList_memberText, List.length_cons, List.length_append, List.length_cons, List.length_tail] at h
  omega

/-- The text of a list starts with the text of its first item. -/
theorem joined_renderItems_cons (j : Json) (items : List Json) :
    ∃ tail, joined (renderItems (j :: items)) = (render j).toList ++ tail := by
  cases items with
  | nil => exact ⟨[], by rw [renderItems, renderItems, joined_singleton, List.append_nil]⟩
  | cons k items => exact ⟨_, joined_cons_cons (render j) (render k) (renderItems items)⟩

theorem joined_renderMembers_cons (m : String × Json) (members : List (String × Json)) :
    ∃ tail, joined (renderMembers (m :: members)) = (memberText m.1 m.2).toList ++ tail := by
  cases members with
  | nil => exact ⟨[], by rw [renderMembers, renderMembers, memberText, joined_singleton, List.append_nil]⟩
  | cons n members =>
    exact ⟨_, joined_cons_cons (memberText m.1 m.2) (memberText n.1 n.2) (renderMembers members)⟩

theorem exists_fuel {text : List Char} (hsome : text ≠ []) {fuel : Nat} (h : 2 * text.length ≤ fuel) :
    ∃ left, fuel = left + 1 := by
  have hlength : 0 < text.length := List.length_pos_of_ne_nil hsome
  exact Nat.exists_eq_succ_of_ne_zero (by omega)

mutual

/-- A legible tree is read from its text. Every step takes up one unit of fuel, and no more than two steps are
taken for each character: one for the item that it starts and one for the value in it. -/
theorem readValue_render : ∀ (j : Json) (depth fuel : Nat), Legible depth j →
    2 * (render j).toList.length ≤ fuel → ∀ rest, EndsNumber rest →
    readValue fuel depth ((render j).toList ++ rest) = some (sorted j, rest)
  | .null => by
    intro depth fuel _ hfuel rest _
    obtain ⟨fuel, rfl⟩ := exists_fuel (by decide) hfuel
    exact readValue_null fuel depth rest
  | .boolean true => by
    intro depth fuel _ hfuel rest _
    obtain ⟨fuel, rfl⟩ := exists_fuel (by decide) hfuel
    exact readValue_true fuel depth rest
  | .boolean false => by
    intro depth fuel _ hfuel rest _
    obtain ⟨fuel, rfl⟩ := exists_fuel (by decide) hfuel
    exact readValue_false fuel depth rest
  | .number (.integer n) => by
    intro depth fuel h hfuel rest hrest
    obtain ⟨c, tail, htext, hc⟩ := render_integer n
    have hread := readNumber_render h hrest
    rw [render, htext] at hfuel
    obtain ⟨fuel, rfl⟩ := exists_fuel (List.cons_ne_nil c tail) hfuel
    rw [htext, List.cons_append] at hread
    rw [render, htext, List.cons_append, readValue_number hc, hread]
    rfl
  | .number (.float x) => fun _ _ h => h.elim
  | .text s => by
    intro depth fuel _ hfuel rest _
    rw [render] at hfuel
    obtain ⟨fuel, rfl⟩ := exists_fuel (by rw [toList_quote]; exact List.cons_ne_nil _ _) hfuel
    exact readValue_text s (by omega) depth rest
  | .array [] => by
    intro depth fuel h hfuel rest _
    obtain ⟨inner, rfl⟩ := Nat.exists_eq_succ_of_ne_zero (Nat.ne_of_gt h.1)
    obtain ⟨fuel, rfl⟩ := exists_fuel (by decide) hfuel
    exact readValue_emptyArray fuel inner rest
  | .array (j :: items) => by
    intro depth fuel h hfuel rest _
    obtain ⟨inner, rfl⟩ := Nat.exists_eq_succ_of_ne_zero (Nat.ne_of_gt h.1)
    obtain ⟨hj, hitems⟩ := h.2
    rw [toList_render_array] at hfuel ⊢
    obtain ⟨fuel, rfl⟩ := exists_fuel (List.cons_ne_nil _ _) hfuel
    have hread := readItems_render (j :: items) inner fuel (List.cons_ne_nil j items) ⟨hj, hitems⟩
      (by simp at hfuel; omega) [] rest
    obtain ⟨c, start, hstart, hspace, hc⟩ := render_starts hj
    obtain ⟨tail, htail⟩ := joined_renderItems_cons j items
    rw [List.cons_append, List.append_assoc, List.singleton_append]
    rw [htail, hstart, List.cons_append, List.cons_append] at hread ⊢
    rw [readValue_array hspace hc, hread]
    rfl
  | .object [] => by
    intro depth fuel h hfuel rest _
    obtain ⟨inner, rfl⟩ := Nat.exists_eq_succ_of_ne_zero (Nat.ne_of_gt h.1)
    obtain ⟨fuel, rfl⟩ := exists_fuel (by decide) hfuel
    exact readValue_emptyObject fuel inner rest
  | .object (m :: members) => by
    intro depth fuel h hfuel rest _
    obtain ⟨inner, rfl⟩ := Nat.exists_eq_succ_of_ne_zero (Nat.ne_of_gt h.1)
    rw [toList_render_object] at hfuel ⊢
    obtain ⟨fuel, rfl⟩ := exists_fuel (List.cons_ne_nil _ _) hfuel
    have hread := readMembers_render (m :: members) inner fuel (List.cons_ne_nil m members) h.2
      (by simp at hfuel; omega) [] rest
    obtain ⟨tail, htail⟩ := joined_renderMembers_cons m members
    rw [List.cons_append, List.append_assoc, List.singleton_append]
    rw [htail, toList_memberText, List.cons_append, List.cons_append] at hread ⊢
    rw [readValue_object, hread]
    rfl

/-- The items of a written list are read back in order, each as a reader keeps it. -/
theorem readItems_render : ∀ (items : List Json) (depth fuel : Nat), items ≠ [] → LegibleItems depth items →
    2 * (joined (renderItems items)).length < fuel → ∀ read rest,
    readItems fuel depth read (joined (renderItems items) ++ ']' :: rest) =
      some (read.reverse ++ sortedItems items, rest)
  | [] => fun _ _ hsome => absurd rfl hsome
  | [j] => by
    intro depth fuel _ h hfuel read rest
    obtain ⟨fuel, rfl⟩ := Nat.exists_eq_succ_of_ne_zero (Nat.ne_of_gt (Nat.zero_lt_of_lt hfuel))
    rw [renderItems, renderItems, joined_singleton] at hfuel ⊢
    have hvalue := readValue_render j depth fuel h.1 (by omega) (']' :: rest) (endsNumber_bracket rest)
    rw [readItems_last hvalue, List.reverse_cons]
    rfl
  | j :: k :: items => by
    intro depth fuel _ h hfuel read rest
    obtain ⟨fuel, rfl⟩ := Nat.exists_eq_succ_of_ne_zero (Nat.ne_of_gt (Nat.zero_lt_of_lt hfuel))
    have hjoined : joined (renderItems (j :: k :: items)) =
        (render j).toList ++ ',' :: joined (renderItems (k :: items)) :=
      joined_cons_cons (render j) (render k) (renderItems items)
    rw [hjoined] at hfuel ⊢
    rw [List.length_append, List.length_cons] at hfuel
    have hrest := readItems_render (k :: items) depth fuel (List.cons_ne_nil k items) h.2 (by omega)
      (sorted j :: read) rest
    rw [List.append_assoc, List.cons_append]
    generalize joined (renderItems (k :: items)) ++ ']' :: rest = others at hrest ⊢
    have hvalue := readValue_render j depth fuel h.1 (by omega) (',' :: others) (endsNumber_comma others)
    rw [readItems_next hvalue, hrest, List.reverse_cons, List.append_assoc]
    rfl

/-- The members of a written object are read back one by one into those read before. -/
theorem readMembers_render : ∀ (members : List (String × Json)) (depth fuel : Nat), members ≠ [] →
    LegibleMembers depth members → 2 * (joined (renderMembers members)).length < fuel → ∀ read rest,
    readMembers fuel depth read (joined (renderMembers members) ++ '\x7d' :: rest) =
      some ((sortedMembers members).foldl (fun kept m => insertMember m.1 m.2 kept) read, rest)
  | [] => fun _ _ hsome => absurd rfl hsome
  | [(name, j)] => by
    intro depth fuel _ h hfuel read rest
    obtain ⟨fuel, rfl⟩ := Nat.exists_eq_succ_of_ne_zero (Nat.ne_of_gt (Nat.zero_lt_of_lt hfuel))
    rw [renderMembers, renderMembers, joined_singleton, ← memberText] at hfuel ⊢
    obtain ⟨hquote, hrender⟩ := memberText_fuel hfuel
    have hvalue := readValue_render j depth fuel h.1 hrender ('\x7d' :: rest) (endsNumber_brace rest)
    have hname := readText_quote name hquote (':' :: ((render j).toList ++ '\x7d' :: rest))
    rw [toList_memberText, List.cons_append, List.append_assoc, List.cons_append, readMembers_last hname hvalue]
    rfl
  | (name, j) :: m :: members => by
    intro depth fuel _ h hfuel read rest
    obtain ⟨fuel, rfl⟩ := Nat.exists_eq_succ_of_ne_zero (Nat.ne_of_gt (Nat.zero_lt_of_lt hfuel))
    have hjoined : joined (renderMembers ((name, j) :: m :: members)) =
        (memberText name j).toList ++ ',' :: joined (renderMembers (m :: members)) :=
      joined_cons_cons (memberText name j) (memberText m.1 m.2) (renderMembers members)
    rw [hjoined] at hfuel ⊢
    rw [List.length_append, List.length_cons] at hfuel
    obtain ⟨hquote, hrender⟩ := memberText_fuel (show 2 * (memberText name j).toList.length < fuel + 1 by omega)
    have hrest := readMembers_render (m :: members) depth fuel (List.cons_ne_nil m members) h.2 (by omega)
      (insertMember name (sorted j) read) rest
    rw [List.append_assoc, List.cons_append]
    generalize joined (renderMembers (m :: members)) ++ '\x7d' :: rest = others at hrest ⊢
    have hvalue := readValue_render j depth fuel h.1 hrender (',' :: others) (endsNumber_comma others)
    have hname := readText_quote name hquote (':' :: ((render j).toList ++ ',' :: others))
    rw [toList_memberText, List.cons_append, List.append_assoc, List.cons_append,
      readMembers_next hname hvalue, hrest]
    rfl

end

/-- A legible tree is read from its own text, with the members of its objects sorted. -/
theorem ofChars?_render {j : Json} (h : Legible maxDepth j) : ofChars? (render j).toList = some (sorted j) := by
  have hread := readValue_render j maxDepth (2 * (render j).toList.length + 2) h (by omega) [] endsNumber_nil
  rw [List.append_nil] at hread
  rw [ofChars?, hread]
  rfl

theorem fromUTF8?_toUTF8 (s : String) : String.fromUTF8? s.toUTF8 = some s := by
  unfold String.fromUTF8?
  rw [String.toUTF8_eq_toByteArray, dif_pos s.isValidUTF8]
  rfl

/-- A legible tree is read from the bytes of its text. -/
theorem ofBytes?_render {j : Json} (h : Legible maxDepth j) : ofBytes? (render j).toUTF8 = some (sorted j) := by
  rw [ofBytes?, fromUTF8?_toUTF8]
  exact ofChars?_render h

/-- Legible trees without two members of one name in an object: what is read differs in the order of the members
alone. -/
structure Kept (depth : Nat) (j : Json) : Prop where
  legible : Legible depth j
  names : NamesDistinct j

/-- A written tree is read from its bytes with nothing changed but the order of members. -/
theorem Kept.ofBytes? {j : Json} (h : Kept maxDepth j) :
    ∃ k, Json.ofBytes? (render j).toUTF8 = some k ∧ Reordered j k :=
  ⟨sorted j, ofBytes?_render h.legible, reordered_sorted h.names⟩

theorem kept_boolean (depth : Nat) (b : Bool) : Kept depth (.boolean b) := ⟨trivial, trivial⟩

theorem kept_text (depth : Nat) (s : String) : Kept depth (.text s) := ⟨trivial, trivial⟩

theorem kept_integer (depth : Nat) {n : Int} (h : FitsWord n) : Kept depth (.number (.integer n)) := ⟨h, trivial⟩

theorem kept_array {depth : Nat} {items : List Json} (h : ∀ j ∈ items, Kept depth j) :
    Kept (depth + 1) (.array items) := by
  have hitems : LegibleItems depth items ∧ NamesDistinctItems items := by
    induction items with
    | nil => exact ⟨trivial, trivial⟩
    | cons j rest ih =>
      have hj := h j List.mem_cons_self
      have hrest := ih fun k hk => h k (List.mem_cons_of_mem j hk)
      exact ⟨⟨hj.legible, hrest.1⟩, hj.names, hrest.2⟩
  exact ⟨⟨Nat.succ_pos depth, hitems.1⟩, hitems.2⟩

theorem kept_object {depth : Nat} {members : List (String × Json)} (hnames : (members.map Prod.fst).Nodup)
    (h : ∀ m ∈ members, Kept depth m.2) : Kept (depth + 1) (.object members) := by
  have hmembers : LegibleMembers depth members ∧ NamesDistinctMembers members := by
    clear hnames
    induction members with
    | nil => exact ⟨trivial, trivial⟩
    | cons m rest ih =>
      have hm := h m List.mem_cons_self
      have hrest := ih fun n hn => h n (List.mem_cons_of_mem m hn)
      exact ⟨⟨hm.legible, hrest.1⟩, hm.names, hrest.2⟩
  exact ⟨⟨Nat.succ_pos depth, hmembers.1⟩, hnames, hmembers.2⟩

end FrameAtlas.Json

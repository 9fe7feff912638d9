import FrameAtlas.Text.Blank
import Mathlib.Data.List.DropRight

namespace FrameAtlas.Text

section Pieces

variable {isSeparator : Char → Bool} {word rest : List Char} {c : Char}

theorem pieces_of_word (hword : ∀ d ∈ word, isSeparator d = false) : pieces isSeparator word = [word] := by
  induction word with
  | nil => rfl
  | cons d tail ih =>
    have hd : isSeparator d = false := hword d List.mem_cons_self
    rw [pieces, hd, ih fun e he => hword e (List.mem_cons_of_mem d he)]
    rfl

/-- The first piece of a text ends at its first separator. -/
theorem pieces_append_cons (hword : ∀ d ∈ word, isSeparator d = false) (hc : isSeparator c = true) :
    pieces isSeparator (word ++ c :: rest) = word :: pieces isSeparator rest := by
  induction word with
  | nil => rw [List.nil_append, pieces, if_pos hc]
  | cons d tail ih =>
    have hd : isSeparator d = false := hword d List.mem_cons_self
    rw [List.cons_append, pieces, hd, ih fun e he => hword e (List.mem_cons_of_mem d he)]
    rfl

end Pieces

/-- The characters of ASCII that show something are not blank. -/
theorem isBlank_of_visible {c : Char} (hfirst : 33 ≤ c.toNat) (hlast : c.toNat ≤ 126) : isBlank c = false := by
  simp [isBlank, inRanges, blankRanges]
  omega

theorem isBlank_of_isDigit {c : Char} (hc : c.isDigit = true) : isBlank c = false := by
  have hrange : 48 ≤ c.toNat ∧ c.toNat ≤ 57 := by
    simpa [Char.isDigit, UInt32.le_iff_toNat_le] using hc
  exact isBlank_of_visible (by omega) (by omega)

/-- What is left of a text without the blanks at its ends. -/
structure IsCore (core s : List Char) : Prop where
  between : ∃ before behind, s = before ++ core ++ behind ∧
    (∀ c ∈ before, isBlank c = true) ∧ ∀ c ∈ behind, isBlank c = true
  first : ∀ h : core ≠ [], isBlank (core.head h) = false
  last : ∀ h : core ≠ [], isBlank (core.getLast h) = false

theorem trim_eq_rdropWhile (s : List Char) : trim s = (s.dropWhile isBlank).rdropWhile isBlank := rfl

/-- Trimming leaves the core of a text. -/
theorem isCore_trim (s : List Char) : IsCore (trim s) s where
  between := by
    refine ⟨s.takeWhile isBlank, (s.dropWhile isBlank).rtakeWhile isBlank, ?_,
      fun c hc => List.mem_takeWhile_imp hc, fun c hc => List.mem_rtakeWhile_imp hc⟩
    rw [trim_eq_rdropWhile, List.append_assoc, List.rdropWhile_append_rtakeWhile, List.takeWhile_append_dropWhile]
  first h := by
    have hstart : trim s <+: s.dropWhile isBlank := List.rdropWhile_prefix isBlank _
    rw [hstart.head h]
    exact List.head_dropWhile_not isBlank (hstart.ne_nil h)
  last h := by
    exact Bool.eq_false_iff.2 (List.rdropWhile_last_not isBlank _ h)

/-- Blanks around a text do not change what is left of it. -/
theorem trim_append {before behind : List Char} (hbefore : ∀ c ∈ before, isBlank c = true)
    (hbehind : ∀ c ∈ behind, isBlank c = true) (s : List Char) : trim (before ++ s ++ behind) = trim s := by
  have hfirst : (before ++ s ++ behind).dropWhile isBlank = (s ++ behind).dropWhile isBlank := by
    rw [List.append_assoc, List.dropWhile_append_of_pos hbefore]
  have hreverse : ∀ c ∈ behind.reverse, isBlank c = true := fun c hc => hbehind c (List.mem_reverse.1 hc)
  rw [trim, trim, hfirst, List.dropWhile_append]
  split
  · rename_i hempty
    rw [List.isEmpty_iff.1 hempty, List.dropWhile_eq_nil_iff.2 hbehind]
  · rw [List.reverse_append, List.dropWhile_append_of_pos hreverse]

theorem toNat_toUpper (c : Char) :
    c.toUpper.toNat = if 97 ≤ c.toNat ∧ c.toNat ≤ 122 then c.toNat - 32 else c.toNat := by
  have hrange : 'a'.val ≤ c.val ∧ c.val ≤ 'z'.val ↔ 97 ≤ c.toNat ∧ c.toNat ≤ 122 := by
    rw [UInt32.le_iff_toNat_le, UInt32.le_iff_toNat_le]
    rfl
  -- The distance down to the capital is a word, and adding it wraps around.
  have hdistance : ('A'.val - 'a'.val).toNat = 2 ^ 32 - 32 := by decide
  by_cases h : 97 ≤ c.toNat ∧ c.toNat ≤ 122
  · have hword : c.toUpper.val = c.val + ('A'.val - 'a'.val) := by
      delta Char.toUpper
      rw [dif_pos (hrange.2 h)]
    calc c.toUpper.toNat = (c.val + ('A'.val - 'a'.val)).toNat := congrArg UInt32.toNat hword
      _ = (c.toNat + (2 ^ 32 - 32)) % 2 ^ 32 := by rw [UInt32.toNat_add, hdistance]; rfl
      _ = c.toNat - 32 := by omega
      _ = _ := (if_pos h).symm
  · have hsame : c.toUpper = c := dif_neg (mt hrange.1 h)
    rw [hsame, if_neg h]

theorem toNat_toLower (c : Char) :
    c.toLower.toNat = if 65 ≤ c.toNat ∧ c.toNat ≤ 90 then c.toNat + 32 else c.toNat := by
  have hrange : c.val ≥ 'A'.val ∧ c.val ≤ 'Z'.val ↔ 65 ≤ c.toNat ∧ c.toNat ≤ 90 := by
    rw [ge_iff_le, UInt32.le_iff_toNat_le, UInt32.le_iff_toNat_le]
    rfl
  have hdistance : ('a'.val - 'A'.val).toNat = 32 := by decide
  by_cases h : 65 ≤ c.toNat ∧ c.toNat ≤ 90
  · have hword : c.toLower.val = c.val + ('a'.val - 'A'.val) := by
      delta Char.toLower
      rw [dif_pos (hrange.2 h)]
    calc c.toLower.toNat = (c.val + ('a'.val - 'A'.val)).toNat := congrArg UInt32.toNat hword
      _ = (c.toNat + 32) % 2 ^ 32 := by rw [UInt32.toNat_add, hdistance]; rfl
      _ = c.toNat + 32 := by omega
      _ = _ := (if_pos h).symm
  · have hsame : c.toLower = c := dif_neg (mt hrange.1 h)
    rw [hsame, if_neg h]

theorem isBlank_toUpper (c : Char) : isBlank c.toUpper = isBlank c := by
  have hupper := toNat_toUpper c
  split at hupper
  · rw [isBlank_of_visible (by omega) (by omega), isBlank_of_visible (by omega) (by omega)]
  · rw [Char.toNat_inj.1 hupper]

theorem toUpper_toLower (c : Char) : c.toLower.toUpper = c.toUpper := by
  rw [← Char.toNat_inj, toNat_toUpper, toNat_toUpper, toNat_toLower]
  split_ifs <;> omega

theorem asciiUpper_map_toLower (s : List Char) : asciiUpper (s.map Char.toLower) = asciiUpper s := by
  rw [asciiUpper, asciiUpper, List.map_map]
  exact List.map_congr_left fun c _ => toUpper_toLower c

/-- It does not matter whether a text is trimmed or put in upper case first. -/
theorem asciiUpper_trim (s : List Char) : asciiUpper (trim s) = trim (asciiUpper s) := by
  have hclass : isBlank ∘ Char.toUpper = isBlank := funext isBlank_toUpper
  rw [asciiUpper, asciiUpper, trim, trim, List.dropWhile_map, hclass, ← List.map_reverse, List.dropWhile_map, hclass,
    List.map_reverse]

end FrameAtlas.Text

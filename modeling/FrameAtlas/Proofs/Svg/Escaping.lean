import FrameAtlas.Proofs.Svg.Scan

/-!
Escaped strings. The five replacements, each of a whole string, come to one entity for each character that markup is
made of, and one pass over the entities gives the string back. Escaped strings are told by their form alone, and
each of them is written for one string only.
-/

namespace FrameAtlas.Markup

def entities : List (Char × List Char) :=
  [('&', ampText), ('<', ltText), ('>', gtText), ('"', quotText), ('\'', aposText)]

def escapeChar : Char → List Char
  | '&' => ampText
  | '<' => ltText
  | '>' => gtText
  | '"' => quotText
  | '\'' => aposText
  | c => [c]

/-- Reads entities from left to right, in one pass: what has been read is not looked at again. An ampersand that
begins no entity stands for itself, as every other character does. -/
def unescape : List Char → List Char
  | '&' :: 'a' :: 'm' :: 'p' :: ';' :: rest => '&' :: unescape rest
  | '&' :: 'l' :: 't' :: ';' :: rest => '<' :: unescape rest
  | '&' :: 'g' :: 't' :: ';' :: rest => '>' :: unescape rest
  | '&' :: 'q' :: 'u' :: 'o' :: 't' :: ';' :: rest => '"' :: unescape rest
  | '&' :: 'a' :: 'p' :: 'o' :: 's' :: ';' :: rest => '\'' :: unescape rest
  | c :: rest => c :: unescape rest
  | [] => []

def unescaped (s : String) : String := String.ofList (unescape s.toList)

structure IsEscaped (text : List Char) : Prop where
  unreserved : ∀ c ∈ text, isReserved c = false
  /-- No ampersand stands for itself. -/
  ampersands : ∀ rest, '&' :: rest <:+ text → ∃ e ∈ entities, e.2 <+: '&' :: rest

theorem escapeChar_of_unreserved {c : Char} (hc : isReserved c = false) (hamp : c ≠ '&') : escapeChar c = [c] := by
  unfold escapeChar
  split
  case h_1 => exact absurd rfl hamp
  case h_6 => rfl
  all_goals contradiction

/-- A character is an entity's, or is written as itself. -/
theorem escapeChar_cases (c : Char) :
    (c, escapeChar c) ∈ entities ∨ escapeChar c = [c] ∧ isReserved c = false ∧ c ≠ '&' := by
  by_cases hamp : c = '&'
  · left
    rw [hamp]
    decide
  cases hc : isReserved c with
  | false => exact .inr ⟨escapeChar_of_unreserved hc hamp, rfl, hamp⟩
  | true =>
    left
    simp only [isReserved, Bool.or_eq_true, beq_iff_eq] at hc
    rcases hc with ((rfl | rfl) | rfl) | rfl <;> decide

theorem replaceChar_flatMap (c : Char) (text s : List Char) (f : Char → List Char) :
    replaceChar c text (s.flatMap f) = s.flatMap fun d => replaceChar c text (f d) := List.flatMap_assoc

/-- No replacement changes what an earlier one has written: ampersands are replaced while there are no entities
yet, and entities hold none of the other characters. -/
theorem escape_singleton (c : Char) : escape [c] = escapeChar c := by
  rcases escapeChar_cases c with hentity | ⟨hself, hc, hamp⟩
  · simp only [entities, List.mem_cons, Prod.mk.injEq, List.not_mem_nil, or_false] at hentity
    rcases hentity with ⟨rfl, -⟩ | ⟨rfl, -⟩ | ⟨rfl, -⟩ | ⟨rfl, -⟩ | ⟨rfl, -⟩ <;> rfl
  · simp only [isReserved, Bool.or_eq_false_iff, beq_eq_false_iff_ne] at hc
    obtain ⟨⟨⟨hlt, hgt⟩, hquot⟩, hapos⟩ := hc
    have hnot : ∀ {d : Char}, c ≠ d → d ∉ [c] := fun h hmem => h (List.mem_singleton.1 hmem).symm
    rw [hself, escape, replaceChar_of_not_mem (hnot hamp), replaceChar_of_not_mem (hnot hlt),
      replaceChar_of_not_mem (hnot hgt), replaceChar_of_not_mem (hnot hquot), replaceChar_of_not_mem (hnot hapos)]

/-- Each replacement works on every character by itself, so all five may be made at one character before the
next. -/
theorem escape_eq_flatMap (s : List Char) : escape s = s.flatMap escapeChar := by
  calc escape s = escape (s.flatMap fun c => [c]) := by rw [List.flatMap_singleton']
    _ = s.flatMap fun c => escape [c] := by simp only [escape, replaceChar_flatMap]
    _ = s.flatMap escapeChar := by simp only [escape_singleton]

theorem escape_cons (c : Char) (s : List Char) : escape (c :: s) = escapeChar c ++ escape s := by
  rw [escape_eq_flatMap, escape_eq_flatMap, List.flatMap_cons]

theorem unescape_entity {e : Char × List Char} (he : e ∈ entities) (rest : List Char) :
    unescape (e.2 ++ rest) = e.1 :: unescape rest := by
  simp only [entities, List.mem_cons, List.not_mem_nil, or_false] at he
  rcases he with rfl | rfl | rfl | rfl | rfl <;> rfl

theorem unescape_cons {c : Char} (hc : c ≠ '&') (rest : List Char) :
    unescape (c :: rest) = c :: unescape rest := by
  rw [unescape]
  all_goals
    intro tail h
    exact absurd h hc

theorem unescape_escapeChar (c : Char) (rest : List Char) :
    unescape (escapeChar c ++ rest) = c :: unescape rest := by
  rcases escapeChar_cases c with hentity | ⟨hself, -, hc⟩
  · exact unescape_entity hentity rest
  · rw [hself]
    exact unescape_cons hc rest

/-- An escaped string is read back whatever follows it: nothing that follows makes an entity of its end. -/
theorem unescape_escape_append (s rest : List Char) : unescape (escape s ++ rest) = s ++ unescape rest := by
  induction s with
  | nil => rfl
  | cons c s ih => rw [escape_cons, List.append_assoc, unescape_escapeChar, ih, List.cons_append]

/-- Escaped text stands for the text that was escaped. -/
theorem unescape_escape (s : List Char) : unescape (escape s) = s := by
  have hread := unescape_escape_append s []
  rwa [List.append_nil, unescape, List.append_nil] at hread

theorem unescaped_escaped (s : String) : unescaped (escaped s) = s := by
  rw [unescaped, escaped, String.toList_ofList, unescape_escape, String.ofList_toList]

theorem cons_suffix_of_append {c : Char} {run rest tail : List Char} (hc : c ∉ run)
    (h : c :: rest <:+ run ++ tail) : c :: rest <:+ tail := by
  induction run with
  | nil => exact h
  | cons d run ih =>
    rw [List.mem_cons, not_or] at hc
    rcases List.suffix_cons_iff.1 h with heq | hlater
    · exact absurd (List.cons.inj heq).1 hc.1
    · exact ih hc.2 hlater

/-- An entity holds no ampersand but the one it begins with. -/
theorem exists_cons_of_mem_entities {c : Char} {text : List Char} (h : (c, text) ∈ entities) :
    ∃ run, text = '&' :: run ∧ '&' ∉ run := by
  simp only [entities, List.mem_cons, Prod.mk.injEq, List.not_mem_nil, or_false] at h
  rcases h with ⟨-, rfl⟩ | ⟨-, rfl⟩ | ⟨-, rfl⟩ | ⟨-, rfl⟩ | ⟨-, rfl⟩ <;> exact ⟨_, rfl, by decide⟩

theorem isEscaped_nil : IsEscaped [] where
  unreserved _ hc := absurd hc List.not_mem_nil
  ampersands rest h := by
    rw [List.suffix_nil] at h
    contradiction

theorem IsEscaped.of_suffix {text tail : List Char} (h : IsEscaped text) (htail : tail <:+ text) :
    IsEscaped tail where
  unreserved c hc := h.unreserved c (htail.subset hc)
  ampersands rest hrest := h.ampersands rest (hrest.trans htail)

/-- Escaping leads to text of the escaped form. -/
theorem isEscaped_escape (s : List Char) : IsEscaped (escape s) := by
  refine ⟨fun c hc => not_reserved_of_mem_escape hc, ?_⟩
  induction s with
  | nil => exact isEscaped_nil.ampersands
  | cons c s ih =>
    intro rest h
    rw [escape_cons] at h
    rcases escapeChar_cases c with hentity | ⟨hself, -, hc⟩
    · obtain ⟨run, hrun, hamp⟩ := exists_cons_of_mem_entities hentity
      rw [hrun, List.cons_append] at h
      rcases List.suffix_cons_iff.1 h with heq | hlater
      · refine ⟨_, hentity, ?_⟩
        rw [heq, hrun]
        exact List.prefix_append ('&' :: run) (escape s)
      · exact ih rest (cons_suffix_of_append hamp hlater)
    · rw [hself] at h
      have hnot : '&' ∉ [c] := by
        rw [List.mem_singleton]
        exact Ne.symm hc
      exact ih rest (cons_suffix_of_append hnot h)

/-- Whatever has the form is written for the string that it is read as. -/
theorem IsEscaped.escape_unescape {text : List Char} (h : IsEscaped text) : escape (unescape text) = text := by
  fun_induction unescape text with
  | case1 rest ih =>
    rw [escape_cons, ih (h.of_suffix ⟨ampText, rfl⟩)]
    rfl
  | case2 rest ih =>
    rw [escape_cons, ih (h.of_suffix ⟨ltText, rfl⟩)]
    rfl
  | case3 rest ih =>
    rw [escape_cons, ih (h.of_suffix ⟨gtText, rfl⟩)]
    rfl
  | case4 rest ih =>
    rw [escape_cons, ih (h.of_suffix ⟨quotText, rfl⟩)]
    rfl
  | case5 rest ih =>
    rw [escape_cons, ih (h.of_suffix ⟨aposText, rfl⟩)]
    rfl
  | case6 c rest hamp hlt hgt hquot hapos ih =>
    -- No entity begins here, so the form leaves no ampersand.
    have hne : c ≠ '&' := by
      rintro rfl
      obtain ⟨e, he, tail, htail⟩ := h.ampersands rest List.suffix_rfl
      simp only [entities, List.mem_cons, List.not_mem_nil, or_false] at he
      rcases he with rfl | rfl | rfl | rfl | rfl
      · exact hamp tail rfl (List.cons.inj htail).2.symm
      · exact hlt tail rfl (List.cons.inj htail).2.symm
      · exact hgt tail rfl (List.cons.inj htail).2.symm
      · exact hquot tail rfl (List.cons.inj htail).2.symm
      · exact hapos tail rfl (List.cons.inj htail).2.symm
    have hself := escapeChar_of_unreserved (h.unreserved c List.mem_cons_self) hne
    rw [escape_cons, ih (h.of_suffix (List.suffix_cons c rest)), hself, List.singleton_append]
  | case7 => rfl

/-- The strings that arise by escaping are those of the escaped form, and each arises from what it stands for. -/
theorem escaped_eq_iff (s t : String) : escaped s = t ↔ IsEscaped t.toList ∧ unescaped t = s := by
  constructor
  · rintro rfl
    refine ⟨?_, unescaped_escaped s⟩
    rw [escaped, String.toList_ofList]
    exact isEscaped_escape s.toList
  · rintro ⟨h, rfl⟩
    rw [escaped, unescaped, String.toList_ofList, h.escape_unescape, String.ofList_toList]

/-- Escaping loses nothing and leaves nothing out. The replacements write every character as its entity or as
itself; what they write holds no character that markup is made of, apart from the ampersands that begin entities,
and is read back in one pass. So a text of that form is written for one string, and no other text for any. -/
theorem escaped_injective_complete :
    (∀ s : String,
      (escaped s).toList = s.toList.flatMap escapeChar ∧
      (∀ c ∈ ['<', '>', '"', '\''], c ∉ (escaped s).toList) ∧
      (∀ rest, '&' :: rest <:+ (escaped s).toList → ∃ e ∈ entities, e.2 <+: '&' :: rest) ∧
      unescaped (escaped s) = s) ∧
    Function.Injective escaped ∧
    ∀ s t : String, escaped s = t ↔ IsEscaped t.toList ∧ unescaped t = s := by
  refine ⟨?_, Function.LeftInverse.injective unescaped_escaped, escaped_eq_iff⟩
  intro s
  have hform := ((escaped_eq_iff s (escaped s)).1 rfl).1
  refine ⟨?_, ?_, hform.ampersands, unescaped_escaped s⟩
  · rw [escaped, String.toList_ofList, escape_eq_flatMap]
  · intro c hc hmem
    have hreserved : ∀ d ∈ ['<', '>', '"', '\''], isReserved d = true := List.all_eq_true.1 (by decide)
    exact absurd (hreserved c hc) (Bool.eq_false_iff.1 (hform.unreserved c hmem))

/-- What looks like an entity before it is written is read as the text that it was. -/
theorem escaped_injective_complete_of_entity_texts :
    let s := "&lt;'&amp;lt;\" &amp"
    let t := "&amp;lt;&apos;&amp;amp;lt;&quot; &amp;amp"
    escaped s = t ∧ unescaped t = s ∧ '<' ∉ t.toList ∧ '&' :: "amp;amp".toList <:+ t.toList ∧
      ∃ e ∈ entities, e.2 <+: '&' :: "amp;amp".toList := by
  intro s t
  have hwritten : escaped s = t := by decide
  have hend : '&' :: "amp;amp".toList <:+ t.toList := by decide
  obtain ⟨-, hclean, hamp, hread⟩ := escaped_injective_complete.1 s
  rw [hwritten] at hclean hamp hread
  exact ⟨hwritten, hread, hclean '<' (by decide), hend, hamp _ hend⟩

end FrameAtlas.Markup

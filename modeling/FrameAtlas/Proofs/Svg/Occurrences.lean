import FrameAtlas.Proofs.Svg.Scan

namespace FrameAtlas

def countWord (word : List Char) : List Char → Nat
  | [] => 0
  | c :: rest => (if word.isPrefixOf (c :: rest) then 1 else 0) + countWord word rest

/-- How often a word stands in a text. None of the words that are counted here can overlap itself. -/
def occurrences (word text : String) : Nat := countWord word.toList text.toList

theorem countWord_skip {first : Char} {run : List Char} (h : first ∉ run) (word rest : List Char) :
    countWord (first :: word) (run ++ rest) = countWord (first :: word) rest := by
  induction run with
  | nil => rfl
  | cons c run ih =>
    rw [List.mem_cons, not_or] at h
    have hother : (first :: word).isPrefixOf (c :: (run ++ rest)) = false := by
      rw [List.isPrefixOf_cons_cons, beq_eq_false_iff_ne.2 h.1, Bool.false_and]
    rw [List.cons_append, countWord, hother, ih h.2]
    simp

theorem countWord_first (first : Char) (word rest : List Char) :
    countWord (first :: word) (first :: rest) =
      (if word.isPrefixOf rest then 1 else 0) + countWord (first :: word) rest := by
  rw [countWord, List.isPrefixOf_cons_cons_self]

/-- A run ends before a character that the word does not hold. -/
theorem isPrefixOf_append_cons {word : List Char} {c : Char} (hc : c ∉ word) (run rest : List Char) :
    word.isPrefixOf (run ++ c :: rest) = word.isPrefixOf run := by
  induction word generalizing run with
  | nil => rw [List.isPrefixOf_nil_left, List.isPrefixOf_nil_left]
  | cons d word ih =>
    rw [List.mem_cons, not_or] at hc
    cases run with
    | nil =>
      rw [List.nil_append, List.isPrefixOf_cons_cons, beq_eq_false_iff_ne.2 (Ne.symm hc.1), Bool.false_and]
      rfl
    | cons e run =>
      rw [List.cons_append, List.isPrefixOf_cons_cons, List.isPrefixOf_cons_cons, ih hc.2]

/-- A word with a quote in it starts a text if both agree up to the quote and behind it. -/
theorem quoted_prefix_iff {quote : Char} {before run : List Char} (hbefore : quote ∉ before) (hrun : quote ∉ run)
    (behind rest : List Char) :
    (before ++ quote :: behind) <+: (run ++ quote :: rest) ↔ before = run ∧ behind <+: rest := by
  induction before generalizing run with
  | nil =>
    cases run with
    | nil => simp [List.cons_prefix_cons]
    | cons e run =>
      rw [List.mem_cons, not_or] at hrun
      simp [List.cons_prefix_cons, hrun.1]
  | cons d before ih =>
    rw [List.mem_cons, not_or] at hbefore
    cases run with
    | nil => simp [List.cons_prefix_cons, Ne.symm hbefore.1]
    | cons e run =>
      rw [List.mem_cons, not_or] at hrun
      rw [List.cons_append, List.cons_append, List.cons_prefix_cons, ih hbefore.2 hrun.2, List.cons.injEq, and_assoc]

theorem countWord_of_not_mem {word : List Char} {c : Char} (hc : c ∈ word) {text : List Char} (htext : c ∉ text) :
    countWord word text = 0 := by
  induction text with
  | nil => rfl
  | cons d text ih =>
    have hnot : ¬word.isPrefixOf (d :: text) = true := by
      intro hprefix
      exact htext ((List.isPrefixOf_iff_prefix.1 hprefix).subset hc)
    rw [countWord, if_neg hnot, ih (List.not_mem_of_not_mem_cons htext)]

/-- The first quote of a text decides where the first word with that quote in it can be. -/
theorem countWord_quoted {quote : Char} {before run : List Char} (hbefore : quote ∉ before) (hrun : quote ∉ run)
    (behind rest : List Char) :
    countWord (before ++ quote :: behind) (run ++ quote :: rest) =
      (if before <:+ run ∧ behind <+: rest then 1 else 0) + countWord (before ++ quote :: behind) rest := by
  have hhere : ∀ run, quote ∉ run → ((before ++ quote :: behind).isPrefixOf (run ++ quote :: rest) = true ↔
      before = run ∧ behind <+: rest) := by
    intro run hrun
    rw [List.isPrefixOf_iff_prefix]
    exact quoted_prefix_iff hbefore hrun behind rest
  induction run with
  | nil =>
    have hstart := hhere [] hrun
    rw [List.nil_append] at hstart ⊢
    rw [countWord]
    simp only [hstart, List.suffix_nil]
  | cons c run ih =>
    have hstart := hhere (c :: run) hrun
    rw [List.cons_append] at hstart ⊢
    rw [countWord, ih (List.not_mem_of_not_mem_cons hrun), ← Nat.add_assoc]
    congr 1
    simp only [hstart, List.suffix_cons_iff]
    by_cases heq : before = c :: run
    · -- The word cannot start both here and later before the same quote.
      have hlater : ¬before <:+ run := by
        intro hsuffix
        have hlength := hsuffix.length_le
        rw [heq, List.length_cons] at hlength
        omega
      simp only [heq] at hlater ⊢
      simp [hlater]
    · simp [heq]

namespace Markup

def startsTag (word : List Char) : Markup → Bool
  | .opening name _ | .empty name _ => word.isPrefixOf name.toList
  | .closing _ | .text _ => false

theorem not_mem_of_isNameChar {c : Char} (hc : isNameChar c = false) {run : List Char}
    (hrun : ∀ d ∈ run, isNameChar d = true) : c ∉ run := by
  intro hmem
  rw [hrun c hmem] at hc
  contradiction

theorem not_mem_name {c : Char} (hc : isNameChar c = false) {name : String} (hname : isName name = true) :
    c ∉ name.toList := not_mem_of_isNameChar hc fun _ hd => isNameChar_of_mem hname hd

/-- No reserved character is left by escaping. -/
theorem not_mem_escape {c : Char} (hc : isReserved c = true) (s : List Char) : c ∉ escape s := by
  intro hmem
  rw [not_reserved_of_mem_escape hmem] at hc
  contradiction

theorem lt_not_mem_renderAttributes {attributes : List (String × String)}
    (hkeys : ∀ a ∈ attributes, isName a.1 = true) : '<' ∉ (renderAttributes attributes).toList := by
  induction attributes with
  | nil => exact List.not_mem_nil
  | cons a attributes ih =>
    have hkey : '<' ∉ a.1.toList := not_mem_name (by decide) (hkeys a List.mem_cons_self)
    have hvalue : '<' ∉ escape a.2.toList := not_mem_escape (by decide) _
    have hrest := ih fun b hb => hkeys b (List.mem_cons_of_mem a hb)
    rw [renderAttributes_cons, toList_renderAttribute]
    simp [hkey, hvalue, hrest]

variable {word : List Char}

/-- A tag that starts an element holds a word that starts like a tag at its own start alone. -/
theorem countWord_startTag (hword : ∀ c ∈ word, isNameChar c = true) {name : String} (hname : isName name = true)
    {attributes : List (String × String)} (hkeys : ∀ a ∈ attributes, isName a.1 = true) {c : Char}
    (hc : isNameChar c = false) {ending : List Char} (hending : '<' ∉ c :: ending) (rest : List Char) :
    countWord ('<' :: word)
        ('<' :: (name.toList ++ ((renderAttributes attributes).toList ++ (c :: ending))) ++ rest) =
      (if word.isPrefixOf name.toList then 1 else 0) + countWord ('<' :: word) rest := by
  have hskip : '<' ∉ name.toList ++ ((renderAttributes attributes).toList ++ (c :: ending)) := by
    have hfirst : '<' ∉ name.toList := not_mem_name (by decide) hname
    have hmiddle := lt_not_mem_renderAttributes hkeys
    simp only [List.mem_append, not_or]
    exact ⟨hfirst, hmiddle, hending⟩
  obtain ⟨d, tail, hafter, hd⟩ := exists_tagEnd attributes c (ending ++ rest)
  have hnot : d ∉ word := by
    refine not_mem_of_isNameChar ?_ hword
    rcases hd with rfl | rfl
    · decide
    · exact hc
  have hprefix : word.isPrefixOf
      ((name.toList ++ ((renderAttributes attributes).toList ++ (c :: ending))) ++ rest) =
        word.isPrefixOf name.toList := by
    rw [List.append_assoc, List.append_assoc, List.cons_append, hafter, isPrefixOf_append_cons hnot]
  rw [List.cons_append, countWord_first, hprefix, countWord_skip hskip]

/-- The start of an element counts once, where its name starts with the word. -/
theorem countWord_render (hsome : word ≠ []) (hword : ∀ c ∈ word, isNameChar c = true) {m : Markup}
    (hm : m.isNamed = true) (rest : List Char) :
    countWord ('<' :: word) ((render m).toList ++ rest) =
      (if m.startsTag word then 1 else 0) + countWord ('<' :: word) rest := by
  cases m with
  | opening name attributes =>
    obtain ⟨hname, hkeys⟩ := Bool.and_eq_true_iff.1 hm
    rw [toList_render_opening]
    exact countWord_startTag hword hname (List.all_eq_true.1 hkeys) (by decide) (by decide) rest
  | closing name =>
    have hslash : word.isPrefixOf ('/' :: (name.toList ++ ['>'] ++ rest)) = false := by
      obtain ⟨first, tail, rfl⟩ := List.exists_cons_of_ne_nil hsome
      have hne : first ≠ '/' := by
        rintro rfl
        exact absurd (hword '/' List.mem_cons_self) (by decide)
      rw [List.isPrefixOf_cons_cons, beq_eq_false_iff_ne.2 hne, Bool.false_and]
    have hskip : '<' ∉ '/' :: (name.toList ++ ['>']) := by
      have hname : '<' ∉ name.toList := not_mem_name (by decide) hm
      simp [hname]
    rw [toList_render_closing, List.cons_append, List.cons_append, countWord_first, hslash, ← List.cons_append,
      countWord_skip hskip]
    rfl
  | empty name attributes =>
    obtain ⟨hname, hkeys⟩ := Bool.and_eq_true_iff.1 hm
    rw [toList_render_empty]
    exact countWord_startTag hword hname (List.all_eq_true.1 hkeys) (by decide) (by decide) rest
  | text t =>
    rw [toList_render_text, countWord_skip (not_mem_escape (by decide) _)]
    exact (Nat.zero_add _).symm

/-- Tags of a name stand in a text as often as there are elements of that name. -/
theorem countWord_tag (hsome : word ≠ []) (hword : ∀ c ∈ word, isNameChar c = true) {pieces : List Markup}
    (h : ∀ m ∈ pieces, m.isNamed = true) :
    countWord ('<' :: word) (renderAll pieces).toList = pieces.countP (startsTag word) := by
  induction pieces with
  | nil => rfl
  | cons m rest ih =>
    have hrest := ih fun n hn => h n (List.mem_cons_of_mem m hn)
    rw [toList_renderAll_cons, countWord_render hsome hword (h m List.mem_cons_self), hrest, List.countP_cons,
      Nat.add_comm]

def attributes : Markup → List (String × String)
  | .opening _ attributes | .empty _ attributes => attributes
  | .closing _ | .text _ => []

def attributeWord (key value : List Char) : List Char := (key ++ ['=']) ++ '"' :: (value ++ ['"'])

def carries (key value : List Char) (a : String × String) : Bool :=
  key.isSuffixOf a.1.toList && escape a.2.toList == value

theorem quote_not_mem_key {key : List Char} (hkey : ∀ c ∈ key, isNameChar c = true) : '"' ∉ key ++ ['='] := by
  have hquote : '"' ∉ key := not_mem_of_isNameChar (by decide) hkey
  simp [hquote]

theorem key_suffix_iff {key : List Char} (hkey : ∀ c ∈ key, isNameChar c = true) (before name : List Char) :
    (key ++ ['=']) <:+ (before ++ ' ' :: (name ++ ['='])) ↔ key <:+ name := by
  have hblank : ' ' ∉ key := not_mem_of_isNameChar (by decide) hkey
  rw [← List.cons_append, ← List.append_assoc, List.suffix_append_self_iff]
  constructor
  · intro h
    rcases List.suffix_or_suffix_of_suffix h (List.suffix_append before (' ' :: name)) with hshort | hlong
    · rcases List.suffix_cons_iff.1 hshort with heq | hsuffix
      · exact absurd (heq ▸ List.mem_cons_self) hblank
      · exact hsuffix
    · exact absurd (hlong.subset List.mem_cons_self) hblank
  · intro h
    exact List.suffix_append_of_suffix (h.trans (List.suffix_cons ' ' name))

variable {key value : List Char}

/-- An attribute adds one where it carries the word, and nothing elsewhere: its own value holds no quote, and no
value follows the quote that ends it. -/
theorem countWord_attribute (hkey : ∀ c ∈ key, isNameChar c = true) (hvalue : ∀ c ∈ value, isNameChar c = true)
    (a : String × String) (ha : isName a.1 = true) {before : List Char} (hbefore : '"' ∉ before) {c : Char}
    (hc : isNameChar c = false) (hquote : c ≠ '"') (rest : List Char) :
    countWord (attributeWord key value) (before ++ ((renderAttribute a).toList ++ c :: rest)) =
      (if carries key value a then 1 else 0) + countWord (attributeWord key value) (c :: rest) := by
  have hname : '"' ∉ a.1.toList := not_mem_name (by decide) ha
  have hfree : '"' ∉ before ++ ' ' :: (a.1.toList ++ ['=']) := by simp [hbefore, hname]
  have hinner : '"' ∉ escape a.2.toList := not_mem_escape (by decide) _
  have hplain : '"' ∉ value := not_mem_of_isNameChar (by decide) hvalue
  have hend : ¬(value ++ ['"']) <+: (c :: rest) := by
    intro hprefix
    cases value with
    | nil => exact hquote (List.cons_prefix_cons.1 hprefix).1.symm
    | cons d value =>
      have hd : d = c := (List.cons_prefix_cons.1 hprefix).1
      rw [← hd, hvalue d List.mem_cons_self] at hc
      contradiction
  have htext : before ++ ((renderAttribute a).toList ++ c :: rest) =
      (before ++ ' ' :: (a.1.toList ++ ['='])) ++ '"' :: (escape a.2.toList ++ '"' :: c :: rest) := by
    rw [toList_renderAttribute]
    simp
  have hcarries : ((key ++ ['=']) <:+ (before ++ ' ' :: (a.1.toList ++ ['='])) ∧
      (value ++ ['"']) <+: (escape a.2.toList ++ '"' :: c :: rest)) ↔ carries key value a = true := by
    rw [key_suffix_iff hkey, quoted_prefix_iff hplain hinner, carries, Bool.and_eq_true, beq_iff_eq,
      List.isSuffixOf_iff_suffix]
    simp [eq_comm]
  rw [htext, attributeWord, countWord_quoted (quote_not_mem_key hkey) hfree,
    countWord_quoted (quote_not_mem_key hkey) hinner]
  simp only [hcarries, hend, and_false, if_false, Nat.zero_add]

/-- A word for an attribute and its value occurs once for each attribute that carries it. -/
theorem countWord_attributes (hkey : ∀ c ∈ key, isNameChar c = true) (hvalue : ∀ c ∈ value, isNameChar c = true)
    {attributes : List (String × String)} (h : ∀ a ∈ attributes, isName a.1 = true) {before : List Char}
    (hbefore : '"' ∉ before) {c : Char} (hc : isNameChar c = false) (hquote : c ≠ '"') (rest : List Char) :
    ∃ left, '"' ∉ left ∧
      countWord (attributeWord key value) (before ++ ((renderAttributes attributes).toList ++ c :: rest)) =
        attributes.countP (carries key value) + countWord (attributeWord key value) (left ++ c :: rest) := by
  induction attributes generalizing before with
  | nil => exact ⟨before, hbefore, (Nat.zero_add _).symm⟩
  | cons a attributes ih =>
    obtain ⟨left, hleft, hcount⟩ := ih (fun b hb => h b (List.mem_cons_of_mem a hb)) List.not_mem_nil
    obtain ⟨d, tail, htail, hd⟩ := exists_tagEnd attributes c rest
    have hnot : isNameChar d = false ∧ d ≠ '"' := by
      rcases hd with rfl | rfl
      · decide
      · exact ⟨hc, hquote⟩
    refine ⟨left, hleft, ?_⟩
    rw [List.nil_append, htail] at hcount
    rw [renderAttributes_cons, List.append_assoc, htail,
      countWord_attribute hkey hvalue a (h a List.mem_cons_self) hbefore hnot.1 hnot.2, hcount, List.countP_cons]
    omega

/-- Behind a tag only what ends it is left over, which holds no quote. -/
theorem countWord_tag_attributes (hkey : ∀ c ∈ key, isNameChar c = true)
    (hvalue : ∀ c ∈ value, isNameChar c = true) {name : String} (hname : isName name = true)
    {attributes : List (String × String)} (hkeys : ∀ a ∈ attributes, isName a.1 = true) {before : List Char}
    (hbefore : '"' ∉ before) {c : Char} (hc : isNameChar c = false) {ending : List Char}
    (hending : '"' ∉ c :: ending) (rest : List Char) :
    ∃ left, '"' ∉ left ∧
      countWord (attributeWord key value)
          (before ++ ('<' :: (name.toList ++ ((renderAttributes attributes).toList ++ (c :: ending))) ++ rest)) =
        attributes.countP (carries key value) + countWord (attributeWord key value) (left ++ rest) := by
  have hstart : '"' ∉ before ++ '<' :: name.toList := by
    have hfree : '"' ∉ name.toList := not_mem_name (by decide) hname
    simp [hbefore, hfree]
  obtain ⟨left, hleft, hcount⟩ := countWord_attributes hkey hvalue hkeys hstart hc
    (List.ne_of_not_mem_cons hending).symm (ending ++ rest)
  have htext : before ++ ('<' :: (name.toList ++ ((renderAttributes attributes).toList ++ (c :: ending))) ++ rest) =
      (before ++ '<' :: name.toList) ++ ((renderAttributes attributes).toList ++ c :: (ending ++ rest)) := by
    simp
  refine ⟨left ++ (c :: ending), ?_, ?_⟩
  · rw [List.mem_append, not_or]
    exact ⟨hleft, hending⟩
  · rw [htext, hcount, List.append_assoc, List.cons_append]

/-- Attributes of a name and value stand in a text as often as there are elements with them. What was read before
counts for nothing, so long as it holds no quote. -/
theorem countWord_attributes_renderAll (hkey : ∀ c ∈ key, isNameChar c = true)
    (hvalue : ∀ c ∈ value, isNameChar c = true) {pieces : List Markup} (h : ∀ m ∈ pieces, m.isNamed = true)
    {before : List Char} (hbefore : '"' ∉ before) :
    countWord (attributeWord key value) (before ++ (renderAll pieces).toList) =
      (pieces.flatMap attributes).countP (carries key value) := by
  induction pieces generalizing before with
  | nil =>
    have hquote : '"' ∈ attributeWord key value := by simp [attributeWord]
    rw [show (renderAll []).toList = [] from rfl, List.append_nil, countWord_of_not_mem hquote hbefore]
    rfl
  | cons m rest ih =>
    have hm := h m List.mem_cons_self
    have hrest : ∀ n ∈ rest, n.isNamed = true := fun n hn => h n (List.mem_cons_of_mem m hn)
    rw [toList_renderAll_cons, List.flatMap_cons, List.countP_append]
    cases m with
    | opening name attributes =>
      obtain ⟨hname, hkeys⟩ := Bool.and_eq_true_iff.1 hm
      obtain ⟨left, hleft, hcount⟩ := countWord_tag_attributes hkey hvalue hname (List.all_eq_true.1 hkeys) hbefore
        (show isNameChar '>' = false by decide) (show '"' ∉ ['>'] by decide) (renderAll rest).toList
      rw [toList_render_opening, hcount, ih hrest hleft]
      rfl
    | closing name =>
      have hfree : '"' ∉ before ++ (render (.closing name)).toList := by
        have hname : '"' ∉ name.toList := not_mem_name (by decide) hm
        rw [toList_render_closing]
        simp [hbefore, hname]
      rw [← List.append_assoc, ih hrest hfree]
      exact (Nat.zero_add _).symm
    | empty name attributes =>
      obtain ⟨hname, hkeys⟩ := Bool.and_eq_true_iff.1 hm
      obtain ⟨left, hleft, hcount⟩ := countWord_tag_attributes hkey hvalue hname (List.all_eq_true.1 hkeys) hbefore
        (show isNameChar '/' = false by decide) (show '"' ∉ ['/', '>'] by decide) (renderAll rest).toList
      rw [toList_render_empty, hcount, ih hrest hleft]
      rfl
    | text t =>
      have hfree : '"' ∉ before ++ (render (.text t)).toList := by
        have hescaped : '"' ∉ escape t.toList := not_mem_escape (by decide) _
        rw [toList_render_text]
        simp [hbefore, hescaped]
      rw [← List.append_assoc, ih hrest hfree]
      exact (Nat.zero_add _).symm

end Markup

end FrameAtlas

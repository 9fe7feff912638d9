import FrameAtlas.Svg.Markup

/-!
Markup read tag by tag, one character after another, without regard to who wrote it. Reading what was written for
pieces of markup gives those pieces again, with their strings escaped: no string ends what it stands in.
-/

namespace FrameAtlas.Markup

def isNameChar (c : Char) : Bool := c.isAlphanum || c == '-'

/-- Where a reader of markup stands. What it has not read to the end is kept in reverse. -/
inductive Place where
  | content (read : List Char)
  /-- After the sign that starts a tag. -/
  | tag
  | closing (name : List Char)
  | opening (name : List Char)
  /-- In a tag, after an attribute. -/
  | inside (name : String) (attributes : List (String × String))
  | key (name : String) (attributes : List (String × String)) (key : List Char)
  /-- After the sign between a key and its value. -/
  | equals (name : String) (attributes : List (String × String)) (key : String)
  | value (name : String) (attributes : List (String × String)) (key : String) (value : List Char)
  /-- After the slash that ends an empty element. -/
  | slash (name : String) (attributes : List (String × String))

def ofReverse (cs : List Char) : String := String.ofList cs.reverse

def textPiece (read : List Char) : List Markup := if read.isEmpty then [] else [.text (ofReverse read)]

def advanceInside (name : String) (attributes : List (String × String)) (c : Char) :
    Option (Place × List Markup) :=
  if c = ' ' then some (.key name attributes [], [])
  else if c = '>' then some (.content [], [.opening name attributes])
  else if c = '/' then some (.slash name attributes, [])
  else none

def advance : Place → Char → Option (Place × List Markup)
  | .content read, c => if c = '<' then some (.tag, textPiece read) else some (.content (c :: read), [])
  | .tag, c =>
    if c = '/' then some (.closing [], []) else if isNameChar c then some (.opening [c], []) else none
  | .closing name, c =>
    if isNameChar c then some (.closing (c :: name), [])
    else if c = '>' then some (.content [], [.closing (ofReverse name)])
    else none
  | .opening name, c =>
    if isNameChar c then some (.opening (c :: name), []) else advanceInside (ofReverse name) [] c
  | .inside name attributes, c => advanceInside name attributes c
  | .key name attributes key, c =>
    if isNameChar c then some (.key name attributes (c :: key), [])
    else if c = '=' then some (.equals name attributes (ofReverse key), [])
    else none
  | .equals name attributes key, c => if c = '"' then some (.value name attributes key [], []) else none
  | .value name attributes key value, c =>
    if c = '"' then some (.inside name (attributes ++ [(key, ofReverse value)]), [])
    else if c = '<' then none
    else some (.value name attributes key (c :: value), [])
  | .slash name attributes, c => if c = '>' then some (.content [], [.empty name attributes]) else none

def scanFrom : Place → List Char → Option (List Markup)
  | .content read, [] => some (textPiece read)
  | _, [] => none
  | place, c :: rest => match advance place c with
    | some (next, pieces) => (scanFrom next rest).map (pieces ++ ·)
    | none => none

def scan (s : String) : Option (List Markup) := scanFrom (.content []) s.toList

def strings : Markup → List String
  | .opening _ attributes | .empty _ attributes => attributes.map Prod.snd
  | .closing _ => []
  | .text s => [s]

def isReserved (c : Char) : Bool := c == '<' || c == '>' || c == '"' || c == '\''

theorem not_mem_replaceChar_self {c : Char} {text : List Char} (h : c ∉ text) (s : List Char) :
    c ∉ replaceChar c text s := by
  intro hc
  obtain ⟨d, -, hd⟩ := List.mem_flatMap.1 hc
  split at hd
  · exact h hd
  · rename_i hne
    exact hne (List.mem_singleton.1 hd).symm

theorem not_mem_replaceChar {c d : Char} {text s : List Char} (htext : d ∉ text) (hs : d ∉ s) :
    d ∉ replaceChar c text s := by
  intro hd
  obtain ⟨e, he, hde⟩ := List.mem_flatMap.1 hd
  split at hde
  · exact htext hde
  · exact hs (List.mem_singleton.1 hde ▸ he)

theorem replaceChar_of_not_mem {c : Char} {s : List Char} (h : c ∉ s) (text : List Char) :
    replaceChar c text s = s := by
  induction s with
  | nil => rfl
  | cons d s ih =>
    rw [List.mem_cons, not_or] at h
    have hrest := ih h.2
    unfold replaceChar at hrest ⊢
    rw [List.flatMap_cons, hrest, if_neg (Ne.symm h.1)]
    rfl

/-- A character is gone once it has been replaced, since no later replacement brings it back. -/
theorem not_reserved_of_mem_escape {s : List Char} {c : Char} (hc : c ∈ escape s) : isReserved c = false := by
  have hlt : '<' ∉ escape s := by
    refine not_mem_replaceChar (by decide) (not_mem_replaceChar (by decide) (not_mem_replaceChar (by decide) ?_))
    exact not_mem_replaceChar_self (by decide) _
  have hgt : '>' ∉ escape s := by
    refine not_mem_replaceChar (by decide) (not_mem_replaceChar (by decide) ?_)
    exact not_mem_replaceChar_self (by decide) _
  have hquot : '"' ∉ escape s := by
    refine not_mem_replaceChar (by decide) ?_
    exact not_mem_replaceChar_self (by decide) _
  have hapos : '\'' ∉ escape s := not_mem_replaceChar_self (by decide) _
  simp only [isReserved, Bool.or_eq_false_iff, beq_eq_false_iff_ne]
  refine ⟨⟨⟨?_, ?_⟩, ?_⟩, ?_⟩
  · rintro rfl
    exact hlt hc
  · rintro rfl
    exact hgt hc
  · rintro rfl
    exact hquot hc
  · rintro rfl
    exact hapos hc

/-- Nothing but a quote and the sign that starts a tag ends a value. -/
theorem advance_value {c : Char} (hc : isReserved c = false) (name : String) (attributes : List (String × String))
    (key : String) (value : List Char) :
    advance (.value name attributes key value) c = some (.value name attributes key (c :: value), []) := by
  simp only [isReserved, Bool.or_eq_false_iff, beq_eq_false_iff_ne] at hc
  show (if c = '"' then _ else if c = '<' then _ else _) = _
  rw [if_neg hc.1.2, if_neg hc.1.1.1]

theorem advance_content {c : Char} (hc : isReserved c = false) (read : List Char) :
    advance (.content read) c = some (.content (c :: read), []) := by
  simp only [isReserved, Bool.or_eq_false_iff, beq_eq_false_iff_ne] at hc
  show (if c = '<' then _ else _) = _
  rw [if_neg hc.1.1.1]

theorem advance_tag {c : Char} (hc : isNameChar c = true) : advance .tag c = some (.opening [c], []) := by
  have hslash : c ≠ '/' := by
    rintro rfl
    exact absurd hc (by decide)
  show (if c = '/' then _ else if isNameChar c = true then _ else _) = _
  rw [if_neg hslash, if_pos hc]

theorem scanFrom_cons (place : Place) (c : Char) (rest : List Char) :
    scanFrom place (c :: rest) =
      (advance place c).bind fun next => (scanFrom next.1 rest).map (next.2 ++ ·) := by
  cases place <;> (rw [scanFrom]; cases advance _ c <;> rfl)

theorem scanFrom_of_advance {place next : Place} {c : Char} (h : advance place c = some (next, []))
    (rest : List Char) : scanFrom place (c :: rest) = scanFrom next rest := by
  rw [scanFrom_cons, h]
  show (scanFrom next rest).map ([] ++ ·) = scanFrom next rest
  cases scanFrom next rest <;> rfl

/-- Characters that leave the reader in the place in which it is are taken all at once. -/
theorem scanFrom_run (place : List Char → Place) {run : List Char}
    (h : ∀ read, ∀ c ∈ run, advance (place read) c = some (place (c :: read), [])) (read rest : List Char) :
    scanFrom (place read) (run ++ rest) = scanFrom (place (run.reverse ++ read)) rest := by
  induction run generalizing read with
  | nil => rfl
  | cons c run ih =>
    have hc := h read c List.mem_cons_self
    have hrun := ih (fun read d hd => h read d (List.mem_cons_of_mem c hd)) (c :: read)
    rw [List.cons_append, scanFrom_of_advance hc, hrun, List.reverse_cons, List.append_assoc]
    rfl

theorem ofReverse_reverse (s : String) : ofReverse s.toList.reverse = s := by
  rw [ofReverse, List.reverse_reverse, String.ofList_toList]

def isName (s : String) : Bool := !s.toList.isEmpty && s.toList.all isNameChar

def isNamed : Markup → Bool
  | .opening name attributes | .empty name attributes => isName name && attributes.all fun a => isName a.1
  | .closing name => isName name
  | .text _ => true

theorem isNameChar_of_mem {name : String} (h : isName name = true) {c : Char} (hc : c ∈ name.toList) :
    isNameChar c = true := List.all_eq_true.1 (Bool.and_eq_true_iff.1 h).2 c hc

theorem exists_cons_of_isName {name : String} (h : isName name = true) : ∃ c tail, name.toList = c :: tail := by
  refine List.exists_cons_of_ne_nil ?_
  intro hnil
  rw [isName, hnil] at h
  contradiction

/-- A place in which names are read takes a whole name. -/
theorem scanFrom_name (place : List Char → Place)
    (hplace : ∀ read c, isNameChar c = true → advance (place read) c = some (place (c :: read), []))
    {name : String} (hname : isName name = true) (rest : List Char) :
    scanFrom (place []) (name.toList ++ rest) = scanFrom (place name.toList.reverse) rest := by
  have hrun := scanFrom_run place (fun read c hc => hplace read c (isNameChar_of_mem hname hc)) [] rest
  rw [List.append_nil] at hrun
  exact hrun

def escapedAttribute (a : String × String) : String × String := (a.1, escaped a.2)

theorem toList_renderAttribute (a : String × String) :
    (renderAttribute a).toList = ' ' :: (a.1.toList ++ '=' :: '"' :: (escape a.2.toList ++ ['"'])) := by
  simp [renderAttribute, escaped, String.toList_append]

/-- An attribute is read as it was written, whatever string its value is. -/
theorem scanFrom_attribute {a : String × String} (ha : isName a.1 = true) (name : String)
    (before : List (String × String)) (rest : List Char) :
    scanFrom (.inside name before) ((renderAttribute a).toList ++ rest) =
      scanFrom (.inside name (before ++ [escapedAttribute a])) rest := by
  have hvalue : ∀ read, ∀ c ∈ escape a.2.toList,
      advance (.value name before a.1 read) c = some (.value name before a.1 (c :: read), []) := by
    intro read c hc
    exact advance_value (not_reserved_of_mem_escape hc) name before a.1 read
  have hblank : advance (.inside name before) ' ' = some (.key name before [], []) := rfl
  have hequals : advance (.key name before a.1.toList.reverse) '=' = some (.equals name before a.1, []) := by
    show some (Place.equals name before (ofReverse a.1.toList.reverse), []) = _
    rw [ofReverse_reverse]
  have hquote : advance (.equals name before a.1) '"' = some (.value name before a.1 [], []) := rfl
  have hend : advance (.value name before a.1 (escape a.2.toList).reverse) '"' =
      some (.inside name (before ++ [escapedAttribute a]), []) := by
    show some (Place.inside name (before ++ [(a.1, ofReverse (escape a.2.toList).reverse)]), []) = _
    rw [ofReverse, List.reverse_reverse]
    rfl
  rw [toList_renderAttribute]
  simp only [List.cons_append, List.append_assoc, List.nil_append]
  rw [scanFrom_of_advance hblank, scanFrom_name (.key name before) (fun _ _ hc => if_pos hc) ha,
    scanFrom_of_advance hequals, scanFrom_of_advance hquote,
    scanFrom_run (.value name before a.1) hvalue [], List.append_nil, scanFrom_of_advance hend]

theorem renderAttributes_cons (a : String × String) (attributes : List (String × String)) :
    (renderAttributes (a :: attributes)).toList =
      (renderAttribute a).toList ++ (renderAttributes attributes).toList := by
  rw [renderAttributes, List.map_cons, String.join_cons, String.toList_append]
  rfl

/-- What follows the name of a tag is a blank or the end of the tag. -/
theorem exists_tagEnd (attributes : List (String × String)) (c : Char) (rest : List Char) :
    ∃ d tail, (renderAttributes attributes).toList ++ c :: rest = d :: tail ∧ (d = ' ' ∨ d = c) := by
  cases attributes with
  | nil => exact ⟨c, rest, rfl, .inr rfl⟩
  | cons a attributes =>
    rw [renderAttributes_cons, toList_renderAttribute]
    exact ⟨' ', _, rfl, .inl rfl⟩

/-- Attributes are read back one by one, with their values escaped. -/
theorem scanFrom_attributes {attributes : List (String × String)} (h : ∀ a ∈ attributes, isName a.1 = true)
    (name : String) (before : List (String × String)) (rest : List Char) :
    scanFrom (.inside name before) ((renderAttributes attributes).toList ++ rest) =
      scanFrom (.inside name (before ++ attributes.map escapedAttribute)) rest := by
  induction attributes generalizing before with
  | nil =>
    rw [List.map_nil, List.append_nil]
    rfl
  | cons a attributes ih =>
    rw [renderAttributes_cons, List.append_assoc, scanFrom_attribute (h a List.mem_cons_self),
      ih (fun b hb => h b (List.mem_cons_of_mem a hb)), List.append_assoc]
    rfl

/-- What follows the name of a tag that was opened is read as after an attribute, since it is no part of the
name. -/
theorem scanFrom_opening (read rest : List Char) {c : Char} (hc : isNameChar c = false) :
    scanFrom (.opening read) (c :: rest) = scanFrom (.inside (ofReverse read) []) (c :: rest) := by
  have hsame : advance (.opening read) c = advance (.inside (ofReverse read) []) c := by
    show (if isNameChar c = true then _ else advanceInside (ofReverse read) [] c) = _
    rw [hc]
    rfl
  rw [scanFrom_cons, scanFrom_cons, hsame]

theorem scanFrom_opened {name : String} (hname : isName name = true) {attributes : List (String × String)}
    (hkeys : ∀ a ∈ attributes, isName a.1 = true) (read : List Char) {c : Char} (hc : isNameChar c = false)
    (rest : List Char) :
    scanFrom (.content read) ('<' :: (name.toList ++ ((renderAttributes attributes).toList ++ c :: rest))) =
      (scanFrom (.inside name (attributes.map escapedAttribute)) (c :: rest)).map (textPiece read ++ ·) := by
  obtain ⟨first, tail, hfirst⟩ := exists_cons_of_isName hname
  have hletters : ∀ d ∈ first :: tail, isNameChar d = true := by
    intro d hd
    exact isNameChar_of_mem hname (hfirst ▸ hd)
  have hstart := advance_tag (hletters first List.mem_cons_self)
  have hread : ofReverse (tail.reverse ++ [first]) = name := by
    rw [← List.reverse_cons, ← hfirst, ofReverse_reverse]
  have hinside : scanFrom (.opening (tail.reverse ++ [first]))
      ((renderAttributes attributes).toList ++ c :: rest) =
        scanFrom (.inside name []) ((renderAttributes attributes).toList ++ c :: rest) := by
    obtain ⟨d, after, hafter, hd⟩ := exists_tagEnd attributes c rest
    have hnot : isNameChar d = false := by
      rcases hd with rfl | rfl
      · decide
      · exact hc
    rw [hafter, ← hread]
    exact scanFrom_opening _ after hnot
  rw [scanFrom_cons, hfirst]
  show (scanFrom .tag _).map (textPiece read ++ ·) = _
  rw [List.cons_append, scanFrom_of_advance hstart,
    scanFrom_run .opening (fun _ d hd => if_pos (hletters d (List.mem_cons_of_mem first hd))) [first],
    hinside, scanFrom_attributes hkeys]
  rfl

theorem toList_render_opening (name : String) (attributes : List (String × String)) :
    (render (.opening name attributes)).toList =
      '<' :: (name.toList ++ ((renderAttributes attributes).toList ++ ['>'])) := by
  show ("<" ++ name ++ renderAttributes attributes ++ ">").toList = _
  simp [String.toList_append]

theorem toList_render_empty (name : String) (attributes : List (String × String)) :
    (render (.empty name attributes)).toList =
      '<' :: (name.toList ++ ((renderAttributes attributes).toList ++ ['/', '>'])) := by
  show ("<" ++ name ++ renderAttributes attributes ++ "/>").toList = _
  simp [String.toList_append]

theorem toList_render_closing (name : String) :
    (render (.closing name)).toList = '<' :: '/' :: (name.toList ++ ['>']) := by
  show ("</" ++ name ++ ">").toList = _
  simp [String.toList_append]

theorem toList_render_text (t : String) : (render (.text t)).toList = escape t.toList := by
  show (escaped t).toList = _
  rw [escaped, String.toList_ofList]

theorem map_map_append (o : Option (List Markup)) (before between : List Markup) :
    (o.map (between ++ ·)).map (before ++ ·) = o.map ((before ++ between) ++ ·) := by
  cases o with
  | none => rfl
  | some pieces => exact congrArg some (List.append_assoc before between pieces).symm

theorem scanFrom_render_opening {name : String} (hname : isName name = true)
    {attributes : List (String × String)} (hkeys : ∀ a ∈ attributes, isName a.1 = true) (read rest : List Char) :
    scanFrom (.content read) ((render (.opening name attributes)).toList ++ rest) =
      (scanFrom (.content []) rest).map
        ((textPiece read ++ [.opening name (attributes.map escapedAttribute)]) ++ ·) := by
  rw [toList_render_opening, List.cons_append, List.append_assoc, List.append_assoc, List.singleton_append,
    scanFrom_opened hname hkeys read (by decide), scanFrom_cons]
  exact map_map_append _ _ _

theorem scanFrom_render_empty {name : String} (hname : isName name = true)
    {attributes : List (String × String)} (hkeys : ∀ a ∈ attributes, isName a.1 = true) (read rest : List Char) :
    scanFrom (.content read) ((render (.empty name attributes)).toList ++ rest) =
      (scanFrom (.content []) rest).map
        ((textPiece read ++ [.empty name (attributes.map escapedAttribute)]) ++ ·) := by
  have hslash : advance (.inside name (attributes.map escapedAttribute)) '/' =
      some (.slash name (attributes.map escapedAttribute), []) := rfl
  rw [toList_render_empty, List.cons_append, List.append_assoc, List.append_assoc, List.cons_append,
    List.singleton_append, scanFrom_opened hname hkeys read (by decide), scanFrom_of_advance hslash, scanFrom_cons]
  exact map_map_append _ _ _

theorem scanFrom_render_closing {name : String} (hname : isName name = true) (read rest : List Char) :
    scanFrom (.content read) ((render (.closing name)).toList ++ rest) =
      (scanFrom (.content []) rest).map ((textPiece read ++ [.closing name]) ++ ·) := by
  have hslash : advance .tag '/' = some (.closing [], []) := rfl
  have hend : advance (.closing name.toList.reverse) '>' = some (.content [], [.closing name]) := by
    show some (Place.content [], [Markup.closing (ofReverse name.toList.reverse)]) = _
    rw [ofReverse_reverse]
  rw [toList_render_closing, List.cons_append, List.cons_append, List.append_assoc, scanFrom_cons]
  show (scanFrom .tag _).map (textPiece read ++ ·) = _
  rw [scanFrom_of_advance hslash, scanFrom_name .closing (fun _ _ hc => if_pos hc) hname, List.singleton_append,
    scanFrom_cons, hend]
  exact map_map_append _ _ _

theorem scanFrom_render_text (t : String) (read rest : List Char) :
    scanFrom (.content read) ((render (.text t)).toList ++ rest) =
      scanFrom (.content ((escape t.toList).reverse ++ read)) rest := by
  rw [toList_render_text]
  have hcontent : ∀ read, ∀ c ∈ escape t.toList,
      advance (.content read) c = some (.content (c :: read), []) := by
    intro read c hc
    exact advance_content (not_reserved_of_mem_escape hc) read
  exact scanFrom_run .content hcontent read rest

def isTag : Markup → Bool
  | .text _ => false
  | .opening _ _ | .closing _ | .empty _ _ => true

theorem exists_text_of_not_isTag {m : Markup} (h : ¬m.isTag = true) : ∃ t, m = .text t := by
  cases m with
  | text t => exact ⟨t, rfl⟩
  | opening | closing | empty => exact absurd rfl h

def escapedPiece : Markup → Markup
  | .opening name attributes => .opening name (attributes.map escapedAttribute)
  | .closing name => .closing name
  | .empty name attributes => .empty name (attributes.map escapedAttribute)
  | .text s => .text (escaped s)

theorem scanFrom_render_tag {m : Markup} (hnamed : m.isNamed = true) (htag : m.isTag = true)
    (read rest : List Char) :
    scanFrom (.content read) ((render m).toList ++ rest) =
      (scanFrom (.content []) rest).map ((textPiece read ++ [m.escapedPiece]) ++ ·) := by
  cases m with
  | opening name attributes =>
    obtain ⟨hname, hkeys⟩ := Bool.and_eq_true_iff.1 hnamed
    exact scanFrom_render_opening hname (List.all_eq_true.1 hkeys) read rest
  | closing name => exact scanFrom_render_closing hnamed read rest
  | empty name attributes =>
    obtain ⟨hname, hkeys⟩ := Bool.and_eq_true_iff.1 hnamed
    exact scanFrom_render_empty hname (List.all_eq_true.1 hkeys) read rest
  | text => contradiction

/-- What a reader finds of pieces, behind a text that it has read so far: their strings are escaped, and texts that
stand side by side are one. -/
def found : List Char → List Markup → List Markup
  | read, [] => textPiece read
  | read, .text t :: rest => found ((escape t.toList).reverse ++ read) rest
  | read, m :: rest => textPiece read ++ m.escapedPiece :: found [] rest

theorem found_tag {m : Markup} (htag : m.isTag = true) (read : List Char) (rest : List Markup) :
    found read (m :: rest) = textPiece read ++ m.escapedPiece :: found [] rest := by
  cases m with
  | text => contradiction
  | opening | closing | empty => rfl

theorem toList_renderAll_cons (m : Markup) (rest : List Markup) :
    (renderAll (m :: rest)).toList = (render m).toList ++ (renderAll rest).toList := by
  rw [renderAll, List.map_cons, String.join_cons, String.toList_append]
  rfl

/-- Pieces are read from their text, whatever their strings are. -/
theorem scanFrom_renderAll {pieces : List Markup} (h : ∀ m ∈ pieces, m.isNamed = true) (read : List Char) :
    scanFrom (.content read) (renderAll pieces).toList = some (found read pieces) := by
  induction pieces generalizing read with
  | nil => rfl
  | cons m rest ih =>
    have hrest := ih fun n hn => h n (List.mem_cons_of_mem m hn)
    rw [toList_renderAll_cons]
    by_cases htag : m.isTag = true
    · rw [scanFrom_render_tag (h m List.mem_cons_self) htag, hrest, found_tag htag, Option.map_some,
        List.append_assoc, List.singleton_append]
    · obtain ⟨t, rfl⟩ := exists_text_of_not_isTag htag
      rw [scanFrom_render_text, hrest, found]

/-- What was written piece by piece is read back piece by piece. -/
theorem scan_renderAll {pieces : List Markup} (h : ∀ m ∈ pieces, m.isNamed = true) :
    scan (renderAll pieces) = some (found [] pieces) := scanFrom_renderAll h []

def IsClean (m : Markup) : Prop := ∀ s ∈ m.strings, ∀ c ∈ s.toList, isReserved c = false

theorem isClean_of_mem_textPiece {read : List Char} (hread : ∀ c ∈ read, isReserved c = false) {m : Markup}
    (hm : m ∈ textPiece read) : m.IsClean := by
  unfold textPiece at hm
  split at hm
  · contradiction
  · obtain rfl := List.mem_singleton.1 hm
    intro s hs c hc
    rw [List.mem_singleton.1 hs, ofReverse, String.toList_ofList, List.mem_reverse] at hc
    exact hread c hc

theorem isClean_escapedPiece (m : Markup) : m.escapedPiece.IsClean := by
  have hescaped : ∀ t : String, ∀ c ∈ (escaped t).toList, isReserved c = false := by
    intro t c hc
    rw [escaped, String.toList_ofList] at hc
    exact not_reserved_of_mem_escape hc
  have hvalues : ∀ attributes : List (String × String), ∀ s ∈ (attributes.map escapedAttribute).map Prod.snd,
      ∀ c ∈ s.toList, isReserved c = false := by
    intro attributes s hs
    rw [List.map_map] at hs
    obtain ⟨a, -, rfl⟩ := List.mem_map.1 hs
    exact hescaped a.2
  cases m with
  | opening name attributes => exact hvalues attributes
  | closing name => exact fun s hs => absurd hs List.not_mem_nil
  | empty name attributes => exact hvalues attributes
  | text t =>
    intro s hs
    rw [List.mem_singleton.1 hs]
    exact hescaped t

/-- No string found holds a character that markup is made of. -/
theorem isClean_of_mem_found (pieces : List Markup) {read : List Char}
    (hread : ∀ c ∈ read, isReserved c = false) {m : Markup} (hm : m ∈ found read pieces) : m.IsClean := by
  induction pieces generalizing read with
  | nil => exact isClean_of_mem_textPiece hread hm
  | cons n rest ih =>
    by_cases htag : n.isTag = true
    · rw [found_tag htag] at hm
      rcases List.mem_append.1 hm with htext | hlater
      · exact isClean_of_mem_textPiece hread htext
      · rcases List.mem_cons.1 hlater with rfl | hrest
        · exact isClean_escapedPiece n
        · exact ih (fun _ h => absurd h List.not_mem_nil) hrest
    · obtain ⟨t, rfl⟩ := exists_text_of_not_isTag htag
      rw [found] at hm
      refine ih ?_ hm
      intro c hc
      rcases List.mem_append.1 hc with hnew | hold
      · exact not_reserved_of_mem_escape (List.mem_reverse.1 hnew)
      · exact hread c hold

def stillOpen? : List String → List Markup → Option (List String)
  | opened, [] => some opened
  | opened, .opening name _ :: rest => stillOpen? (name :: opened) rest
  | last :: opened, .closing name :: rest => if last = name then stillOpen? opened rest else none
  | [], .closing _ :: _ => none
  | opened, .empty _ _ :: rest => stillOpen? opened rest
  | opened, .text _ :: rest => stillOpen? opened rest

/-- What is open behind two lists of pieces is counted on from the first to the second. -/
theorem stillOpen?_append (opened : List String) (pieces others : List Markup) :
    stillOpen? opened (pieces ++ others) = (stillOpen? opened pieces).bind (stillOpen? · others) := by
  induction pieces generalizing opened with
  | nil => rfl
  | cons m rest ih =>
    cases m with
    | opening name attributes => exact ih (name :: opened)
    | closing name =>
      cases opened with
      | nil => rfl
      | cons last opened =>
        simp only [List.cons_append, stillOpen?]
        split
        · exact ih opened
        · rfl
    | empty name attributes => exact ih opened
    | text t => exact ih opened

/-- What the strings are does not matter for what is open. -/
theorem stillOpen?_found (opened : List String) (pieces : List Markup) (read : List Char) :
    stillOpen? opened (found read pieces) = stillOpen? opened pieces := by
  have htext : ∀ (opened : List String) (read : List Char), stillOpen? opened (textPiece read) = some opened := by
    intro opened read
    unfold textPiece
    split <;> rfl
  induction pieces generalizing opened read with
  | nil => exact htext opened read
  | cons m rest ih =>
    cases m with
    | opening name attributes =>
      rw [found_tag rfl, stillOpen?_append, htext]
      exact ih (name :: opened) []
    | closing name =>
      rw [found_tag rfl, stillOpen?_append, htext]
      cases opened with
      | nil => rfl
      | cons last opened =>
        simp only [Option.bind_some, escapedPiece, stillOpen?, ih]
    | empty name attributes =>
      rw [found_tag rfl, stillOpen?_append, htext]
      exact ih opened []
    | text t =>
      rw [found, ih]
      rfl

/-- Pieces that are one element, in which every element is closed in its turn. -/
def IsDocument (root : String) (pieces : List Markup) : Prop :=
  ∃ attributes body, pieces = .opening root attributes :: (body ++ [.closing root]) ∧ stillOpen? [] body = some []

theorem found_concat_closing (pieces : List Markup) (name : String) (read : List Char) :
    found read (pieces ++ [.closing name]) = found read pieces ++ [.closing name] := by
  induction pieces generalizing read with
  | nil => rfl
  | cons m rest ih =>
    by_cases htag : m.isTag = true
    · rw [List.cons_append, found_tag htag, found_tag htag, ih, List.append_assoc]
      rfl
    · obtain ⟨t, rfl⟩ := exists_text_of_not_isTag htag
      rw [List.cons_append, found, found, ih]

/-- A document that was written is found as a document. -/
theorem IsDocument.found {root : String} {pieces : List Markup} (h : IsDocument root pieces) :
    IsDocument root (Markup.found [] pieces) := by
  obtain ⟨attributes, body, rfl, hbody⟩ := h
  refine ⟨attributes.map escapedAttribute, Markup.found [] body, ?_, ?_⟩
  · rw [found_tag rfl, found_concat_closing]
    rfl
  · rw [stillOpen?_found]
    exact hbody

end FrameAtlas.Markup

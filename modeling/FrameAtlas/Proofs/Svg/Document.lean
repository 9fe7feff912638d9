import FrameAtlas.CommandLine.Export
import FrameAtlas.Proofs.Surface.Nesting
import FrameAtlas.Proofs.Svg.Occurrences

namespace FrameAtlas

namespace Markup

/-- Strings without a character that markup is made of, the ampersand among them, stay as they are. -/
theorem escaped_eq_self {s : String} (h : ∀ c ∈ s.toList, isReserved c = false ∧ c ≠ '&') : escaped s = s := by
  have hnot : ∀ c, isReserved c = true ∨ c = '&' → c ∉ s.toList := by
    intro c hc hmem
    rcases hc with hc | hc
    · rw [(h c hmem).1] at hc
      contradiction
    · exact (h c hmem).2 hc
  have hescape : escape s.toList = s.toList := by
    rw [escape, replaceChar_of_not_mem (hnot '&' (.inr rfl)), replaceChar_of_not_mem (hnot '<' (.inl rfl)),
      replaceChar_of_not_mem (hnot '>' (.inl rfl)), replaceChar_of_not_mem (hnot '"' (.inl rfl)),
      replaceChar_of_not_mem (hnot '\'' (.inl rfl))]
  rw [escaped, hescape, String.ofList_toList]

end Markup

namespace Svg

def isNumeral (c : Char) : Bool := c.isDigit || c == '-' || c == '.'

theorem isNumeral_of_isDigit {c : Char} (hc : c.isDigit = true) : isNumeral c = true := by
  rw [isNumeral, hc]
  rfl

theorem isNumeral_of_mem_strip {digits : List Char} (h : ∀ c ∈ digits, isNumeral c = true) (exponent : Int) :
    ∀ c ∈ (NumberForm.strip digits.reverse exponent).1, isNumeral c = true := by
  intro c hc
  have hmem : c ∈ digits.reverse := List.mem_of_mem_drop (List.mem_reverse.1 hc)
  exact h c (List.mem_reverse.1 hmem)

theorem isNumeral_of_mem_positional {digits : List Char} (h : ∀ c ∈ digits, isNumeral c = true) (exponent : Int) :
    ∀ c ∈ numberForm.positional digits exponent, isNumeral c = true := by
  have hzeros : ∀ n, ∀ c ∈ List.replicate n '0', isNumeral c = true := by
    intro n c hc
    rw [(List.mem_replicate.1 hc).2]
    decide
  intro c hc
  unfold NumberForm.positional at hc
  simp only at hc
  split at hc
  · rcases List.mem_append.1 hc with hwhole | hpoint
    · rcases List.mem_append.1 hwhole with hdigits | hfill
      · exact h c hdigits
      · exact hzeros _ c hfill
    · contradiction
  · split at hc
    · rcases List.mem_append.1 hc with hwhole | hpart
      · exact h c (List.mem_of_mem_take hwhole)
      · rcases List.mem_cons.1 hpart with rfl | hpart
        · decide
        · exact h c (List.mem_of_mem_drop hpart)
    · rcases List.mem_cons.1 hc with rfl | hc
      · decide
      · rcases List.mem_cons.1 hc with rfl | hc
        · decide
        · rcases List.mem_append.1 hc with hfill | hdigits
          · exact hzeros _ c hfill
          · exact h c hdigits

/-- Numbers in a document are made of numerals only. -/
theorem isNumeral_of_mem_decimal (d : Decimal) : ∀ c ∈ numberForm.decimal d, isNumeral c = true := by
  have hdigits : ∀ c ∈ decimalDigits d.digits, isNumeral c = true := by
    intro c hc
    exact isNumeral_of_isDigit (Nat.isDigit_of_mem_toDigits (by decide) (by decide) hc)
  exact isNumeral_of_mem_positional (isNumeral_of_mem_strip hdigits d.exponent) _

/-- Numbers are written with digits, a sign and a point, or as one of three names. -/
theorem number_chars (x : Float) :
    (∀ c ∈ (number x).toList, isNumeral c = true) ∨ number x ∈ ["NaN", "inf", "-inf"] := by
  unfold number NumberForm.text
  split
  · exact .inr (by decide)
  · split
    · exact .inr (by decide)
    · exact .inr (by decide)
  · left
    rename_i negative m hx
    generalize hdigits : (if m.mantissa = 0 then (if numberForm.pointZero then ['0', '.', '0'] else ['0'])
      else numberForm.decimal (m.shortest numberForm.tie)) = digits
    have hnumeral : ∀ c ∈ digits, isNumeral c = true := by
      rw [← hdigits]
      split
      · exact List.all_eq_true.1 (by decide)
      · exact isNumeral_of_mem_decimal _
    intro c hc
    rw [String.toList_ofList] at hc
    split at hc
    · rcases List.mem_cons.1 hc with rfl | hc
      · decide
      · exact hnumeral c hc
    · exact hnumeral c hc

/-- So nothing in a number is escaped. -/
theorem escaped_number (x : Float) : Markup.escaped (number x) = number x := by
  rcases number_chars x with h | h
  · refine Markup.escaped_eq_self ?_
    intro c hc
    have hne : ∀ d, isNumeral d = false → c ≠ d := by
      rintro d hd rfl
      rw [h c hc] at hd
      contradiction
    have hreserved : Markup.isReserved c = false := by
      simp only [Markup.isReserved, Bool.or_eq_false_iff, beq_eq_false_iff_ne]
      exact ⟨⟨⟨hne '<' rfl, hne '>' rfl⟩, hne '"' rfl⟩, hne '\'' rfl⟩
    exact ⟨hreserved, hne '&' rfl⟩
  · revert h
    generalize number x = text
    simp only [List.mem_cons, List.not_mem_nil, or_false]
    rintro (rfl | rfl | rfl) <;> rfl

end Svg

namespace Command

variable {α : Type}

def isPath : Command α → Bool
  | .path _ => true
  | _ => false

def isRect : Command α → Bool
  | .rect _ => true
  | _ => false

def isHidden : Command α → Bool
  | .path c => !c.visible
  | _ => false

end Command

namespace Svg

open Markup

theorem isNamed_commandMarkup (palette : Palette) (c : Command Float) :
    (commandMarkup palette c).all isNamed = true := by
  -- Which names there are depends on what is missing in the command, so every case is a closed list of names.
  cases c with
  | rect c =>
    obtain ⟨rect, color, border, label, index, current⟩ := c
    cases border <;> cases label <;> cases index <;> cases current <;>
      simp only [commandMarkup, rectMarkup, isNamed, List.all_cons, List.all_nil, List.nil_append, List.cons_append,
        Bool.false_eq_true, if_true, if_false] <;> decide
  | text c =>
    simp only [commandMarkup, textMarkup, isNamed, List.all_cons, List.all_nil]
    decide
  | line c =>
    simp only [commandMarkup, lineMarkup, isNamed, List.all_cons, List.all_nil]
    decide
  | path c =>
    obtain ⟨path, color, width, dashed, label, position, source, visible⟩ := c
    cases dashed <;> cases label <;> cases source <;> cases visible <;>
      simp only [commandMarkup, pathMarkup, isNamed, List.all_cons, List.all_nil, List.nil_append, List.cons_append,
        Bool.false_eq_true, if_true, if_false] <;> decide
  | beginGroup id label =>
    simp only [commandMarkup, isNamed, List.all_cons, List.all_nil]
    decide
  | endGroup =>
    simp only [commandMarkup, isNamed, List.all_cons, List.all_nil]
    decide

theorem countP_startsTag_path (palette : Palette) (c : Command Float) :
    (commandMarkup palette c).countP (startsTag "path".toList) = if c.isPath then 1 else 0 := by
  cases c with
  | rect c =>
    obtain ⟨rect, color, border, label, index, current⟩ := c
    cases label <;> rfl
  | path c =>
    obtain ⟨path, color, width, dashed, label, position, source, visible⟩ := c
    cases label <;> rfl
  | text | line | beginGroup | endGroup => rfl

theorem countP_startsTag_rect (palette : Palette) (c : Command Float) :
    (commandMarkup palette c).countP (startsTag "rect".toList) = if c.isRect then 1 else 0 := by
  cases c with
  | rect c =>
    obtain ⟨rect, color, border, label, index, current⟩ := c
    cases label <;> rfl
  | path c =>
    obtain ⟨path, color, width, dashed, label, position, source, visible⟩ := c
    cases label <;> rfl
  | text | line | beginGroup | endGroup => rfl

def hides : String × String → Bool := carries "visibility".toList "hidden".toList

/-- Attributes of other names hide nothing, whatever their values are. -/
theorem countP_hides_eq_zero {attributes : List (String × String)}
    (h : ((attributes.map Prod.fst).all fun name => !"visibility".toList.isSuffixOf name.toList) = true) :
    attributes.countP hides = 0 := by
  rw [List.countP_eq_zero]
  intro a ha
  have hname : "visibility".toList.isSuffixOf a.1.toList = false := by
    have hall := List.all_eq_true.1 h a.1 (List.mem_map_of_mem ha)
    rwa [Bool.not_eq_true'] at hall
  rw [hides, carries, hname, Bool.false_and]
  exact Bool.false_ne_true

theorem countP_hides_between {before behind : List (String × String)} (hbefore : before.countP hides = 0)
    (hbehind : behind.countP hides = 0) : (before ++ ("visibility", "hidden") :: behind).countP hides = 1 := by
  have hhides : hides ("visibility", "hidden") = true := by decide
  rw [List.countP_append, List.countP_cons_of_pos hhides, hbefore, hbehind]

theorem countP_hides_pathMarkup (palette : Palette) {c : PathCommand Float} (hvisible : c.visible = true) :
    ((pathMarkup palette c).flatMap attributes).countP hides = 0 := by
  refine countP_hides_eq_zero ?_
  obtain ⟨path, color, width, dashed, label, position, source, visible⟩ := c
  subst hvisible
  cases dashed <;> cases label <;> cases source <;>
    simp only [pathMarkup, attributes, List.flatMap_cons, List.flatMap_nil, List.map_cons, List.map_nil,
      List.nil_append, List.cons_append, Bool.false_eq_true, if_true, if_false] <;> decide

/-- The group of a hidden path carries the one attribute that hides it. -/
theorem countP_hides_pathMarkup_hidden (palette : Palette) {c : PathCommand Float} (hvisible : c.visible = false) :
    ((pathMarkup palette c).flatMap attributes).countP hides = 1 := by
  obtain ⟨path, color, width, dashed, label, position, source, visible⟩ := c
  subst hvisible
  cases source with
  | none =>
    refine countP_hides_between List.countP_nil (countP_hides_eq_zero ?_)
    cases dashed <;> cases label <;>
      simp only [attributes, List.append_eq, List.flatten_cons, List.flatten_nil, List.map_cons, List.map_nil,
        List.nil_append, List.cons_append, Bool.false_eq_true, if_true, if_false] <;> decide
  | some source =>
    have hsource : [("data-source", toString source.toNat)].countP hides = 0 := by
      refine countP_hides_eq_zero ?_
      simp only [List.map_cons, List.map_nil]
      decide
    refine countP_hides_between hsource (countP_hides_eq_zero ?_)
    cases dashed <;> cases label <;>
      simp only [attributes, List.append_eq, List.flatten_cons, List.flatten_nil, List.map_cons, List.map_nil,
        List.nil_append, List.cons_append, Bool.false_eq_true, if_true, if_false] <;> decide

/-- A command hides something exactly if it is a hidden path. -/
theorem countP_hides (palette : Palette) (c : Command Float) :
    ((commandMarkup palette c).flatMap attributes).countP hides = if c.isHidden then 1 else 0 := by
  cases c with
  | rect c =>
    refine countP_hides_eq_zero ?_
    obtain ⟨rect, color, border, label, index, current⟩ := c
    cases border <;> cases label <;> cases index <;> cases current <;>
      simp only [commandMarkup, rectMarkup, attributes, List.flatMap_cons, List.flatMap_nil, List.map_cons,
        List.map_nil, List.nil_append, List.cons_append, Bool.false_eq_true, if_true, if_false] <;> decide
  | path c =>
    rcases hvisible : c.visible with - | -
    · rw [Command.isHidden, hvisible]
      exact countP_hides_pathMarkup_hidden palette hvisible
    · rw [Command.isHidden, hvisible]
      exact countP_hides_pathMarkup palette hvisible
  | text c =>
    refine countP_hides_eq_zero ?_
    simp only [commandMarkup, textMarkup, attributes, List.flatMap_cons, List.flatMap_nil, List.map_cons,
      List.map_nil, List.append_nil]
    decide
  | line c =>
    refine countP_hides_eq_zero ?_
    simp only [commandMarkup, lineMarkup, attributes, List.flatMap_cons, List.flatMap_nil, List.map_cons,
      List.map_nil, List.append_nil]
    decide
  | beginGroup id label =>
    refine countP_hides_eq_zero ?_
    simp only [commandMarkup, attributes, List.flatMap_cons, List.flatMap_nil, List.map_cons, List.map_nil,
      List.append_nil]
    decide
  | endGroup => rfl

/-- A command that draws closes what it opens. -/
theorem stillOpen?_commandMarkup (palette : Palette) {c : Command Float} (hc : c.isGroup = false)
    (opened : List String) : stillOpen? opened (commandMarkup palette c) = some opened := by
  cases c with
  | rect c =>
    obtain ⟨rect, color, border, label, index, current⟩ := c
    cases label <;> rfl
  | path c =>
    obtain ⟨path, color, width, dashed, label, position, source, visible⟩ := c
    cases label <;> rfl
  | text | line => rfl
  | beginGroup | endGroup => contradiction

theorem isNamed_markup (commands : List (Command Float)) (width height : Float) (palette : Palette) :
    ∀ m ∈ markup commands width height palette, m.isNamed = true := by
  have hcommands : ∀ m ∈ commands.flatMap (commandMarkup palette), m.isNamed = true := by
    intro m hm
    obtain ⟨c, -, hmem⟩ := List.mem_flatMap.1 hm
    exact List.all_eq_true.1 (isNamed_commandMarkup palette c) m hmem
  intro m hm
  unfold markup at hm
  rcases List.mem_cons.1 hm with rfl | hm
  · simp only [isNamed, List.all_cons, List.all_nil]
    decide
  rcases List.mem_cons.1 hm with rfl | hm
  · simp only [isNamed, List.all_cons, List.all_nil]
    decide
  rcases List.mem_append.1 hm with hm | hm
  · exact hcommands m hm
  · obtain rfl := List.mem_singleton.1 hm
    decide

/-- What each command adds its share to, all commands add up to. -/
theorem countP_flatMap_eq {β γ : Type} {share : β → List γ} {p : γ → Bool} {q : β → Bool}
    (h : ∀ b, (share b).countP p = if q b then 1 else 0) (items : List β) :
    (items.flatMap share).countP p = items.countP q := by
  induction items with
  | nil => rfl
  | cons b items ih => rw [List.flatMap_cons, List.countP_append, List.countP_cons, h b, ih, Nat.add_comm]

theorem countP_startsTag_path_markup (commands : List (Command Float)) (width height : Float) (palette : Palette) :
    (markup commands width height palette).countP (startsTag "path".toList) = commands.countP Command.isPath := by
  have hcommands := countP_flatMap_eq (countP_startsTag_path palette) commands
  unfold markup
  rw [List.countP_cons, List.countP_cons, List.countP_append, hcommands]
  rfl

theorem countP_startsTag_rect_markup (commands : List (Command Float)) (width height : Float) (palette : Palette) :
    (markup commands width height palette).countP (startsTag "rect".toList) = commands.countP Command.isRect + 1 := by
  have hcommands := countP_flatMap_eq (countP_startsTag_rect palette) commands
  unfold markup
  rw [List.countP_cons, List.countP_cons, List.countP_append, hcommands]
  rfl

theorem countP_hides_markup (commands : List (Command Float)) (width height : Float) (palette : Palette) :
    ((markup commands width height palette).flatMap attributes).countP hides =
      commands.countP Command.isHidden := by
  have hcommands : ((commands.flatMap (commandMarkup palette)).flatMap attributes).countP hides =
      commands.countP Command.isHidden := by
    rw [List.flatMap_assoc]
    exact countP_flatMap_eq (countP_hides palette) commands
  have hroot : [("xmlns", "http://www.w3.org/2000/svg"), ("viewBox", "0 0 " ++ number width ++ " " ++ number height),
      ("width", number width), ("height", number height),
      ("style", "font-family:system-ui,-apple-system,sans-serif;font-size:10px")].countP hides = 0 := by
    refine countP_hides_eq_zero ?_
    simp only [List.map_cons, List.map_nil]
    decide
  have hground : [("width", number width), ("height", number height),
      ("fill", palette.hex .background)].countP hides = 0 := by
    refine countP_hides_eq_zero ?_
    simp only [List.map_cons, List.map_nil]
    decide
  unfold markup
  rw [List.flatMap_cons, List.flatMap_cons, List.flatMap_append, List.countP_append, List.countP_append,
    List.countP_append, hcommands, attributes, attributes, hroot, hground, Nat.zero_add, Nat.zero_add]
  rfl

/-- The elements that are open behind commands are their open groups. -/
theorem stillOpen?_flatMap_commandMarkup (palette : Palette) (commands : List (Command Float)) (depth : Nat) :
    stillOpen? (List.replicate depth "g") (commands.flatMap (commandMarkup palette)) =
      (groupDepth? depth commands).map (List.replicate · "g") := by
  induction commands generalizing depth with
  | nil => rfl
  | cons c rest ih =>
    rw [List.flatMap_cons, stillOpen?_append]
    cases c with
    | beginGroup id label => exact ih (depth + 1)
    | endGroup =>
      cases depth with
      | zero => rfl
      | succ depth => exact ih depth
    | rect | text | line | path =>
      rw [stillOpen?_commandMarkup palette rfl]
      exact ih depth

/-- Nested commands make one element in which everything opened is closed. -/
theorem isDocument_markup {commands : List (Command Float)} (h : IsNested commands) (width height : Float)
    (palette : Palette) : IsDocument "svg" (markup commands width height palette) := by
  refine ⟨_, .empty "rect" _ :: commands.flatMap (commandMarkup palette), rfl, ?_⟩
  have hopen := stillOpen?_flatMap_commandMarkup palette commands 0
  rw [h] at hopen
  exact hopen

end Svg

/-- What a reader finds in a text that was written for commands. -/
structure Svg.IsDocumentOf (commands : List (Command Float)) (pieces : List Markup) (text : String) : Prop where
  /-- The reader finds the pieces that were written, with their strings escaped. -/
  read : Markup.scan text = some (Markup.found [] pieces)
  balanced : Markup.IsDocument "svg" (Markup.found [] pieces)
  clean : ∀ m ∈ Markup.found [] pieces, m.IsClean
  paths : occurrences "<path" text = commands.countP Command.isPath
  /-- There is one rectangle more than is drawn, behind all others. -/
  rects : occurrences "<rect" text = commands.countP Command.isRect + 1
  hidden : occurrences "visibility=\"hidden\"" text = commands.countP Command.isHidden

/-- What is written for nested commands is read as their document. -/
theorem Svg.isDocumentOf_render {commands : List (Command Float)} (h : IsNested commands) (width height : Float)
    (palette : Palette) :
    Svg.IsDocumentOf commands (Svg.markup commands width height palette)
      (Svg.render commands width height palette) := by
  have hnamed := Svg.isNamed_markup commands width height palette
  have hpath : ∀ c ∈ "path".toList, Markup.isNameChar c = true := List.all_eq_true.1 (by decide)
  have hrect : ∀ c ∈ "rect".toList, Markup.isNameChar c = true := List.all_eq_true.1 (by decide)
  have hkey : ∀ c ∈ "visibility".toList, Markup.isNameChar c = true := List.all_eq_true.1 (by decide)
  have hvalue : ∀ c ∈ "hidden".toList, Markup.isNameChar c = true := List.all_eq_true.1 (by decide)
  refine ⟨Markup.scan_renderAll hnamed, (Svg.isDocument_markup h width height palette).found, ?_, ?_, ?_, ?_⟩
  · intro m hm
    exact Markup.isClean_of_mem_found _ (fun _ hc => absurd hc List.not_mem_nil) hm
  · rw [← Svg.countP_startsTag_path_markup commands width height palette]
    exact Markup.countWord_tag (by decide) hpath hnamed
  · rw [← Svg.countP_startsTag_rect_markup commands width height palette]
    exact Markup.countWord_tag (by decide) hrect hnamed
  · rw [← Svg.countP_hides_markup commands width height palette]
    exact Markup.countWord_attributes_renderAll hkey hvalue hnamed List.not_mem_nil

/-- No string breaks out of a document: commands whose groups are nested are written as one element with as many
paths, rectangles and hidden paths as they draw. What a session draws is such a list, so what is exported is such a
document. Numbers are written as they are, since they hold nothing that is escaped. -/
theorem documents_unbroken :
    (∀ (commands : List (Command Float)) (width height : Float) (palette : Palette), IsNested commands →
      Svg.IsDocumentOf commands (Svg.markup commands width height palette)
        (Svg.render commands width height palette)) ∧
    (∀ (s : Session Float) (surface : SurfaceKind) (v : Viewport Float) (width height : Float) (palette : Palette),
      let commands := (s.render surface v).1
      IsNested commands ∧ Svg.IsDocumentOf commands (Svg.markup commands width height palette)
        (Svg.render commands width height palette)) ∧
    (∀ (i : CommandLine.Invocation) (frames : List Frame),
      let commands := ((i.session frames).render i.surface (.sized i.width i.height)).1
      let palette : Palette := if i.dark then .dark else .light
      Svg.IsDocumentOf commands (Svg.markup commands i.width i.height palette) (i.document frames)) ∧
    ∀ x : Float, ((∀ c ∈ (Svg.number x).toList, Svg.isNumeral c = true) ∨ Svg.number x ∈ ["NaN", "inf", "-inf"]) ∧
      Markup.escaped (Svg.number x) = Svg.number x := by
  refine ⟨?_, ?_, ?_, ?_⟩
  · intro commands width height palette h
    exact Svg.isDocumentOf_render h width height palette
  · intro s surface v width height palette
    have hnested := s.isNested_render surface v
    exact ⟨hnested, Svg.isDocumentOf_render hnested width height palette⟩
  · intro i frames
    have hnested := (i.session frames).isNested_render i.surface (.sized i.width i.height)
    exact Svg.isDocumentOf_render hnested i.width i.height (if i.dark then .dark else .light)
  · intro x
    exact ⟨Svg.number_chars x, Svg.escaped_number x⟩

/-- Strings that are made of tags and quotes count for nothing. -/
theorem documents_unbroken_by_tags_in_strings :
    let commands : List (Command Float) :=
      [.beginGroup "\"><path visibility=\"hidden" none,
        .path ⟨"M 0,0\" visibility=\"hidden\"", .level1, 1.5, true, some "</g></svg><path", ⟨20, 12⟩, some 3, false⟩,
        .rect ⟨⟨0, 0, 40, 20⟩, .frameIntra, some .border, some "<rect>&", some 0, true⟩,
        .text ⟨⟨1, 2⟩, "<rect x=\"1\">", .textPrimary, 10, .center⟩, .endGroup]
    let text := Svg.render commands 400 100 .dark
    Svg.IsDocumentOf commands (Svg.markup commands 400 100 .dark) text ∧ occurrences "<path" text = 1 ∧
      occurrences "<rect" text = 2 ∧ occurrences "visibility=\"hidden\"" text = 1 := by
  intro commands text
  have hnested : IsNested commands := by decide
  have hdocument := documents_unbroken.1 commands 400 100 .dark hnested
  exact ⟨hdocument, hdocument.paths, hdocument.rects, hdocument.hidden⟩

end FrameAtlas

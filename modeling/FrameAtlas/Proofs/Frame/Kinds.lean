import FrameAtlas.Proofs.Frame.Listing
import FrameAtlas.Proofs.Text.Blank

namespace FrameAtlas.FrameKind

def IsIntraName (name : String) : Prop :=
  name ∈ ["KEY", "CRA", "BLA", "GDR"] ∨ name.toList.head? = some 'I' ∧ name ≠ "INTER"

def IsInterName (name : String) : Prop :=
  name ∈ ["INTER", "NON_KEY", "SWITCH", "S"] ∨ name.toList.head? = some 'P'

def IsBidirectionalName (name : String) : Prop := name.toList.head? = some 'B' ∧ name ≠ "BLA"

instance : DecidablePred IsIntraName := fun name =>
  inferInstanceAs (Decidable (name ∈ _ ∨ name.toList.head? = some 'I' ∧ name ≠ "INTER"))

instance : DecidablePred IsInterName := fun name =>
  inferInstanceAs (Decidable (name ∈ _ ∨ name.toList.head? = some 'P'))

instance : DecidablePred IsBidirectionalName := fun name =>
  inferInstanceAs (Decidable (name.toList.head? = some 'B' ∧ name ≠ "BLA"))

/-- Whether a kind is the one that the rule gives to a name. -/
structure IsRuled (k : FrameKind) (name : String) : Prop where
  intra : k = .intra ↔ IsIntraName name
  inter : k = .inter ↔ IsInterName name
  bidirectional : k = .bidirectional ↔ IsBidirectionalName name
  unknown : k = .unknown ↔ ¬IsIntraName name ∧ ¬IsInterName name ∧ ¬IsBidirectionalName name

/-- No name is left for two kinds, so what is none of the others is unknown. -/
theorem IsRuled.of_known {k : FrameKind} {name : String} (intra : k = .intra ↔ IsIntraName name)
    (inter : k = .inter ↔ IsInterName name) (bidirectional : k = .bidirectional ↔ IsBidirectionalName name) :
    IsRuled k name := by
  refine ⟨intra, inter, bidirectional, ?_⟩
  rw [← intra, ← inter, ← bidirectional]
  cases k <;> decide

/-- The names of intra kinds fall under the rule for intra kinds and under no other. -/
theorem rule_of_mem_intraNames :
    ∀ name ∈ intraNames, IsIntraName name ∧ ¬IsInterName name ∧ ¬IsBidirectionalName name := by decide

theorem rule_of_mem_interNames :
    ∀ name ∈ interNames, ¬IsIntraName name ∧ IsInterName name ∧ ¬IsBidirectionalName name := by decide

theorem isIntraName_iff_of_not_mem {name : String} (hintra : name ∉ intraNames) (hinter : name ∉ interNames) :
    IsIntraName name ↔ name.toList.head? = some 'I' := by
  have hwhole : ∀ other ∈ ["KEY", "CRA", "BLA", "GDR"], other ∈ intraNames := by decide
  have hne : name ≠ "INTER" := by
    rintro rfl
    exact hinter (by decide)
  constructor
  · rintro (hmem | ⟨hfirst, -⟩)
    · exact absurd (hwhole name hmem) hintra
    · exact hfirst
  · intro hfirst
    exact .inr ⟨hfirst, hne⟩

theorem isInterName_iff_of_not_mem {name : String} (hinter : name ∉ interNames) :
    IsInterName name ↔ name.toList.head? = some 'P' := by
  have hwhole : ∀ other ∈ ["INTER", "NON_KEY", "SWITCH", "S"], other ∈ interNames := by decide
  apply or_iff_right
  exact fun hmem => hinter (hwhole name hmem)

theorem isBidirectionalName_iff_of_not_mem {name : String} (hintra : name ∉ intraNames) :
    IsBidirectionalName name ↔ name.toList.head? = some 'B' := by
  apply and_iff_left
  rintro rfl
  exact hintra (by decide)

def ofFirst : Option Char → FrameKind
  | some 'I' => .intra
  | some 'P' => .inter
  | some 'B' => .bidirectional
  | _ => .unknown

theorem ofFirst_eq_iff (first : Option Char) :
    (ofFirst first = .intra ↔ first = some 'I') ∧ (ofFirst first = .inter ↔ first = some 'P') ∧
      (ofFirst first = .bidirectional ↔ first = some 'B') := by
  unfold ofFirst
  split <;> simp_all

/-- A name is a whole name of one of two kinds, or its first letter settles the kind. -/
theorem ofUpper_cases (name : List Char) :
    String.ofList name ∈ intraNames ∧ ofUpper name = .intra ∨
    String.ofList name ∈ interNames ∧ ofUpper name = .inter ∨
    String.ofList name ∉ intraNames ∧ String.ofList name ∉ interNames ∧ ofUpper name = ofFirst name.head? := by
  unfold ofUpper
  simp only [List.contains_iff_mem]
  by_cases hintra : String.ofList name ∈ intraNames
  · exact .inl ⟨hintra, if_pos hintra⟩
  by_cases hinter : String.ofList name ∈ interNames
  · rw [if_neg hintra]
    exact .inr (.inl ⟨hinter, if_pos hinter⟩)
  · refine .inr (.inr ⟨hintra, hinter, ?_⟩)
    rw [if_neg hintra, if_neg hinter]
    cases name with
    | nil => rfl
    | cons c rest =>
      rw [List.head?_cons]
      by_cases hI : c = 'I'
      · rw [hI]
        rfl
      by_cases hP : c = 'P'
      · rw [hP]
        rfl
      by_cases hB : c = 'B'
      · rw [hB]
        rfl
      · simp only [ofFirst]
        split <;> simp_all

/-- Asking for whole names first is right: the rule gives each of them the kind under which it is asked for, and of
the names that are left it looks at the first letter alone. -/
theorem isRuled_ofUpper (name : List Char) : IsRuled (ofUpper name) (String.ofList name) := by
  rcases ofUpper_cases name with ⟨hmem, hkind⟩ | ⟨hmem, hkind⟩ | ⟨hintra, hinter, hkind⟩
  · obtain ⟨hintra, hinter, hbidirectional⟩ := rule_of_mem_intraNames _ hmem
    rw [hkind]
    apply IsRuled.of_known
    · exact iff_of_true rfl hintra
    · exact iff_of_false (by decide) hinter
    · exact iff_of_false (by decide) hbidirectional
  · obtain ⟨hintra, hinter, hbidirectional⟩ := rule_of_mem_interNames _ hmem
    rw [hkind]
    apply IsRuled.of_known
    · exact iff_of_false (by decide) hintra
    · exact iff_of_true rfl hinter
    · exact iff_of_false (by decide) hbidirectional
  · obtain ⟨hI, hP, hB⟩ := ofFirst_eq_iff name.head?
    rw [hkind]
    apply IsRuled.of_known
    · rw [hI, isIntraName_iff_of_not_mem hintra hinter, String.toList_ofList]
    · rw [hP, isInterName_iff_of_not_mem hinter, String.toList_ofList]
    · rw [hB, isBidirectionalName_iff_of_not_mem hintra, String.toList_ofList]

def plainName (name : String) : String := String.ofList (Text.asciiUpper (Text.trim name.toList))

/-- Every name is given the kind that the rules give it. -/
theorem isRuled_ofName (name : String) : IsRuled (ofName name) (plainName name) :=
  isRuled_ofUpper (Text.asciiUpper (Text.trim name.toList))

/-- Names that differ in blanks around them and in the case of letters alone are one name. -/
theorem plainName_eq {name other before behind : String} (hbefore : ∀ c ∈ before.toList, Text.isBlank c = true)
    (hbehind : ∀ c ∈ behind.toList, Text.isBlank c = true)
    (hcase : other.toList.map Char.toLower = name.toList.map Char.toLower) :
    plainName (before ++ other ++ behind) = plainName name := by
  have hletters : Text.asciiUpper other.toList = Text.asciiUpper name.toList := by
    rw [← Text.asciiUpper_map_toLower, hcase, Text.asciiUpper_map_toLower]
  rw [plainName, plainName, String.toList_append, String.toList_append, Text.trim_append hbefore hbehind,
    Text.asciiUpper_trim, hletters, Text.asciiUpper_trim]

/-- The name in upper case is all that a kind is told of. -/
theorem ofName_eq_ofUpper (name : String) : ofName name = ofUpper (plainName name).toList := by
  rw [plainName, String.toList_ofList]
  rfl

/-- Every name has the kind that the rule gives to what stands between its blanks, in upper case. So blanks around
a name and the case of ASCII letters never change the kind, and the short name of a kind names it. -/
theorem kinds_follow_names :
    (∀ name : String,
      Text.IsCore (Text.trim name.toList) name.toList ∧
      IsRuled (ofName name) (plainName name)) ∧
    (∀ name other before behind : String,
      (∀ c ∈ before.toList, Text.isBlank c = true) → (∀ c ∈ behind.toList, Text.isBlank c = true) →
        other.toList.map Char.toLower = name.toList.map Char.toLower →
          ofName (before ++ other ++ behind) = ofName name) ∧
    ∀ k : FrameKind, ofName k.letter = k := by
  refine ⟨?_, ?_, ofName_letter⟩
  · intro name
    exact ⟨Text.isCore_trim name.toList, isRuled_ofName name⟩
  · intro name other before behind hbefore hbehind hcase
    rw [ofName_eq_ofUpper, plainName_eq hbefore hbehind hcase, ofName_eq_ofUpper]

/-- A whole name that its first letter would put with another kind. -/
theorem kinds_follow_names_of_spaced_name :
    (∀ c ∈ "\t\u3000".toList, Text.isBlank c = true) ∧ (∀ c ∈ "\n".toList, Text.isBlank c = true) ∧
      "bLa".toList.map Char.toLower = "BLA".toList.map Char.toLower ∧
      ofName ("\t\u3000" ++ "bLa" ++ "\n") = ofName "BLA" ∧ IsRuled (ofName "BLA") "BLA" ∧ IsIntraName "BLA" := by
  have hbefore : ∀ c ∈ "\t\u3000".toList, Text.isBlank c = true := List.all_eq_true.1 (by decide)
  have hbehind : ∀ c ∈ "\n".toList, Text.isBlank c = true := List.all_eq_true.1 (by decide)
  have hcase : "bLa".toList.map Char.toLower = "BLA".toList.map Char.toLower := by decide
  have hrule := (kinds_follow_names.1 "BLA").2
  exact ⟨hbefore, hbehind, hcase, kinds_follow_names.2.1 "BLA" "bLa" _ _ hbefore hbehind hcase, hrule, by decide⟩

end FrameAtlas.FrameKind

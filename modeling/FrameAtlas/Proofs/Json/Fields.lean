import FrameAtlas.Proofs.Json.ReadBack
import FrameAtlas.Proofs.Steps

/-!
Records read field by field. Where no two members have one name, a record is read from an object just when every
field takes a value from its own member or from its default. Members of other names do not matter at all, and a list
of values is read like the object that gives them to the fields in order.
-/

namespace FrameAtlas

variable {β γ : Type}

def Takes [Wire β] (absence : Absence β) : Option Json → β → Prop
  | some j, value => (decode j : Except DecodeError β) = .ok value
  | none, value => absence.member = some value

theorem takes_required_iff [Wire β] {m : Option Json} {value : β} :
    Takes .required m value ↔ ∃ j, m = some j ∧ (decode j : Except DecodeError β) = .ok value := by
  cases m with
  | none =>
    constructor
    · exact fun h => nomatch h
    · exact fun ⟨_, h, _⟩ => nomatch h
  | some j =>
    constructor
    · exact fun h => ⟨j, rfl, h⟩
    · rintro ⟨k, hk, h⟩
      rw [Option.some.inj hk]
      exact h

theorem takes_default_iff [Wire β] {m : Option Json} {default value : β} :
    Takes (.default default) m value ↔
      (m = none ∧ value = default) ∨ ∃ j, m = some j ∧ (decode j : Except DecodeError β) = .ok value := by
  cases m with
  | none =>
    constructor
    · exact fun h => .inl ⟨rfl, (Option.some.inj h).symm⟩
    · rintro (⟨-, rfl⟩ | ⟨j, h, -⟩)
      · rfl
      · contradiction
  | some j =>
    constructor
    · exact fun h => .inr ⟨j, rfl, h⟩
    · rintro (⟨h, -⟩ | ⟨k, hk, h⟩)
      · contradiction
      · rw [Option.some.inj hk]
        exact h

namespace Json

theorem member?_eq_some_of_mem {members : List (String × Json)} (hdistinct : (members.map Prod.fst).Nodup)
    {m : String × Json} (hm : m ∈ members) : (Json.object members).member? m.1 = some m.2 := by
  have hfound : (members.find? fun n => n.1 == m.1).isSome = true := by
    rw [List.find?_isSome]
    exact ⟨m, hm, beq_self_eq_true m.1⟩
  obtain ⟨n, hn⟩ := Option.isSome_iff_exists.1 hfound
  have hname := List.find?_some hn
  have hsame := List.inj_on_of_nodup_map hdistinct (List.mem_of_find?_eq_some hn) hm (eq_of_beq hname)
  rw [member?, hn, hsame]
  rfl

/-- What stands beside the members of some names does not change them. -/
theorem member?_filter {names : List String} {name : String} (hname : name ∈ names)
    (members : List (String × Json)) :
    (Json.object (members.filter fun m => m.1 ∈ names)).member? name = (Json.object members).member? name := by
  have hkept : (fun m : String × Json => decide (decide (m.1 ∈ names) = true ∧ (m.1 == name) = true)) =
      fun m => m.1 == name := by
    funext m
    by_cases hm : m.1 = name
    · simp [hm, hname]
    · simp [hm]
  rw [member?, member?, List.find?_filter, hkept]

/-- Where a name comes after others in a list, its member is the value that they leave over first. -/
theorem member?_zip_concat {names : List String} {name : String} (hname : name ∉ names) (items : List Json) :
    (Json.object ((names ++ [name]).zip items)).member? name = (items.drop names.length).head? := by
  induction names generalizing items with
  | nil =>
    cases items with
    | nil => rfl
    | cons j rest => simp [member?]
  | cons first others ih =>
    cases items with
    | nil => rfl
    | cons j rest =>
      have hfirst : (first == name) = false := beq_false_of_ne (List.ne_of_not_mem_cons hname).symm
      have hrest := ih (List.not_mem_of_not_mem_cons hname) rest
      rw [member?, List.cons_append, List.zip_cons_cons, List.find?_cons_of_neg (by simp [hfirst])]
      exact hrest

theorem member?_zip_append {names : List String} {name : String} (hname : name ∈ names) (others : List String)
    (items : List Json) :
    (Json.object ((names ++ others).zip items)).member? name = (Json.object (names.zip items)).member? name := by
  induction names generalizing items with
  | nil => contradiction
  | cons first rest ih =>
    cases items with
    | nil => rfl
    | cons j items =>
      rw [List.cons_append, List.zip_cons_cons, List.zip_cons_cons, member?, member?, List.find?_cons,
        List.find?_cons]
      cases hfirst : first == name with
      | true => rfl
      | false =>
        have hrest := (List.mem_cons.1 hname).resolve_left fun h => by simp [h] at hfirst
        exact ih hrest items

theorem names_zip_sublist (names : List String) (items : List Json) :
    ((names.zip items).map Prod.fst).Sublist names := by
  induction names generalizing items with
  | nil => exact .slnil
  | cons name others ih =>
    cases items with
    | nil => exact List.nil_sublist _
    | cons j rest => exact (ih rest).cons_cons name

end Json

namespace Record

/-- A field looks at its own member, after the fields that stand before it. -/
theorem ofMembers_field [Wire β] (r : Record (β → γ)) (name : String) (absence : Absence β)
    (members : List (String × Json)) :
    (r.field name absence).ofMembers members = r.ofMembers members >>= fun make =>
      match (Json.object members).member? name with
      | some j => (Wire.decode j).map make
      | none => match absence.member with
        | some value => .ok (make value)
        | none => .error (.missingField name) := by
  refine congrArg (r.ofMembers members >>= ·) (funext fun make => ?_)
  rw [Json.member?]
  cases members.find? fun m => m.1 == name <;> rfl

/-- A record with one field more is read if the fields before are, and the new one takes a value from its own member.
-/
theorem ofMembers_field_iff [Wire β] {r : Record (β → γ)} {name : String} {absence : Absence β}
    {members : List (String × Json)} {a : γ} :
    (r.field name absence).ofMembers members = .ok a ↔
      ∃ make, r.ofMembers members = .ok make ∧
        ∃ value, Takes absence ((Json.object members).member? name) value ∧ make value = a := by
  rw [ofMembers_field, bind_eq_ok_iff]
  refine exists_congr fun make => and_congr_right fun _ => ?_
  cases (Json.object members).member? name with
  | some j => exact map_eq_ok_iff
  | none =>
    show _ ↔ ∃ value, absence.member = some value ∧ make value = a
    cases absence.member <;> simp

theorem ofMembers_field_eq_ok [Wire β] {r : Record (β → γ)} {name : String} {absence : Absence β}
    {members : List (String × Json)} {make : β → γ} {value : β} (h : r.ofMembers members = .ok make)
    (hvalue : Takes absence ((Json.object members).member? name) value) :
    (r.field name absence).ofMembers members = .ok (make value) :=
  ofMembers_field_iff.2 ⟨make, h, value, hvalue, rfl⟩

/-- From a list, a field takes the first of the values that are left over. -/
theorem ofElements_field_iff [Wire β] {r : Record (β → γ)} {name : String} {absence : Absence β}
    (habsence : absence.element = absence.member) {expected : String} {items rest : List Json} {count : Nat}
    {a : γ} :
    (r.field name absence).ofElements expected items = .ok (a, count, rest) ↔
      ∃ make before left, r.ofElements expected items = .ok (make, before, left) ∧
        (∃ value, Takes absence left.head? value ∧ make value = a) ∧ count = before + 1 ∧ rest = left.tail := by
  refine bind_eq_ok_iff.trans ?_
  simp only [Prod.exists]
  refine exists_congr fun make => exists_congr fun before => exists_congr fun left => and_congr_right fun _ => ?_
  cases left with
  | cons j left =>
    refine map_eq_ok_iff.trans ?_
    simp only [Prod.mk.injEq]
    constructor
    · rintro ⟨value, hvalue, hmake, hcount, hrest⟩
      exact ⟨⟨value, hvalue, hmake⟩, hcount.symm, hrest.symm⟩
    · rintro ⟨⟨value, hvalue, hmake⟩, hcount, hrest⟩
      exact ⟨value, hvalue, hmake, hcount.symm, hrest.symm⟩
  | nil =>
    show _ ↔ (∃ value, absence.member = some value ∧ make value = a) ∧ count = before + 1 ∧ rest = []
    simp only [habsence]
    cases absence.member with
    | none => simp
    | some value => simp [eq_comm]

/-- A record with fields of these names, in this order. What stands for a field that is not there is the same in an
object and in a list. -/
inductive HasFields : {β : Type} → Record β → List String → Prop
  | start {β : Type} (a : β) : HasFields (Record.start a) []
  | field {β γ : Type} [Wire β] {r : Record (β → γ)} {names : List String} (h : HasFields r names) (name : String)
      (hname : name ∉ names) (absence : Absence β) (habsence : absence.element = absence.member) :
      HasFields (r.field name absence) (names ++ [name])

namespace HasFields

variable {r : Record β} {names : List String}

theorem nodup (h : HasFields r names) : names.Nodup := by
  induction h with
  | start a => exact List.nodup_nil
  | field h name hname absence habsence ih =>
    rw [← List.concat_eq_append]
    exact ih.concat hname

/-- Members of other names have no faults. -/
theorem check_of_not_mem (h : HasFields r names) {key : String} (hkey : key ∉ names) (j : Json) :
    r.check key j = .ok () := by
  induction h with
  | start a => rfl
  | field h name hname absence habsence ih =>
    rw [List.mem_append, List.mem_singleton, not_or] at hkey
    exact (if_neg hkey.2).trans (ih hkey.1)

/-- Where all fields have values, no member has a fault. -/
theorem check_of_ofMembers (h : HasFields r names) {members : List (String × Json)}
    (hdistinct : (members.map Prod.fst).Nodup) {a : β} (hread : r.ofMembers members = .ok a) {m : String × Json}
    (hm : m ∈ members) : r.check m.1 m.2 = .ok () := by
  induction h with
  | start a => rfl
  | @field β _ _ _ _ h name hname absence habsence ih =>
    obtain ⟨make, hmake, value, hvalue, -⟩ := ofMembers_field_iff.1 hread
    by_cases hkey : m.1 = name
    · rw [← hkey, Json.member?_eq_some_of_mem hdistinct hm] at hvalue
      have hdecode : (Wire.decode m.2 : Except DecodeError β) = .ok value := hvalue
      refine (if_pos hkey).trans ?_
      rw [hdecode]
      rfl
    · exact (if_neg hkey).trans (ih hmake)

/-- Where no two members have one name, faults are those of the fields. -/
theorem decodeMembers_iff (h : HasFields r names) {members : List (String × Json)}
    (hdistinct : (members.map Prod.fst).Nodup) {a : β} :
    r.decodeMembers members = .ok a ↔ r.ofMembers members = .ok a := by
  constructor
  · intro hread
    obtain ⟨-, -, hmembers⟩ := bind_eq_ok_iff.1 hread
    exact hmembers
  · intro hread
    exact ReadsAs.decodeMembers ⟨fun m hm => h.check_of_ofMembers hdistinct hread hm, hread⟩

/-- A record is read alike from members that agree about its fields. -/
theorem ofMembers_congr (h : HasFields r names) {first second : List (String × Json)}
    (hsame : ∀ name ∈ names, (Json.object first).member? name = (Json.object second).member? name) :
    r.ofMembers first = r.ofMembers second := by
  induction h with
  | start a => rfl
  | field h name hname absence habsence ih =>
    have hbefore := ih fun name hmem => hsame name (List.mem_append_left _ hmem)
    rw [ofMembers_field, ofMembers_field, hbefore, hsame _ (List.mem_append_right _ List.mem_cons_self)]

/-- Members of other names are not looked at when faults are sought. -/
theorem forM_check_filter (h : HasFields r names) (members : List (String × Json)) :
    ((members.filter fun m => m.1 ∈ names).forM fun m => r.check m.1 m.2) =
      members.forM fun m => r.check m.1 m.2 := by
  induction members with
  | nil => rfl
  | cons m rest ih =>
    simp only [List.forM_eq_forM] at ih ⊢
    by_cases hm : m.1 ∈ names
    · rw [List.filter_cons, if_pos (decide_eq_true hm), List.forM_cons, List.forM_cons, ih]
    · rw [List.filter_cons, if_neg (by simpa using hm), List.forM_cons, ih, h.check_of_not_mem hm]
      rfl

/-- Members of other names do not matter, neither to what is read nor to the fault that is found first. -/
theorem decodeMembers_filter (h : HasFields r names) (members : List (String × Json)) :
    r.decodeMembers (members.filter fun m => m.1 ∈ names) = r.decodeMembers members := by
  have hread := h.ofMembers_congr fun name hname => Json.member?_filter hname members
  rw [decodeMembers, decodeMembers, h.forM_check_filter, hread]

/-- A list gives its values to the fields in order, and fields without a value take their defaults. -/
theorem ofElements_iff (h : HasFields r names) {expected : String} {items rest : List Json} {count : Nat} {a : β} :
    r.ofElements expected items = .ok (a, count, rest) ↔
      r.ofMembers (names.zip items) = .ok a ∧ count = names.length ∧ rest = items.drop names.length := by
  induction h generalizing rest count with
  | start value =>
    show Except.ok (value, 0, items) = .ok (_, count, rest) ↔ Except.ok value = .ok _ ∧ count = 0 ∧ rest = items
    simp only [Except.ok.injEq, Prod.mk.injEq, eq_comm]
  | @field _ _ _ r names h name hname absence habsence ih =>
    -- The fields before do not see the value of the new one, which is the first that they leave over.
    have hbefore : r.ofMembers ((names ++ [name]).zip items) = r.ofMembers (names.zip items) :=
      h.ofMembers_congr fun other hother => Json.member?_zip_append hother [name] items
    rw [ofElements_field_iff habsence, ofMembers_field_iff, hbefore, Json.member?_zip_concat hname]
    have hlength : (names ++ [name]).length = names.length + 1 := List.length_append
    constructor
    · rintro ⟨make, before, left, hleft, hvalue, hcount, hrest⟩
      obtain ⟨hmake, rfl, rfl⟩ := ih.1 hleft
      refine ⟨⟨make, hmake, hvalue⟩, hcount.trans hlength.symm, ?_⟩
      rw [hrest, List.tail_drop, hlength]
    · rintro ⟨⟨make, hmake, hvalue⟩, hcount, hrest⟩
      refine ⟨make, names.length, items.drop names.length, ih.2 ⟨hmake, rfl, rfl⟩, hvalue, hcount.trans hlength, ?_⟩
      rw [hrest, List.tail_drop, hlength]

/-- A list is read like the object that gives its values to the fields in order, if there is a field for each. -/
theorem decode_array_iff (h : HasFields r names) {name : String} {size : Nat} {items : List Json} {a : β} :
    r.decode name size (.array items) = .ok a ↔
      items.length ≤ names.length ∧ r.decode name size (.object (names.zip items)) = .ok a := by
  have hdistinct : ((names.zip items).map Prod.fst).Nodup := h.nodup.sublist (Json.names_zip_sublist names items)
  show _ ↔ _ ∧ r.decodeMembers (names.zip items) = .ok a
  rw [decode, bind_eq_ok_iff, h.decodeMembers_iff hdistinct]
  constructor
  · rintro ⟨⟨value, count, rest⟩, hfound, hrest⟩
    obtain ⟨hvalue, -, rfl⟩ := h.ofElements_iff.1 hfound
    dsimp only at hrest
    split at hrest
    · rename_i hnone
      rw [← Except.ok.inj hrest]
      exact ⟨List.drop_eq_nil_iff.1 (List.isEmpty_iff.1 hnone), hvalue⟩
    · contradiction
  · rintro ⟨hlength, hvalue⟩
    refine ⟨(a, names.length, items.drop names.length), h.ofElements_iff.2 ⟨hvalue, rfl, rfl⟩, ?_⟩
    exact if_pos (List.isEmpty_iff.2 (List.drop_eq_nil_iff.2 hlength))

end HasFields

end Record

end FrameAtlas

import FrameAtlas.Proofs.IndexMap
import FrameAtlas.Proofs.Json.Numeral
import FrameAtlas.Proofs.Json.Order
import Mathlib.Data.List.Nodup
import Mathlib.Data.List.Perm.Basic

/-!
Values read back from their trees. The law of a type is that every value of it is what its tree is read as, in
whatever order the members of the tree stand. It holds of the simple types, and goes over to options, lists and
records by what their trees are made of.
-/

namespace FrameAtlas

variable {β γ : Type}

def ReadsBack [Wire β] (a : β) : Prop :=
  ∀ j, (encode a).Reordered j → (decode j : Except DecodeError β) = .ok a

theorem ReadsBack.decode_encode [Wire β] {a : β} (h : ReadsBack a) : decode (encode a) = .ok a :=
  h (encode a) (Json.Reordered.refl _)

theorem readsBack_bool (b : Bool) : ReadsBack b := by
  intro j hj
  rw [Json.Reordered.eq_boolean hj]
  rfl

theorem readsBack_string (s : String) : ReadsBack s := by
  intro j hj
  rw [Json.Reordered.eq_text hj]
  rfl

theorem readsBack_uint32 (n : UInt32) : ReadsBack n := by
  intro j hj
  rw [Json.Reordered.eq_number hj]
  exact decode_encode_uint32 n

theorem readsBack_uint64 (n : UInt64) : ReadsBack n := by
  intro j hj
  rw [Json.Reordered.eq_number hj]
  show (Json.decodeNatural "u64" UInt64.size (.ofNat n.toNat)).map UInt64.ofNat = .ok n
  rw [Json.decodeNatural_ofNat "u64" n.toNat_lt_size]
  show Except.ok (UInt64.ofNat n.toNat) = _
  rw [UInt64.ofNat_toNat]

theorem readsBack_nat (n : Nat) : ReadsBack n := by
  intro j hj
  rw [Json.Reordered.eq_number hj]
  show (if (0 : Int) ≤ n then Except.ok (Int.toNat n) else _) = _
  rw [if_pos (Int.natCast_nonneg n), Int.toNat_natCast]

theorem readsBack_int64 (n : Int64) : ReadsBack n := by
  intro j hj
  rw [Json.Reordered.eq_number hj]
  show (if Int64.minValue.toInt ≤ n.toInt ∧ n.toInt ≤ Int64.maxValue.toInt then
    Except.ok (Int64.ofInt n.toInt) else _) = _
  rw [if_pos ⟨n.minValue_le_toInt, n.toInt_le⟩, Int64.ofInt_toInt]

/-- Numbers that are finite are written as such; others are written as null, and that is no number. -/
theorem readsBack_float {x : Float} (hx : x.isFinite = true) : ReadsBack x := by
  intro j hj
  have hnumber : encode x = .number (.float x) := if_pos hx
  rw [hnumber] at hj
  rw [hj.eq_number]
  rfl

theorem decode_option [Wire β] {j : Json} (hj : j ≠ .null) :
    (decode j : Except DecodeError (Option β)) = (decode j : Except DecodeError β).map some := by
  cases j with
  | null => contradiction
  | boolean | number | text | array | object => rfl

/-- Options of values whose trees are not null, as the tree of no value is. -/
theorem readsBack_option [Wire β] (hread : ∀ a : β, ReadsBack a) (hnull : ∀ a : β, encode a ≠ .null)
    (o : Option β) : ReadsBack o := by
  intro j hj
  cases o with
  | none =>
    rw [Json.Reordered.eq_null hj]
    rfl
  | some a =>
    have hj' : (encode a).Reordered j := hj
    have hsolid : j ≠ .null := by
      rintro rfl
      cases hencode : encode a with
      | null => exact hnull a hencode
      | boolean | number | text | array | object => rw [hencode] at hj'; cases hj'
    rw [decode_option hsolid, hread a j hj']
    rfl

theorem readsBack_optional_bool (b : Option Bool) : ReadsBack b :=
  readsBack_option readsBack_bool (fun _ h => nomatch h) b

theorem readsBack_optional_string (s : Option String) : ReadsBack s :=
  readsBack_option readsBack_string (fun _ h => nomatch h) s

theorem readsBack_optional_uint32 (n : Option UInt32) : ReadsBack n :=
  readsBack_option readsBack_uint32 (fun _ h => nomatch h) n

theorem readsBack_optional_uint64 (n : Option UInt64) : ReadsBack n :=
  readsBack_option readsBack_uint64 (fun _ h => nomatch h) n

theorem readsBack_optional_int64 (n : Option Int64) : ReadsBack n :=
  readsBack_option readsBack_int64 (fun _ h => nomatch h) n

/-- Elements are read back one by one, even if their members were reordered. -/
theorem decodeItems_eq [Wire β] {items : List β} (hread : ∀ a ∈ items, ReadsBack a) {others : List Json}
    (h : List.Forall₂ Json.Reordered (items.map encode) others) : decodeItems others = .ok items := by
  induction items generalizing others with
  | nil => rw [List.forall₂_nil_left_iff.1 h]; rfl
  | cons a rest ih =>
    obtain ⟨j, tail, hj, htail, rfl⟩ := List.forall₂_cons_left_iff.1 h
    have hrest := ih (fun b hb => hread b (List.mem_cons_of_mem a hb)) htail
    rw [decodeItems, hread a List.mem_cons_self j hj, hrest]
    rfl

/-- A list is read back if its elements are. -/
theorem readsBack_list [Wire β] {items : List β} (hread : ∀ a ∈ items, ReadsBack a) : ReadsBack items := by
  intro j hj
  obtain ⟨others, rfl, hothers⟩ := Json.Reordered.array_split hj
  exact decodeItems_eq hread hothers

theorem readsBack_indices (indices : List UInt32) : ReadsBack indices :=
  readsBack_list fun n _ => readsBack_uint32 n

def ReadsEntry [Wire β] (m : String × Json) (e : UInt32 × β) : Prop :=
  decodeKey m.1 = .ok e.1 ∧ (decode m.2 : Except DecodeError β) = .ok e.2

theorem decodeEntries_eq [Wire β] {members : List (String × Json)} {entries : List (UInt32 × β)}
    (h : List.Forall₂ ReadsEntry members entries) : decodeEntries members = .ok entries := by
  induction h with
  | nil => rfl
  | cons he _ ih =>
    rw [decodeEntries, he.1, he.2, ih]
    rfl

theorem readsEntry_of_written [Wire β] {entries : List (UInt32 × β)} (hread : ∀ e ∈ entries, ReadsBack e.2)
    {members : List (String × Json)}
    (h : List.Forall₂ (SameMember Json.Reordered)
      (entries.map fun e => (toString e.1.toNat, encode e.2)) members) :
    List.Forall₂ ReadsEntry members entries := by
  induction entries generalizing members with
  | nil => rw [List.forall₂_nil_left_iff.1 h]; exact .nil
  | cons e rest ih =>
    obtain ⟨m, tail, hm, htail, rfl⟩ := List.forall₂_cons_left_iff.1 h
    cases hm with
    | mk _ hj =>
      exact .cons ⟨decodeKey_toString e.1, hread e List.mem_cons_self _ hj⟩
        (ih (fun d hd => hread d (List.mem_cons_of_mem e hd)) htail)

/-- The order in which the entries are found does not matter. -/
theorem readsBack_indexMap [Wire β] {m : IndexMap β} (hread : ∀ e ∈ m.entries, ReadsBack e.2) :
    ReadsBack m := by
  intro j hj
  obtain ⟨between, others, rfl, hbetween, hperm⟩ := Json.Reordered.object_split hj
  obtain ⟨entries, hentries, hperm'⟩ := List.perm_comp_forall₂ hperm.symm (readsEntry_of_written hread hbetween)
  show (decodeEntries others).map IndexMap.ofList = .ok m
  rw [decodeEntries_eq hentries]
  exact congrArg Except.ok (IndexMap.ofList_eq_of_perm hperm')

/-- A value that is written by name is read back if no other value has that name. -/
theorem decodeNamed_name {values : List β} {name : β → String} {a : β} (hmem : a ∈ values)
    (hname : ∀ b, name b = name a → b = a) : decodeNamed values name (.text (name a)) = .ok a := by
  have hfound : values.find? (fun b => name b == name a) = some a := by
    cases hfind : values.find? fun b => name b == name a with
    | none => exact absurd (beq_self_eq_true (name a)) (List.find?_eq_none.1 hfind a hmem)
    | some b =>
      have hsame := List.find?_some hfind
      rw [hname b (eq_of_beq hsame)]
  rw [decodeNamed, decodeVariant, if_pos (List.mem_map_of_mem hmem)]
  simp only [hfound]
  rfl

/-- Members that give a value to a field: all of that name hold it, and where there is none it stands for what
is missing. -/
def Gives [Wire β] (members : List (String × Json)) (name : String) (absence : Absence β) (value : β) : Prop :=
  (∀ m ∈ members, m.1 = name → (decode m.2 : Except DecodeError β) = .ok value) ∧
    ((∃ m ∈ members, m.1 = name) ∨ absence.member = some value)

structure Describes (written found : List (String × Json)) : Prop extends Json.Restates written found where
  names : (written.map Prod.fst).Nodup

/-- A reordered object still has one member for each field. -/
theorem Json.Reordered.describes {written : List (String × Json)} {j : Json}
    (h : Json.Reordered (.object written) j) (hnames : (written.map Prod.fst).Nodup) :
    ∃ found, j = .object found ∧ Describes written found := by
  obtain ⟨found, rfl, hfound⟩ := h.restates
  exact ⟨found, rfl, hfound, hnames⟩

/-- A field that was written is found. -/
theorem Describes.gives [Wire β] {written found : List (String × Json)} (h : Describes written found)
    (name : String) {value : β} (hread : ReadsBack value) {absence : Absence β}
    (hmem : (name, encode value) ∈ written) : Gives found name absence value := by
  constructor
  · intro m hm hname
    obtain ⟨n, hn, hsame⟩ := h.back m hm
    cases hsame with
    | mk same hjk =>
      obtain rfl : same = name := hname
      have hunique : (same, encode value) = (same, _) := List.inj_on_of_nodup_map h.names hmem hn rfl
      rw [← (Prod.mk.inj hunique).2] at hjk
      exact hread _ hjk
  · obtain ⟨n, hn, hsame⟩ := h.forth _ hmem
    cases hsame with
    | mk => exact .inl ⟨_, hn, rfl⟩

/-- A field that was left out has its default. -/
theorem Describes.gives_default [Wire β] {written found : List (String × Json)} (h : Describes written found)
    {name : String} {value : β} (hout : name ∉ written.map Prod.fst) :
    Gives found name (.default value) value := by
  refine ⟨?_, .inr rfl⟩
  intro m hm hname
  obtain ⟨n, hn, hsame⟩ := h.back m hm
  cases hsame with
  | mk same _ =>
    obtain rfl : same = name := hname
    exact absurd (List.mem_map_of_mem hn) hout

namespace Record

structure ReadsAs (r : Record β) (members : List (String × Json)) (a : β) : Prop where
  check : ∀ m ∈ members, r.check m.1 m.2 = .ok ()
  ofMembers : r.ofMembers members = .ok a

theorem ReadsAs.start (a : β) (members : List (String × Json)) : (Record.start a).ReadsAs members a :=
  ⟨fun _ _ => rfl, rfl⟩

/-- One more field. -/
theorem ReadsAs.field [Wire β] {r : Record (β → γ)} {members : List (String × Json)} {make : β → γ}
    (h : r.ReadsAs members make) {name : String} {absence : Absence β} {value : β}
    (hgives : Gives members name absence value) : (r.field name absence).ReadsAs members (make value) where
  check := by
    intro m hm
    show (if m.1 = name then (Wire.decode m.2 : Except DecodeError β).map fun _ => () else r.check m.1 m.2) = .ok ()
    split
    · rename_i hname
      rw [hgives.1 m hm hname]
      rfl
    · exact h.check m hm
  ofMembers := by
    rw [Record.field]
    simp only [h.ofMembers]
    cases hfind : members.find? fun m => m.1 == name with
    | some m =>
      have hname := List.find?_some hfind
      have hvalue := hgives.1 m (List.mem_of_find?_eq_some hfind) (eq_of_beq hname)
      show (Wire.decode m.2).map make = _
      rw [hvalue]
      rfl
    | none =>
      rcases hgives.2 with ⟨m, hm, hname⟩ | hdefault
      · exact absurd (beq_iff_eq.2 hname) (List.find?_eq_none.1 hfind m hm)
      · simp only [hdefault]
        rfl

theorem ReadsAs.decodeMembers {r : Record β} {members : List (String × Json)} {a : β}
    (h : r.ReadsAs members a) : r.decodeMembers members = .ok a := by
  have hchecked : ∀ ms : List (String × Json), (∀ m ∈ ms, r.check m.1 m.2 = .ok ()) →
      (ms.forM fun m => r.check m.1 m.2) = .ok () := by
    intro ms
    induction ms with
    | nil => exact fun _ => rfl
    | cons m rest ih =>
      intro hms
      rw [List.forM_eq_forM, List.forM_cons, hms m List.mem_cons_self]
      exact ih fun n hn => hms n (List.mem_cons_of_mem m hn)
  rw [Record.decodeMembers, hchecked members h.check]
  exact h.ofMembers

end Record

end FrameAtlas

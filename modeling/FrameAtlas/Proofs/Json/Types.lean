import FrameAtlas.Proofs.Json.Fields
import Mathlib.Algebra.Group.Int.Defs
import Mathlib.Data.List.Forall2
import Mathlib.Data.Set.List

namespace FrameAtlas

variable {β : Type}

namespace Json

def IsInteger (low high : Int) (j : Json) : Prop := ∃ n, j = .number (.integer n) ∧ low ≤ n ∧ n < high

def IsBoolean (j : Json) : Prop := ∃ b, j = .boolean b

def IsText (j : Json) : Prop := ∃ s, j = .text s

def IsListOf (is : Json → Prop) (j : Json) : Prop := ∃ items, j = .array items ∧ ∀ item ∈ items, is item

def AreTreesOf (tree : β → Json) (is : Json → Prop) : Prop := ∀ j, is j ↔ ∃ a, j = tree a

theorem areTreesOf_natural {toNat : β → Nat} {ofNat : Nat → β} {limit : Nat} (hbelow : ∀ a, toNat a < limit)
    (hfit : ∀ n < limit, toNat (ofNat n) = n) : AreTreesOf (fun a => Json.ofNat (toNat a)) (IsInteger 0 limit) := by
  intro j
  constructor
  · rintro ⟨n, rfl, hlow, hhigh⟩
    refine ⟨ofNat n.toNat, ?_⟩
    show number (.integer n) = Json.ofNat (toNat (ofNat n.toNat))
    rw [hfit _ ((Int.toNat_lt hlow).2 hhigh), Json.ofNat, Int.toNat_of_nonneg hlow]
  · rintro ⟨a, rfl⟩
    exact ⟨toNat a, rfl, Int.natCast_nonneg _, Int.ofNat_lt.2 (hbelow a)⟩

theorem areTreesOf_uint32 : AreTreesOf (fun n : UInt32 => ofNat n.toNat) (IsInteger 0 (2 ^ 32)) :=
  areTreesOf_natural UInt32.toNat_lt_size fun _ => UInt32.toNat_ofNat_of_lt'

theorem areTreesOf_uint64 : AreTreesOf (fun n : UInt64 => ofNat n.toNat) (IsInteger 0 (2 ^ 64)) :=
  areTreesOf_natural UInt64.toNat_lt_size fun _ => UInt64.toNat_ofNat_of_lt'

theorem areTreesOf_int64 : AreTreesOf (fun n : Int64 => ofInt n.toInt) (IsInteger (-2 ^ 63) (2 ^ 63)) := by
  intro j
  constructor
  · rintro ⟨n, rfl, hlow, hhigh⟩
    refine ⟨Int64.ofInt n, ?_⟩
    show number (.integer n) = ofInt (Int64.ofInt n).toInt
    rw [Int64.toInt_ofInt_of_le hlow hhigh, ofInt]
  · rintro ⟨n, rfl⟩
    exact ⟨n.toInt, rfl, n.le_toInt, n.toInt_lt⟩

theorem areTreesOf_bool : AreTreesOf boolean IsBoolean := fun _ => Iff.rfl

/-- Trees of lists are lists of trees. -/
theorem AreTreesOf.list {tree : β → Json} {is : Json → Prop} (h : AreTreesOf tree is) :
    AreTreesOf (fun values : List β => array (values.map tree)) (IsListOf is) := by
  intro j
  constructor
  · rintro ⟨items, rfl, hitems⟩
    have hrange : items ∈ Set.range (List.map tree) := by
      rw [Set.range_list_map]
      exact fun item hitem => ((h item).1 (hitems item hitem)).imp fun _ => Eq.symm
    obtain ⟨values, rfl⟩ := hrange
    exact ⟨values, rfl⟩
  · rintro ⟨values, rfl⟩
    exact ⟨_, rfl, List.forall_mem_map.2 fun a _ => (h _).2 ⟨a, rfl⟩⟩

end Json

/-- A type that is read from the trees of its values, and from no other trees. -/
def ReadsJust [Wire β] (tree : β → Json) : Prop :=
  ∀ j a, (decode j : Except DecodeError β) = .ok a ↔ j = tree a

/-- Nothing but a whole number in range is read as one. -/
theorem Json.decodeNatural_eq_ok {expected : String} {limit n : Nat} {j : Json}
    (h : j.decodeNatural expected limit = .ok n) : j = .ofNat n ∧ n < limit := by
  cases j with
  | number number =>
    cases number with
    | integer value =>
      rw [decodeNatural] at h
      split at h
      · rename_i hrange
        obtain rfl := Except.ok.inj h
        rw [ofNat, Int.toNat_of_nonneg hrange.1]
        exact ⟨rfl, (Int.toNat_lt hrange.1).2 hrange.2⟩
      · contradiction
    | float => contradiction
  | null | boolean | text | array | object => contradiction

theorem readsJust_natural [Wire β] {toNat : β → Nat} {ofNat : Nat → β} {expected : String} {limit : Nat}
    (hdecode : ∀ j, (decode j : Except DecodeError β) = (j.decodeNatural expected limit).map ofNat)
    (hbelow : ∀ a, toNat a < limit) (hfit : ∀ n < limit, toNat (ofNat n) = n) (hback : ∀ a, ofNat (toNat a) = a) :
    ReadsJust fun a => .ofNat (toNat a) := by
  intro j a
  constructor
  · intro h
    rw [hdecode] at h
    obtain ⟨n, hn, rfl⟩ := map_eq_ok_iff.1 h
    obtain ⟨rfl, hlimit⟩ := Json.decodeNatural_eq_ok hn
    exact congrArg Json.ofNat (hfit n hlimit).symm
  · rintro rfl
    rw [hdecode, Json.decodeNatural_ofNat expected (hbelow a)]
    exact congrArg Except.ok (hback a)

theorem readsJust_uint32 : ReadsJust fun n : UInt32 => .ofNat n.toNat :=
  readsJust_natural (fun _ => rfl) UInt32.toNat_lt_size (fun _ => UInt32.toNat_ofNat_of_lt')
    fun _ => UInt32.ofNat_toNat

theorem readsJust_uint64 : ReadsJust fun n : UInt64 => .ofNat n.toNat :=
  readsJust_natural (fun _ => rfl) UInt64.toNat_lt_size (fun _ => UInt64.toNat_ofNat_of_lt')
    fun _ => UInt64.ofNat_toNat

theorem readsJust_int64 : ReadsJust fun n : Int64 => .ofInt n.toInt := by
  intro j n
  constructor
  · intro h
    cases j with
    | number number =>
      cases number with
      | integer value =>
        change (if _ then _ else _) = _ at h
        split at h
        · rename_i hrange
          rw [← Except.ok.inj h]
          exact congrArg Json.ofInt (Int64.toInt_ofInt_of_le hrange.1 (Int.lt_add_one_of_le hrange.2)).symm
        · contradiction
      | float => contradiction
    | null | boolean | text | array | object => contradiction
  · rintro rfl
    exact (readsBack_int64 n).decode_encode

theorem readsJust_bool : ReadsJust Json.boolean := by
  intro j b
  constructor
  · intro h
    cases j with
    | boolean => rw [Except.ok.inj h]
    | null | number | text | array | object => contradiction
  · rintro rfl
    rfl

theorem exists_forall₂_iff {α : Type} {R : α → β → Prop} {xs : List α} :
    (∃ ys, List.Forall₂ R xs ys) ↔ ∀ x ∈ xs, ∃ y, R x y := by
  constructor
  · rintro ⟨ys, h⟩ x hx
    obtain ⟨y, -, hy⟩ := (Json.exists_of_forall₂ h).1 x hx
    exact ⟨y, hy⟩
  · intro h
    induction xs with
    | nil => exact ⟨[], .nil⟩
    | cons x rest ih =>
      obtain ⟨⟨y, hy⟩, hrest⟩ := List.forall_mem_cons.1 h
      obtain ⟨ys, hys⟩ := ih hrest
      exact ⟨y :: ys, .cons hy hys⟩

/-- A list of trees is read element by element, and not at all where one of them is not read. -/
theorem decodeItems_iff [Wire β] {items : List Json} {values : List β} :
    decodeItems items = .ok values ↔
      List.Forall₂ (fun j value => (decode j : Except DecodeError β) = .ok value) items values := by
  induction items generalizing values with
  | nil =>
    rw [List.forall₂_nil_left_iff]
    exact ⟨fun h => (Except.ok.inj h).symm, fun h => congrArg Except.ok h.symm⟩
  | cons j rest ih =>
    rw [decodeItems, bind_eq_ok_iff, List.forall₂_cons_left_iff]
    constructor
    · rintro ⟨value, hvalue, htail⟩
      obtain ⟨tail, htail, hvalues⟩ := bind_eq_ok_iff.1 htail
      exact ⟨value, tail, hvalue, ih.1 htail, (Except.ok.inj hvalues).symm⟩
    · rintro ⟨value, tail, hvalue, htail, rfl⟩
      exact ⟨value, hvalue, bind_eq_ok_iff.2 ⟨tail, ih.2 htail, rfl⟩⟩

theorem ReadsJust.list [Wire β] {tree : β → Json} (h : ReadsJust tree) :
    ReadsJust fun values : List β => .array (values.map tree) := by
  have hitems : ∀ items (values : List β), decodeItems items = .ok values ↔ items = values.map tree := by
    intro items values
    have hrelation : (fun j (a : β) => (decode j : Except DecodeError β) = .ok a) = fun j a => j = tree a := by
      funext j a
      exact propext (h j a)
    rw [decodeItems_iff, hrelation, ← List.forall₂_map_right_iff, List.forall₂_eq_eq_eq]
  intro j values
  constructor
  · intro hread
    cases j with
    | array items => exact congrArg Json.array ((hitems items values).1 hread)
    | null | boolean | number | text | object => contradiction
  · rintro rfl
    exact (hitems _ values).2 rfl

namespace Json

def IsDefaulted (is : Json → Prop) (m : Option Json) : Prop := ∀ j, m = some j → is j

def IsOptional (is : Json → Prop) (m : Option Json) : Prop := ∀ j, m = some j → j = .null ∨ is j

def TellsDefaulted (tells : Json → β → Prop) (default : β) (m : Option Json) (value : β) : Prop :=
  (m = none ∧ value = default) ∨ ∃ j, m = some j ∧ tells j value

def TellsOptional (tree : β → Json) (m : Option Json) : Option β → Prop
  | none => m = none ∨ m = some .null
  | some a => m = some (tree a)

theorem exists_tellsDefaulted_iff {tells : Json → β → Prop} {is : Json → Prop} (h : ∀ j, is j ↔ ∃ a, tells j a)
    {default : β} {m : Option Json} : (∃ a, TellsDefaulted tells default m a) ↔ IsDefaulted is m := by
  constructor
  · rintro ⟨a, ⟨rfl, -⟩ | ⟨j, rfl, hj⟩⟩ k hk
    · contradiction
    · rw [← Option.some.inj hk]
      exact (h j).2 ⟨a, hj⟩
  · intro hm
    cases m with
    | none => exact ⟨default, .inl ⟨rfl, rfl⟩⟩
    | some j =>
      obtain ⟨a, ha⟩ := (h j).1 (hm j rfl)
      exact ⟨a, .inr ⟨j, rfl, ha⟩⟩

theorem AreTreesOf.exists_tellsOptional_iff {tree : β → Json} {is : Json → Prop} (h : AreTreesOf tree is)
    {m : Option Json} : (∃ o, TellsOptional tree m o) ↔ IsOptional is m := by
  constructor
  · rintro ⟨_ | a, hm⟩ j rfl
    · exact .inl (Option.some.inj (hm.resolve_left fun hnone => nomatch hnone))
    · exact .inr ((h j).2 ⟨a, Option.some.inj hm⟩)
  · intro hm
    cases m with
    | none => exact ⟨none, .inl rfl⟩
    | some j =>
      rcases hm j rfl with rfl | hj
      · exact ⟨none, .inr rfl⟩
      · obtain ⟨a, rfl⟩ := (h j).1 hj
        exact ⟨some a, rfl⟩

end Json

theorem takes_tellsDefaulted_iff [Wire β] {tells : Json → β → Prop}
    (h : ∀ j a, (decode j : Except DecodeError β) = .ok a ↔ tells j a) {default value : β} {m : Option Json} :
    Takes (.default default) m value ↔ Json.TellsDefaulted tells default m value := by
  rw [takes_default_iff, Json.TellsDefaulted]
  simp only [h]

theorem ReadsJust.takes_tellsOptional_iff [Wire β] {tree : β → Json} (h : ReadsJust tree)
    (hnull : ∀ a, tree a ≠ .null) {m : Option Json} {o : Option β} :
    Takes (.default none) m o ↔ Json.TellsOptional tree m o := by
  rw [takes_default_iff]
  constructor
  · rintro (⟨rfl, rfl⟩ | ⟨j, rfl, hread⟩)
    · exact .inl rfl
    · by_cases hj : j = .null
      · subst hj
        obtain rfl := Except.ok.inj hread
        exact .inr rfl
      · rw [decode_option hj] at hread
        obtain ⟨a, ha, rfl⟩ := map_eq_ok_iff.1 hread
        exact congrArg some ((h j a).1 ha)
  · intro htells
    cases o with
    | none =>
      rcases htells with rfl | rfl
      · exact .inl ⟨rfl, rfl⟩
      · exact .inr ⟨.null, rfl, rfl⟩
    | some a =>
      refine .inr ⟨tree a, htells, ?_⟩
      rw [decode_option (hnull a), (h (tree a) a).2 rfl]
      rfl

end FrameAtlas

import FrameAtlas.Temporal
import Mathlib.Data.List.Induction

namespace FrameAtlas

namespace IndexMap

variable {β : Type}

theorem ofList_append_singleton (l : List (UInt32 × β)) (e : UInt32 × β) :
    ofList (l ++ [e]) = (ofList l).insert e.1 e.2 := by
  simp only [ofList, List.foldl_append, List.foldl_cons, List.foldl_nil]

/-- Of entries with one index the last counts. -/
theorem get?_ofList (l : List (UInt32 × β)) (key : UInt32) :
    (ofList l).get? key = (l.filter fun e => e.1 == key).getLast?.map (·.2) := by
  induction l using List.reverseRecOn with
  | nil => rfl
  | append_singleton rest e ih =>
    rw [ofList_append_singleton, get?_insert, ih, List.filter_append]
    by_cases h : e.1 = key
    · have hlast : [e].filter (fun e => e.1 == key) = [e] := by simp [h]
      rw [if_pos h, hlast, List.getLast?_concat]
      rfl
    · have hnone : [e].filter (fun e => e.1 == key) = [] := by simp [h]
      rw [if_neg h, hnone, List.append_nil]

/-- The keys of a map ascend. -/
theorem keys_ascending (m : IndexMap β) : m.keys.Pairwise (· < ·) := by
  rw [keys, List.pairwise_map]
  exact m.ascending

theorem nodup_keys (m : IndexMap β) : m.keys.Nodup :=
  m.keys_ascending.imp fun hlt heq => UInt32.ne_of_lt hlt heq

/-- The keys are the indices that something is found for. -/
theorem mem_keys_iff (m : IndexMap β) (key : UInt32) : key ∈ m.keys ↔ (m.get? key).isSome := by
  rw [get?, Option.isSome_map, List.find?_isSome, keys, List.mem_map]
  constructor
  · rintro ⟨e, he, rfl⟩
    exact ⟨e, he, beq_self_eq_true _⟩
  · rintro ⟨e, he, hkey⟩
    exact ⟨e, he, eq_of_beq hkey⟩

theorem mem_keys_ofList (l : List (UInt32 × β)) (key : UInt32) :
    key ∈ (ofList l).keys ↔ ∃ e ∈ l, e.1 = key := by
  rw [mem_keys_iff, get?_ofList, Option.isSome_map, List.getLast?_isSome]
  constructor
  · intro h
    obtain ⟨e, he⟩ := List.exists_mem_of_ne_nil _ h
    obtain ⟨hl, hkey⟩ := List.mem_filter.1 he
    exact ⟨e, hl, eq_of_beq hkey⟩
  · rintro ⟨e, he, rfl⟩
    exact List.ne_nil_of_mem (List.mem_filter.2 ⟨he, beq_self_eq_true _⟩)

theorem ofFirst_cons (e : UInt32 × β) (l : List (UInt32 × β)) :
    ofFirst (e :: l) = (ofFirst l).insert e.1 e.2 := rfl

/-- Of entries with one index the first counts. -/
theorem get?_ofFirst (l : List (UInt32 × β)) (key : UInt32) :
    (ofFirst l).get? key = (l.find? fun e => e.1 == key).map (·.2) := by
  induction l with
  | nil => rfl
  | cons e rest ih =>
    rw [ofFirst_cons, get?_insert, ih]
    by_cases h : e.1 = key
    · rw [if_pos h, List.find?_cons_of_pos (by simpa using h)]
      rfl
    · rw [if_neg h, List.find?_cons_of_neg (by simpa using h)]

theorem mem_of_get?_ofFirst {l : List (UInt32 × β)} {key : UInt32} {x : β} (h : (ofFirst l).get? key = some x) :
    (key, x) ∈ l := by
  rw [get?_ofFirst, Option.map_eq_some_iff] at h
  obtain ⟨e, hfind, rfl⟩ := h
  have hkey : e.1 = key := by simpa using List.find?_some hfind
  rw [← hkey]
  exact List.mem_of_find?_eq_some hfind

/-- Of entries with one index the first counts. -/
theorem get?_ofFirst_append {before : List (UInt32 × β)} {key : UInt32} (h : ∀ e ∈ before, e.1 ≠ key) (x : β)
    (rest : List (UInt32 × β)) : (ofFirst (before ++ (key, x) :: rest)).get? key = some x := by
  have hbefore : before.find? (fun e => e.1 == key) = none := by
    rw [List.find?_eq_none]
    intro e he
    simpa using h e he
  have hfirst : ((key, x) :: rest).find? (fun e => e.1 == key) = some (key, x) :=
    List.find?_cons_of_pos (beq_self_eq_true key)
  rw [get?_ofFirst, List.find?_append, hbefore, hfirst]
  rfl

theorem mem_keys_ofFirst (l : List (UInt32 × β)) (key : UInt32) :
    key ∈ (ofFirst l).keys ↔ key ∈ l.map (·.1) := by
  rw [mem_keys_iff, get?_ofFirst, Option.isSome_map, List.find?_isSome, List.mem_map]
  simp only [beq_iff_eq]

theorem get?_of_mem_entries {m : IndexMap β} {e : UInt32 × β} (h : e ∈ m.entries) :
    m.get? e.1 = some e.2 := by
  obtain ⟨before, behind, hsplit⟩ := List.append_of_mem h
  have hascending := m.ascending
  rw [hsplit, List.pairwise_append] at hascending
  have hfirst : m.entries.find? (fun d => d.1 == e.1) = some e := by
    rw [List.find?_eq_some_iff_append]
    refine ⟨beq_self_eq_true _, before, behind, hsplit, ?_⟩
    intro d hd
    have hlt : d.1 < e.1 := hascending.2.2 d hd e List.mem_cons_self
    simpa using UInt32.ne_of_lt hlt
  rw [get?, hfirst]
  rfl

theorem mem_of_mem_entries_ofFirst {l : List (UInt32 × β)} {e : UInt32 × β} (h : e ∈ (ofFirst l).entries) :
    e ∈ l := mem_of_get?_ofFirst (get?_of_mem_entries h)

/-- The entry below an index is the nearest one there. -/
theorem below?_eq_some {m : IndexMap β} {key : UInt32} {e : UInt32 × β} (h : m.below? key = some e) :
    m.get? e.1 = some e.2 ∧ e.1 < key ∧ ∀ k ∈ m.keys, k < key → k ≤ e.1 := by
  obtain ⟨before, hbefore⟩ := List.getLast?_eq_some_iff.1 h
  have hascending : (before ++ [e]).Pairwise fun a b => a.1 < b.1 := by
    rw [← hbefore]
    exact m.ascending.filter _
  have hmem : e ∈ m.entries.filter fun d => d.1 < key := List.mem_of_getLast? h
  obtain ⟨he, hlt⟩ := List.mem_filter.1 hmem
  refine ⟨get?_of_mem_entries he, by simpa using hlt, ?_⟩
  intro k hk hkey
  obtain ⟨d, hd, rfl⟩ := List.mem_map.1 hk
  have hd' : d ∈ before ++ [e] := by
    rw [← hbefore]
    exact List.mem_filter.2 ⟨hd, by simpa using hkey⟩
  rcases List.mem_append.1 hd' with hin | hin
  · exact UInt32.le_of_lt ((List.pairwise_append.1 hascending).2.2 d hin e List.mem_cons_self)
  · rw [List.mem_singleton.1 hin]
    exact UInt32.le_refl _

/-- Where nothing is found below an index there are no lower keys. -/
theorem below?_eq_none {m : IndexMap β} {key : UInt32} (h : m.below? key = none) :
    ∀ k ∈ m.keys, ¬ k < key := by
  intro k hk hlt
  obtain ⟨d, hd, rfl⟩ := List.mem_map.1 hk
  have hempty := List.getLast?_eq_none_iff.1 h
  have hmem : d ∈ m.entries.filter fun d => d.1 < key := List.mem_filter.2 ⟨hd, by simpa using hlt⟩
  rw [hempty] at hmem
  contradiction

/-- The entry not below an index is the nearest one there. -/
theorem above?_eq_some {m : IndexMap β} {key : UInt32} {e : UInt32 × β} (h : m.above? key = some e) :
    m.get? e.1 = some e.2 ∧ key ≤ e.1 ∧ ∀ k ∈ m.keys, key ≤ k → e.1 ≤ k := by
  obtain ⟨hle, before, behind, hsplit, hbefore⟩ := List.find?_eq_some_iff_append.1 h
  have he : e ∈ m.entries := List.mem_of_find?_eq_some h
  have hascending := m.ascending
  rw [hsplit, List.pairwise_append, List.pairwise_cons] at hascending
  refine ⟨get?_of_mem_entries he, by simpa using hle, ?_⟩
  intro k hk hkey
  obtain ⟨d, hd, rfl⟩ := List.mem_map.1 hk
  rw [hsplit] at hd
  rcases List.mem_append.1 hd with hin | hin
  · have hnot := hbefore d hin
    simp [hkey] at hnot
  · rcases List.mem_cons.1 hin with rfl | hin
    · exact UInt32.le_refl _
    · exact UInt32.le_of_lt (hascending.2.1.1 d hin)

theorem above?_eq_none {m : IndexMap β} {key : UInt32} (h : m.above? key = none) :
    ∀ k ∈ m.keys, ¬ key ≤ k := by
  intro k hk hle
  obtain ⟨d, hd, rfl⟩ := List.mem_map.1 hk
  have hnot := List.find?_eq_none.1 h d hd
  simp [hle] at hnot

theorem insertEntry_perm {key : UInt32} (value : β) {l : List (UInt32 × β)} (h : key ∉ l.map Prod.fst) :
    (insertEntry key value l).Perm ((key, value) :: l) := by
  induction l with
  | nil => exact .refl _
  | cons e rest ih =>
    rw [List.map_cons, List.mem_cons, not_or] at h
    unfold insertEntry
    split
    · exact .refl _
    · split
      · exact ((ih h.2).cons e).trans (.swap _ _ _)
      · rename_i hge hle
        exact absurd (UInt32.le_antisymm (UInt32.not_lt.1 hle) (UInt32.not_lt.1 hge)) h.1

/-- Where no two entries have one index the map holds them all. -/
theorem entries_ofList_perm {l : List (UInt32 × β)} (h : (l.map Prod.fst).Nodup) :
    (ofList l).entries.Perm l := by
  induction l using List.reverseRecOn with
  | nil => exact .refl _
  | append_singleton rest e ih =>
    have hnodup := List.nodup_append.1 (List.map_append ▸ h)
    have hnew : e.1 ∉ (ofList rest).entries.map Prod.fst := by
      intro hmem
      obtain ⟨d, hd, hkey⟩ := (mem_keys_ofList rest e.1).1 hmem
      exact hnodup.2.2 d.1 (List.mem_map_of_mem hd) e.1 (by simp) hkey
    rw [ofList_append_singleton]
    exact (insertEntry_perm e.2 hnew).trans (((ih hnodup.1).cons e).trans (List.perm_append_singleton e rest).symm)

/-- A map is made of its entries, in whatever order they come. -/
theorem ofList_eq_of_perm {m : IndexMap β} {l : List (UInt32 × β)} (h : l.Perm m.entries) : ofList l = m := by
  have hperm : (ofList l).entries.Perm m.entries :=
    (entries_ofList_perm ((h.map Prod.fst).nodup_iff.2 m.nodup_keys)).trans h
  exact IndexMap.ext (hperm.eq_of_pairwise
    (fun a b _ _ hab hba => absurd (UInt32.lt_trans hab hba) (UInt32.lt_irrefl _)) (ofList l).ascending m.ascending)

theorem keys_mapRanked {γ : Type} (f : Nat → β → γ) (m : IndexMap β) :
    (m.mapRanked f).keys = m.keys := by
  apply List.ext_getElem
  · simp [keys, mapRanked]
  · intro i _ _
    simp [keys, mapRanked]

theorem size_mapRanked {γ : Type} (f : Nat → β → γ) (m : IndexMap β) : (m.mapRanked f).size = m.size :=
  List.length_mapIdx

/-- A value is transformed with the place of its entry. -/
theorem get?_mapRanked {γ : Type} (f : Nat → β → γ) {m : IndexMap β} {rank : Nat} {e : UInt32 × β}
    (he : m.entries[rank]? = some e) : (m.mapRanked f).get? e.1 = some (f rank e.2) := by
  have hentry : (m.mapRanked f).entries[rank]? = some (e.1, f rank e.2) := by
    rw [mapRanked, List.getElem?_mapIdx, he]
    rfl
  exact get?_of_mem_entries (List.mem_of_getElem? hentry)

theorem get?_mapRanked_eq_none {γ : Type} (f : Nat → β → γ) {m : IndexMap β} {key : UInt32} (h : key ∉ m.keys) :
    (m.mapRanked f).get? key = none := by
  rw [← keys_mapRanked f, mem_keys_iff, Bool.not_eq_true, Option.isSome_eq_false_iff, Option.isNone_iff_eq_none] at h
  exact h

theorem get?_mapRanked_value {γ : Type} (f : β → γ) (m : IndexMap β) (key : UInt32) :
    (m.mapRanked fun _ b => f b).get? key = (m.get? key).map f := by
  cases hget : m.get? key with
  | none =>
    have hmissing : key ∉ m.keys := by
      rw [mem_keys_iff, hget]
      exact Bool.false_ne_true
    exact get?_mapRanked_eq_none _ hmissing
  | some b =>
    rw [get?, Option.map_eq_some_iff] at hget
    obtain ⟨e, hfind, rfl⟩ := hget
    obtain ⟨rank, hrank⟩ := List.getElem?_of_mem (List.mem_of_find?_eq_some hfind)
    have hkey : e.1 = key := by simpa using List.find?_some hfind
    rw [← hkey]
    exact get?_mapRanked _ hrank

end IndexMap

theorem sortedDistinct_ascending (xs : List UInt32) : (sortedDistinct xs).Pairwise (· < ·) :=
  IndexMap.keys_ascending _

theorem sortedDistinct_nodup (xs : List UInt32) : (sortedDistinct xs).Nodup := IndexMap.nodup_keys _

/-- Sorting loses no value and makes up none. -/
theorem mem_sortedDistinct (xs : List UInt32) (x : UInt32) : x ∈ sortedDistinct xs ↔ x ∈ xs := by
  rw [sortedDistinct, IndexMap.mem_keys_ofList]
  constructor
  · rintro ⟨e, he, rfl⟩
    obtain ⟨y, hy, rfl⟩ := List.mem_map.1 he
    exact hy
  · intro hx
    exact ⟨(x, ()), List.mem_map.2 ⟨x, hx, rfl⟩, rfl⟩

/-- The first of the values in ascending order is the lowest of them. -/
theorem mem_take_one_sortedDistinct (xs : List UInt32) (x : UInt32) :
    x ∈ (sortedDistinct xs).take 1 ↔ x ∈ xs ∧ ∀ y ∈ xs, x ≤ y := by
  have hmem := mem_sortedDistinct xs
  have hascending := sortedDistinct_ascending xs
  cases h : sortedDistinct xs with
  | nil =>
    rw [h] at hmem
    simp only [List.not_mem_nil, false_iff] at hmem
    simp only [List.take_nil, List.not_mem_nil, hmem, false_and]
  | cons first rest =>
    rw [h] at hmem hascending
    have hfirst : ∀ y ∈ xs, first ≤ y := by
      intro y hy
      rcases List.mem_cons.1 ((hmem y).2 hy) with rfl | hrest
      · exact UInt32.le_refl _
      · exact UInt32.le_of_lt (List.rel_of_pairwise_cons hascending hrest)
    rw [List.take_succ_cons, List.take_zero, List.mem_singleton]
    constructor
    · rintro rfl
      exact ⟨(hmem x).1 (List.mem_cons_self), hfirst⟩
    · rintro ⟨hx, hlow⟩
      have hle := hlow first ((hmem first).1 List.mem_cons_self)
      exact UInt32.le_antisymm hle (hfirst x hx)

end FrameAtlas

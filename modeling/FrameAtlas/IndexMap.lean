/-!
Values kept by frame index. A map is an ascending list of its entries, so two maps with the same
entries are the same map. Main statements: what `get?` finds after `insert`, and that `get?`
determines the map.
-/

namespace FrameAtlas

/-- Values by frame index, in ascending order of index. -/
@[ext]
structure IndexMap (β : Type) where
  entries : List (UInt32 × β)
  ascending : entries.Pairwise fun a b => a.1 < b.1

namespace IndexMap

variable {β γ : Type}

instance [BEq β] : BEq (IndexMap β) := ⟨fun a b => a.entries == b.entries⟩

instance [DecidableEq β] : DecidableEq (IndexMap β) := fun a b =>
  if h : a.entries = b.entries then isTrue (IndexMap.ext h)
  else isFalse fun e => h (congrArg entries e)

def empty : IndexMap β := ⟨[], List.Pairwise.nil⟩

instance : Inhabited (IndexMap β) := ⟨empty⟩

def insertEntry (key : UInt32) (value : β) : List (UInt32 × β) → List (UInt32 × β)
  | [] => [(key, value)]
  | e :: rest =>
    if key < e.1 then (key, value) :: e :: rest
    else if e.1 < key then e :: insertEntry key value rest
    else (key, value) :: rest

theorem fst_of_mem_insertEntry {key : UInt32} {value : β} {l : List (UInt32 × β)} {e : UInt32 × β}
    (h : e ∈ insertEntry key value l) : e.1 = key ∨ e ∈ l := by
  induction l with
  | nil => simp_all [insertEntry]
  | cons a rest ih =>
    unfold insertEntry at h
    split at h
    · simp only [List.mem_cons] at h
      rcases h with h | h
      · simp [h]
      · simp [h]
    · split at h
      · simp only [List.mem_cons] at h
        rcases h with h | h
        · simp [h]
        · rcases ih h with hk | hm <;> simp_all
      · simp only [List.mem_cons] at h
        rcases h with h | h <;> simp_all

/-- Setting an entry keeps the entries in ascending order of index. -/
theorem pairwise_insertEntry {key : UInt32} {value : β} {l : List (UInt32 × β)}
    (h : l.Pairwise fun a b => a.1 < b.1) :
    (insertEntry key value l).Pairwise fun a b => a.1 < b.1 := by
  induction l with
  | nil => simp [insertEntry]
  | cons a rest ih =>
    rw [List.pairwise_cons] at h
    unfold insertEntry
    split
    · rename_i hlt
      refine List.pairwise_cons.2 ⟨fun e he => ?_, List.pairwise_cons.2 h⟩
      rcases List.mem_cons.1 he with rfl | he
      · exact hlt
      · exact UInt32.lt_trans hlt (h.1 e he)
    · split
      · rename_i hlt
        refine List.pairwise_cons.2 ⟨fun e he => ?_, ih h.2⟩
        rcases fst_of_mem_insertEntry he with hk | hm
        · rw [hk]; exact hlt
        · exact h.1 e hm
      · rename_i hge hle
        have heq : key = a.1 :=
          UInt32.le_antisymm (UInt32.not_lt.1 hle) (UInt32.not_lt.1 hge)
        exact List.pairwise_cons.2 ⟨fun e he => by simpa [heq] using h.1 e he, h.2⟩

def insert (m : IndexMap β) (key : UInt32) (value : β) : IndexMap β :=
  ⟨insertEntry key value m.entries, pairwise_insertEntry m.ascending⟩

def ofList (l : List (UInt32 × β)) : IndexMap β :=
  l.foldl (fun m e => m.insert e.1 e.2) empty

def ofFirst (l : List (UInt32 × β)) : IndexMap β :=
  l.foldr (fun e m => m.insert e.1 e.2) empty

def get? (m : IndexMap β) (key : UInt32) : Option β :=
  (m.entries.find? fun e => e.1 == key).map (·.2)

def keys (m : IndexMap β) : List UInt32 := m.entries.map (·.1)

def size (m : IndexMap β) : Nat := m.entries.length

def isEmpty (m : IndexMap β) : Bool := m.entries.isEmpty

def below? (m : IndexMap β) (key : UInt32) : Option (UInt32 × β) :=
  (m.entries.filter fun e => e.1 < key).getLast?

def above? (m : IndexMap β) (key : UInt32) : Option (UInt32 × β) :=
  m.entries.find? fun e => key ≤ e.1

def mapRanked (f : Nat → β → γ) (m : IndexMap β) : IndexMap γ :=
  ⟨m.entries.mapIdx fun rank e => (e.1, f rank e.2), by
    rw [List.pairwise_iff_getElem]
    intro i j hi hj hij
    have h := List.pairwise_iff_getElem.1 m.ascending i j (by simpa using hi) (by simpa using hj) hij
    simpa using h⟩

/-- Where an entry is set only the search for its own index finds something else. -/
theorem find?_insertEntry (key other : UInt32) (value : β) (l : List (UInt32 × β))
    (h : l.Pairwise fun a b => a.1 < b.1) :
    ((insertEntry key value l).find? fun e => e.1 == other) =
      if key = other then some (key, value) else l.find? fun e => e.1 == other := by
  induction l with
  | nil => simp only [insertEntry, List.find?_cons, List.find?_nil]; split <;> simp_all
  | cons a rest ih =>
    rw [List.pairwise_cons] at h
    unfold insertEntry
    split
    · rename_i hlt
      by_cases hk : key = other
      · simp [hk]
      · simp [List.find?_cons, hk]
    · split
      · rename_i hge hlt
        rw [List.find?_cons, ih h.2, List.find?_cons]
        by_cases hk : key = other
        · subst hk
          have : (a.1 == key) = false := by
            simp only [beq_eq_false_iff_ne, ne_eq]
            intro e; rw [e] at hlt; exact UInt32.lt_irrefl _ hlt
          simp [this]
        · simp [hk]
      · rename_i hge hle
        have heq : key = a.1 :=
          UInt32.le_antisymm (UInt32.not_lt.1 hle) (UInt32.not_lt.1 hge)
        by_cases hk : key = other
        · simp [hk]
        · have : (a.1 == other) = false := by simpa [← heq] using hk
          simp [hk, this]

/-- A look-up after an insertion finds the new value under its index and the old ones elsewhere. -/
theorem get?_insert (m : IndexMap β) (key other : UInt32) (value : β) :
    (m.insert key value).get? other = if key = other then some value else m.get? other := by
  unfold get? insert
  simp only
  rw [find?_insertEntry _ _ _ _ m.ascending]
  split <;> simp

@[simp] theorem get?_empty (key : UInt32) : (empty : IndexMap β).get? key = none := rfl

end IndexMap

end FrameAtlas

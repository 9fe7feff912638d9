import FrameAtlas.Json.Reader
import Mathlib.Data.List.Forall2

/-!
Trees that differ in the order of members alone. Writers put the members of an object in the order of the
fields, readers keep them in the order of the names; what a tree says does not depend on it.
-/

namespace FrameAtlas

inductive SameMember (R : Json → Json → Prop) : String × Json → String × Json → Prop
  | mk (name : String) {j k : Json} : R j k → SameMember R (name, j) (name, k)

namespace Json

/-- The second tree is the first one with the members of its objects, at any depth, in any order. -/
inductive Reordered : Json → Json → Prop
  | null : Reordered .null .null
  | boolean (b : Bool) : Reordered (.boolean b) (.boolean b)
  | number (n : Number) : Reordered (.number n) (.number n)
  | text (s : String) : Reordered (.text s) (.text s)
  | array {items others : List Json} : List.Forall₂ Reordered items others →
      Reordered (.array items) (.array others)
  | object {members between others : List (String × Json)} :
      List.Forall₂ (SameMember Reordered) members between → between.Perm others →
      Reordered (.object members) (.object others)

structure Restates (members others : List (String × Json)) : Prop where
  forth : ∀ m ∈ members, ∃ n ∈ others, SameMember Reordered m n
  back : ∀ n ∈ others, ∃ m ∈ members, SameMember Reordered m n

theorem Reordered.eq_null {j : Json} (h : Reordered .null j) : j = .null := by
  cases h
  rfl

theorem Reordered.eq_boolean {b : Bool} {j : Json} (h : Reordered (.boolean b) j) : j = .boolean b := by
  cases h
  rfl

theorem Reordered.eq_number {n : Number} {j : Json} (h : Reordered (.number n) j) : j = .number n := by
  cases h
  rfl

theorem Reordered.eq_text {s : String} {j : Json} (h : Reordered (.text s) j) : j = .text s := by
  cases h
  rfl

theorem Reordered.array_split {items : List Json} {j : Json} (h : Reordered (.array items) j) :
    ∃ others, j = .array others ∧ List.Forall₂ Reordered items others := by
  cases h with
  | array hitems => exact ⟨_, rfl, hitems⟩

theorem Reordered.object_split {members : List (String × Json)} {j : Json}
    (h : Reordered (.object members) j) :
    ∃ between others, j = .object others ∧ List.Forall₂ (SameMember Reordered) members between ∧
      between.Perm others := by
  cases h with
  | object hmembers hperm => exact ⟨_, _, rfl, hmembers, hperm⟩

mutual

theorem Reordered.refl : ∀ j : Json, Reordered j j
  | .null => .null
  | .boolean b => .boolean b
  | .number n => .number n
  | .text s => .text s
  | .array items => .array (forall₂_reordered_refl items)
  | .object members => .object (forall₂_sameMember_refl members) (.refl members)

theorem forall₂_reordered_refl : ∀ items : List Json, List.Forall₂ Reordered items items
  | [] => .nil
  | j :: rest => .cons (Reordered.refl j) (forall₂_reordered_refl rest)

theorem forall₂_sameMember_refl :
    ∀ members : List (String × Json), List.Forall₂ (SameMember Reordered) members members
  | [] => .nil
  | (name, j) :: rest => .cons (.mk name (Reordered.refl j)) (forall₂_sameMember_refl rest)

end

/-- Each element of one list has its counterpart in the other. -/
theorem exists_of_forall₂ {β γ : Type} {R : β → γ → Prop} {xs : List β} {ys : List γ}
    (h : List.Forall₂ R xs ys) :
    (∀ x ∈ xs, ∃ y ∈ ys, R x y) ∧ ∀ y ∈ ys, ∃ x ∈ xs, R x y := by
  induction h with
  | nil => exact ⟨fun _ h => absurd h List.not_mem_nil, fun _ h => absurd h List.not_mem_nil⟩
  | cons hxy _ ih =>
    constructor
    · intro z hz
      rcases List.mem_cons.1 hz with rfl | hz
      · exact ⟨_, List.mem_cons_self, hxy⟩
      · obtain ⟨y, hy, hzy⟩ := ih.1 z hz
        exact ⟨y, List.mem_cons_of_mem _ hy, hzy⟩
    · intro z hz
      rcases List.mem_cons.1 hz with rfl | hz
      · exact ⟨_, List.mem_cons_self, hxy⟩
      · obtain ⟨x, hx, hxz⟩ := ih.2 z hz
        exact ⟨x, List.mem_cons_of_mem _ hx, hxz⟩

theorem Reordered.restates {members : List (String × Json)} {j : Json} (h : Reordered (.object members) j) :
    ∃ others, j = .object others ∧ Restates members others := by
  obtain ⟨between, others, rfl, hmembers, hperm⟩ := h.object_split
  obtain ⟨hforth, hback⟩ := exists_of_forall₂ hmembers
  refine ⟨others, rfl, ?_, ?_⟩
  · intro m hm
    obtain ⟨n, hn, hmn⟩ := hforth m hm
    exact ⟨n, hperm.mem_iff.1 hn, hmn⟩
  · intro n hn
    exact hback n (hperm.mem_iff.2 hn)

/-- An object with a single member has no other order. -/
theorem Reordered.single {name : String} {j k : Json} (h : Reordered (.object [(name, j)]) k) :
    ∃ content, k = .object [(name, content)] ∧ Reordered j content := by
  obtain ⟨between, others, rfl, hmembers, hperm⟩ := h.object_split
  obtain ⟨m, rest, hm, hrest, rfl⟩ := List.forall₂_cons_left_iff.1 hmembers
  obtain rfl := List.forall₂_nil_left_iff.1 hrest
  obtain rfl := List.singleton_perm.1 hperm
  cases hm with
  | mk _ hcontent => exact ⟨_, rfl, hcontent⟩

def orderMembers (members : List (String × Json)) : List (String × Json) :=
  members.foldl (fun kept m => insertMember m.1 m.2 kept) []

mutual

def sorted : Json → Json
  | .null => .null
  | .boolean b => .boolean b
  | .number n => .number n
  | .text s => .text s
  | .array items => .array (sortedItems items)
  | .object members => .object (orderMembers (sortedMembers members))

def sortedItems : List Json → List Json
  | [] => []
  | j :: rest => sorted j :: sortedItems rest

def sortedMembers : List (String × Json) → List (String × Json)
  | [] => []
  | (name, j) :: rest => (name, sorted j) :: sortedMembers rest

end

mutual

def NamesDistinct : Json → Prop
  | .null => True
  | .boolean _ => True
  | .number _ => True
  | .text _ => True
  | .array items => NamesDistinctItems items
  | .object members => (members.map Prod.fst).Nodup ∧ NamesDistinctMembers members

def NamesDistinctItems : List Json → Prop
  | [] => True
  | j :: rest => NamesDistinct j ∧ NamesDistinctItems rest

def NamesDistinctMembers : List (String × Json) → Prop
  | [] => True
  | (_, j) :: rest => NamesDistinct j ∧ NamesDistinctMembers rest

end

theorem insertMember_perm {name : String} (j : Json) {members : List (String × Json)}
    (h : name ∉ members.map Prod.fst) : (insertMember name j members).Perm ((name, j) :: members) := by
  induction members with
  | nil => exact .refl _
  | cons m rest ih =>
    rw [List.map_cons, List.mem_cons, not_or] at h
    unfold insertMember
    split
    · exact .refl _
    · split
      · exact ((ih h.2).cons m).trans (.swap _ _ _)
      · rename_i hnotBelow hnotAbove
        exact absurd (String.le_antisymm (String.not_lt.1 hnotAbove) (String.not_lt.1 hnotBelow)) h.1

theorem foldl_insertMember_perm {kept rest : List (String × Json)}
    (h : ((kept ++ rest).map Prod.fst).Nodup) :
    (rest.foldl (fun kept m => insertMember m.1 m.2 kept) kept).Perm (kept ++ rest) := by
  induction rest generalizing kept with
  | nil => rw [List.append_nil]; exact .refl kept
  | cons m rest ih =>
    have hmiddle : (kept ++ m :: rest).Perm ((m :: kept) ++ rest) := List.perm_middle
    have hnew : m.1 ∉ kept.map Prod.fst := by
      have hnodup := (hmiddle.map Prod.fst).nodup_iff.1 h
      intro hm
      obtain ⟨e, he, hname⟩ := List.mem_map.1 hm
      exact (List.nodup_cons.1 hnodup).1 (List.mem_map.2 ⟨e, List.mem_append_left _ he, hname⟩)
    have hinsert : (insertMember m.1 m.2 kept ++ rest).Perm (kept ++ m :: rest) :=
      ((insertMember_perm m.2 hnew).append_right rest).trans hmiddle.symm
    exact (ih ((hinsert.map Prod.fst).nodup_iff.2 h)).trans hinsert

/-- A reader keeps all members whose names are distinct, and sorts them. -/
theorem orderMembers_perm {members : List (String × Json)} (h : (members.map Prod.fst).Nodup) :
    (orderMembers members).Perm members :=
  foldl_insertMember_perm (show (([] ++ members).map Prod.fst).Nodup from h)

/-- Only the search for its own name finds a member that was put in. -/
theorem find?_insertMember (name other : String) (j : Json) (members : List (String × Json)) :
    ((insertMember name j members).find? fun m => m.1 == other) =
      if name = other then some (name, j) else members.find? fun m => m.1 == other := by
  induction members with
  | nil =>
    rw [insertMember, List.find?_cons, List.find?_nil]
    split <;> simp_all
  | cons m rest ih =>
    unfold insertMember
    split
    · by_cases hname : name = other
      · simp [hname]
      · simp [hname]
    · split
      · rename_i hbelow
        have hne : (m.1 == name) = false := by
          rw [beq_eq_false_iff_ne]
          intro heq
          rw [heq] at hbelow
          exact String.lt_irrefl name hbelow
        rw [List.find?_cons, List.find?_cons, ih]
        by_cases hname : name = other
        · subst hname
          simp [hne]
        · simp [hname]
      · rename_i hnotBelow hnotAbove
        have heq : name = m.1 := String.le_antisymm (String.not_lt.1 hnotAbove) (String.not_lt.1 hnotBelow)
        by_cases hname : name = other
        · simp [hname]
        · have hother : (m.1 == other) = false := by simpa [← heq] using hname
          simp [hname, hother]

/-- Members of other names do not touch what was kept under a name. -/
theorem find?_foldl_insertMember {name : String} {rest : List (String × Json)} (h : name ∉ rest.map Prod.fst)
    (kept : List (String × Json)) :
    ((rest.foldl (fun kept m => insertMember m.1 m.2 kept) kept).find? fun m => m.1 == name) =
      kept.find? fun m => m.1 == name := by
  induction rest generalizing kept with
  | nil => rfl
  | cons m rest ih =>
    rw [List.map_cons, List.mem_cons, not_or] at h
    rw [List.foldl_cons, ih h.2, find?_insertMember, if_neg (Ne.symm h.1)]

theorem sortedMembers_append (before after : List (String × Json)) :
    sortedMembers (before ++ after) = sortedMembers before ++ sortedMembers after := by
  induction before with
  | nil => rfl
  | cons m rest ih => rw [List.cons_append, sortedMembers, ih, sortedMembers, List.cons_append]

theorem map_fst_sortedMembers (members : List (String × Json)) :
    (sortedMembers members).map Prod.fst = members.map Prod.fst := by
  induction members with
  | nil => rfl
  | cons m rest ih => rw [sortedMembers, List.map_cons, List.map_cons, ih]

/-- Of members with one name the last one is kept. -/
theorem member?_sorted {name : String} {after : List (String × Json)} (h : name ∉ after.map Prod.fst)
    (before : List (String × Json)) (j : Json) :
    (sorted (.object (before ++ (name, j) :: after))).member? name = some (sorted j) := by
  have hafter : name ∉ (sortedMembers after).map Prod.fst := by
    rw [map_fst_sortedMembers]
    exact h
  rw [sorted, member?, orderMembers, sortedMembers_append, List.foldl_append, sortedMembers, List.foldl_cons,
    find?_foldl_insertMember hafter, find?_insertMember, if_pos rfl]
  rfl

mutual

/-- What a reader keeps of a tree with distinct names is that tree, reordered. -/
theorem reordered_sorted : ∀ {j : Json}, NamesDistinct j → Reordered j (sorted j)
  | .null, _ => .null
  | .boolean b, _ => .boolean b
  | .number n, _ => .number n
  | .text s, _ => .text s
  | .array _, h => .array (forall₂_sortedItems h)
  | .object members, h => by
    have hnames : ((sortedMembers members).map Prod.fst).Nodup := by
      rw [map_fst_sortedMembers]
      exact h.1
    exact .object (forall₂_sortedMembers h.2) (orderMembers_perm hnames).symm

/-- Sorting a list of trees sorts each of them. -/
theorem forall₂_sortedItems : ∀ {items : List Json}, NamesDistinctItems items →
    List.Forall₂ Reordered items (sortedItems items)
  | [], _ => .nil
  | _ :: _, h => .cons (reordered_sorted h.1) (forall₂_sortedItems h.2)

theorem forall₂_sortedMembers : ∀ {members : List (String × Json)}, NamesDistinctMembers members →
    List.Forall₂ (SameMember Reordered) members (sortedMembers members)
  | [], _ => .nil
  | (name, _) :: _, h => .cons (.mk name (reordered_sorted h.1)) (forall₂_sortedMembers h.2)

end

end Json

end FrameAtlas

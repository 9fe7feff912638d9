import FrameAtlas.Proofs.Json.Order

namespace FrameAtlas.Json

theorem mem_names_insertMember {name other : String} {value : Json} {members : List (String × Json)}
    (h : other ∈ (insertMember name value members).map Prod.fst) : other = name ∨ other ∈ members.map Prod.fst := by
  induction members with
  | nil => exact .inl (List.mem_singleton.1 h)
  | cons m rest ih =>
    unfold insertMember at h
    split at h
    · exact List.mem_cons.1 h
    · split at h
      · rcases List.mem_cons.1 h with rfl | hrest
        · exact .inr List.mem_cons_self
        · exact (ih hrest).imp_right (List.mem_cons_of_mem _)
      · exact (List.mem_cons.1 h).imp_right (List.mem_cons_of_mem _)

/-- Members in ascending order stay so when one is put among them. -/
theorem pairwise_insertMember (name : String) (value : Json) {members : List (String × Json)}
    (h : (members.map Prod.fst).Pairwise (· < ·)) :
    ((insertMember name value members).map Prod.fst).Pairwise (· < ·) := by
  induction members with
  | nil => exact List.pairwise_singleton _ _
  | cons m rest ih =>
    obtain ⟨hfirst, hrest⟩ := List.pairwise_cons.1 h
    unfold insertMember
    split
    · rename_i hbelow
      refine List.pairwise_cons.2 ⟨?_, h⟩
      intro other hother
      rcases List.mem_cons.1 hother with rfl | hother
      · exact hbelow
      · exact String.lt_trans hbelow (hfirst other hother)
    · split
      · rename_i habove
        refine List.pairwise_cons.2 ⟨?_, ih hrest⟩
        intro other hother
        rcases mem_names_insertMember hother with rfl | hother
        · exact habove
        · exact hfirst other hother
      · rename_i hnotBelow hnotAbove
        have hsame : name = m.1 := String.le_antisymm (String.not_lt.1 hnotAbove) (String.not_lt.1 hnotBelow)
        rw [List.map_cons, hsame]
        exact h

theorem namesDistinctMembers_insertMember {name : String} {value : Json} (hvalue : NamesDistinct value)
    {members : List (String × Json)} (h : NamesDistinctMembers members) :
    NamesDistinctMembers (insertMember name value members) := by
  induction members with
  | nil => exact ⟨hvalue, trivial⟩
  | cons m rest ih =>
    unfold insertMember
    split
    · exact ⟨hvalue, h⟩
    · split
      · exact ⟨h.1, ih h.2⟩
      · exact ⟨hvalue, h.2⟩

theorem namesDistinctItems_iff (items : List Json) : NamesDistinctItems items ↔ ∀ j ∈ items, NamesDistinct j := by
  induction items with
  | nil => exact ⟨fun _ _ h => absurd h List.not_mem_nil, fun _ => trivial⟩
  | cons j rest ih => rw [NamesDistinctItems, ih, List.forall_mem_cons]

theorem namesDistinctMembers_iff (members : List (String × Json)) :
    NamesDistinctMembers members ↔ ∀ m ∈ members, NamesDistinct m.2 := by
  induction members with
  | nil => exact ⟨fun _ _ h => absurd h List.not_mem_nil, fun _ => trivial⟩
  | cons m rest ih => rw [NamesDistinctMembers, ih, List.forall_mem_cons]

structure Ordered (members : List (String × Json)) : Prop where
  names : (members.map Prod.fst).Pairwise (· < ·)
  values : NamesDistinctMembers members

theorem Ordered.namesDistinct {members : List (String × Json)} (h : Ordered members) :
    NamesDistinct (.object members) := by
  refine ⟨h.names.imp ?_, h.values⟩
  rintro a b hab rfl
  exact String.lt_irrefl a hab

/-- Putting a member in its place leaves no name twice. -/
theorem Ordered.insertMember {members : List (String × Json)} (h : Ordered members) (name : String) {value : Json}
    (hvalue : NamesDistinct value) : Ordered (insertMember name value members) :=
  ⟨pairwise_insertMember name value h.names, namesDistinctMembers_insertMember hvalue h.values⟩

structure ReadsDistinct (fuel : Nat) : Prop where
  value : ∀ {depth s j rest}, readValue fuel depth s = some (j, rest) → NamesDistinct j
  items : ∀ {depth read s items rest}, readItems fuel depth read s = some (items, rest) →
    NamesDistinctItems read → NamesDistinctItems items
  members : ∀ {depth read s members rest}, readMembers fuel depth read s = some (members, rest) →
    Ordered read → Ordered members

theorem namesDistinct_readWord {word s rest : List Char} {value j : Json}
    (h : readWord word value s = some (j, rest)) (hvalue : NamesDistinct value) : NamesDistinct j := by
  unfold readWord at h
  split at h
  · rw [← (Prod.mk.inj (Option.some.inj h)).1]
    exact hvalue
  · contradiction

/-- If what is read in so many steps has distinct names, so has what is read in one step more. -/
theorem readsDistinct_succ {fuel : Nat} (ih : ReadsDistinct fuel) : ReadsDistinct (fuel + 1) where
  value := by
    intro depth s j rest h
    unfold readValue at h
    split at h
    · exact namesDistinct_readWord h trivial
    · exact namesDistinct_readWord h trivial
    · exact namesDistinct_readWord h trivial
    · obtain ⟨p, -, hp⟩ := Option.map_eq_some_iff.1 h
      rw [← (Prod.mk.inj hp).1]
      trivial
    · split at h
      · contradiction
      · split at h
        · rw [← (Prod.mk.inj (Option.some.inj h)).1]
          trivial
        · obtain ⟨p, hitems, hp⟩ := Option.map_eq_some_iff.1 h
          rw [← (Prod.mk.inj hp).1]
          exact ih.items hitems trivial
    · split at h
      · contradiction
      · split at h
        · rw [← (Prod.mk.inj (Option.some.inj h)).1]
          exact ⟨List.nodup_nil, trivial⟩
        · obtain ⟨p, hmembers, hp⟩ := Option.map_eq_some_iff.1 h
          rw [← (Prod.mk.inj hp).1]
          exact (ih.members hmembers ⟨List.Pairwise.nil, trivial⟩).namesDistinct
    · obtain ⟨p, -, hp⟩ := Option.map_eq_some_iff.1 h
      rw [← (Prod.mk.inj hp).1]
      trivial
  items := by
    intro depth read s items rest h hread
    unfold readItems at h
    obtain ⟨⟨item, after⟩, hitem, h⟩ := Option.bind_eq_some_iff.1 h
    have hnext : NamesDistinctItems (item :: read) := ⟨ih.value hitem, hread⟩
    simp only at h
    split at h
    · exact ih.items h hnext
    · rw [← (Prod.mk.inj (Option.some.inj h)).1, namesDistinctItems_iff]
      intro j hj
      exact (namesDistinctItems_iff _).1 hnext j (List.mem_reverse.1 hj)
    · contradiction
  members := by
    intro depth read s members rest h hread
    unfold readMembers at h
    split at h
    · obtain ⟨⟨name, after⟩, -, h⟩ := Option.bind_eq_some_iff.1 h
      simp only at h
      split at h
      · obtain ⟨⟨value, after⟩, hvalue, h⟩ := Option.bind_eq_some_iff.1 h
        have hnext := hread.insertMember name (ih.value hvalue)
        simp only at h
        split at h
        · exact ih.members h hnext
        · rw [← (Prod.mk.inj (Option.some.inj h)).1]
          exact hnext
        · contradiction
      · contradiction
    · contradiction

theorem readsDistinct (fuel : Nat) : ReadsDistinct fuel := by
  induction fuel with
  | zero =>
    refine ⟨?_, ?_, ?_⟩
    · intro depth s j rest h
      rw [readValue] at h
      contradiction
    · intro depth read s items rest h
      rw [readItems] at h
      contradiction
    · intro depth read s members rest h
      rw [readMembers] at h
      contradiction
  | succ fuel ih => exact readsDistinct_succ ih

/-- No object that is read has two members of one name, however often its text repeats one. -/
theorem namesDistinct_of_ofBytes? {data : ByteArray} {j : Json} (h : ofBytes? data = some j) : NamesDistinct j := by
  obtain ⟨s, -, hs⟩ := Option.bind_eq_some_iff.1 h
  obtain ⟨⟨value, rest⟩, hvalue, hrest⟩ := Option.bind_eq_some_iff.1 hs
  simp only at hrest
  split at hrest
  · rw [← Option.some.inj hrest]
    exact (readsDistinct _).value hvalue
  · contradiction

end FrameAtlas.Json

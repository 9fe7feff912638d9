import FrameAtlas.Proofs.Session.DefinedKeys

/-!
Keys in doubles. Only the two zeros compare equal without being equal, and no key of a session holds the one below
zero: each of its numbers is positive or a sum with a last term that is not negative. So a memo in doubles gives back
what would be computed, and arrows start and end at the cells of now.
-/

namespace FrameAtlas

open Double

/-- A key is told by its list, the frames it has centers for, and its numbers. -/
theorem LayoutKey.eq_of_numbers_eq {α : Type} {k l : LayoutKey α} (hidentity : k.identity = l.identity)
    (hindices : k.anchors.centers.entries.map Prod.fst = l.anchors.centers.entries.map Prod.fst)
    (hnumbers : k.numbers = l.numbers) : k = l := by
  obtain ⟨identity, ⟨pitch, anchorY, baseArc, slotSpacing, labelGap, labelCharWidth, margin⟩, ⟨centers⟩⟩ := k
  obtain ⟨_, ⟨_, _, _, _, _, _, _⟩, ⟨others⟩⟩ := l
  obtain rfl : identity = _ := hidentity
  simp only [LayoutKey.numbers, List.cons.injEq] at hnumbers
  obtain ⟨rfl, rfl, rfl, rfl, rfl, rfl, rfl, hcenters⟩ := hnumbers
  obtain rfl : centers = others := by
    apply IndexMap.ext
    rw [List.zip_of_prod hindices hcenters, ← List.zip_of_prod rfl rfl]
  rfl

/-- Keys without a zero below zero are equal as soon as they compare equal. -/
theorem LayoutKey.eq_of_isMatch_double {k l : LayoutKey Float} (hk : ∀ x ∈ k.numbers, IsNotNegZero x)
    (hl : ∀ x ∈ l.numbers, IsNotNegZero x) (h : k.isMatch l = true) : k = l := by
  obtain ⟨hidentity, hindices, hnumbers⟩ := isMatch_iff.1 h
  refine eq_of_numbers_eq hidentity hindices ?_
  generalize k.numbers = xs at hk hnumbers
  generalize l.numbers = ys at hl hnumbers
  induction hnumbers with
  | nil => rfl
  | cons hxy _ ih =>
    rw [List.forall_mem_cons] at hk hl
    rw [eq_of_beq hk.1 hl.1 hxy, ih hk.2 hl.2]

/-- No key of a session in doubles holds the zero below zero. -/
theorem Session.isNotNegZero_layoutKey (s : Session Float) (v : Viewport Float) :
    ∀ x ∈ (s.layoutKey v).numbers, IsNotNegZero x := by
  obtain ⟨pitch, -, hpitch, hnumbers⟩ := s.numbers_layoutKey v
  intro x hx
  rw [hnumbers, List.mem_append, List.mem_cons, List.mem_cons] at hx
  rcases hx with (rfl | rfl | hmeasure) | hcenter
  · exact hpitch
  · have hgap := (isNonneg_natCast arrowBandGap).isNotNegZero
    exact isNotNegZero_add fun h => hgap h.2
  · obtain ⟨n, -, rfl⟩ := List.mem_map.1 hmeasure
    exact (isNonneg_natCast n).isNotNegZero
  · obtain ⟨r, hr, rfl⟩ := s.mem_centers_of_arrowAnchors v hcenter
    have hwidth : IsNonneg r.w := Strip.isNonneg_w_compute s.frames v s.sizing r.w (List.mem_map_of_mem hr)
    have hhalf := (hwidth.div Strip.isPositive_two).isNotNegZero
    exact isNotNegZero_add fun h => hhalf h.2

/-- What sessions ask layouts for in doubles is equal as soon as it compares equal. -/
theorem hasExactKeys_double : HasExactKeys Float :=
  fun s t v w h => LayoutKey.eq_of_isMatch_double (s.isNotNegZero_layoutKey v) (t.isNotNegZero_layoutKey w) h

namespace Session

/-- Arrows start and end at the cells of the strip drawn with them, whatever has happened to the session and in
whatever viewport: a source and a target of the list at the centers of their cells, any other target at its distance
from the nearest cell. -/
theorem arrows_follow_cells (events : List (SessionEvent Float)) (hlists : OneListPerIdentity events)
    (v : Viewport Float) (focus : Option UInt32) :
    let s := (new : Session Float).after events
    ∀ a ∈ (s.arrowsFocused v focus).1.layout.arrows, s.FollowsCells v a :=
  followsCells_arrowsFocused hasExactKeys_double events hlists v focus

/-- Arrows of a list in which an index is missing below, one is missing above and one occurs twice, after
the strip has changed under them. -/
theorem arrows_follow_cells_resized :
    let list : Snapshot :=
      ⟨1, [{ index := 4, refs := [9, 0, 4], size := some 30 }, { index := 2, size := some 10 }, { index := 4 }]⟩
    let v : Viewport Float := ⟨-5, 0, 120, 60, 1⟩
    let events : List (SessionEvent Float) := [.replace list, .render .timeline v, .sizing .bySize]
    let s := (new : Session Float).after events
    let arrows := (s.arrowsFocused v (some 4)).1.layout.arrows
    OneListPerIdentity events ∧ arrows.map (fun a => (a.source, a.target)) = [(4, 9), (4, 0), (4, 4)] ∧
      ∀ a ∈ arrows, s.FollowsCells v a := by
  intro list v events s arrows
  have hlists : OneListPerIdentity events := by
    unfold OneListPerIdentity
    decide
  have hpairs : arrows.map (fun a => (a.source, a.target)) = FrameAtlas.references s.frames := by
    have harrows := arrowsFocused_after hasExactKeys_double hlists v (some 4)
    rw [← ArrowLayout.compute_arrows_map_pair s.frames (s.arrowGeometry v) (s.arrowAnchors v)]
    exact congrArg (fun f : FocusedArrows Float => f.layout.arrows.map fun a => (a.source, a.target)) harrows
  have hframes : s.frames = list.frames := by decide +kernel
  refine ⟨hlists, ?_, arrows_follow_cells events hlists v (some 4)⟩
  rw [hpairs, hframes]
  rfl

end Session

end FrameAtlas

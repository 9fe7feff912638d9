import FrameAtlas.Arrow.Request
import FrameAtlas.Proofs.Session.Sources
import FrameAtlas.Scalar.Exact
import Mathlib.Data.List.Forall2

/-!
The memo of arrow layouts as it is seen from outside. A layout is computed anew exactly where a call cannot be
answered by the call just before it, and what is given back is what would be computed, new or not.
-/

namespace FrameAtlas

variable {α : Type}

def LayoutKey.numbers (k : LayoutKey α) : List α :=
  k.geometry.framePitch :: k.geometry.anchorY :: k.geometry.baseArc :: k.geometry.slotSpacing ::
    k.geometry.labelGap :: k.geometry.labelCharWidth :: k.geometry.margin ::
    k.anchors.centers.entries.map Prod.snd

namespace ArrowCacheCall

def request? : ArrowCacheCall α → Option (LayoutRequest α)
  | .nominal s focus g => some ⟨s, focus, g, .empty⟩
  | .layout r => some r
  | .invalidate => none

def key? (call : ArrowCacheCall α) : Option (LayoutKey α) := call.request?.map LayoutRequest.key

theorem eq_invalidate {call : ArrowCacheCall α} (h : call.request? = none) : call = .invalidate := by
  cases call with
  | invalidate => rfl
  | _ => contradiction

end ArrowCacheCall

/-- Whether a call with the second key needs a layout computed, if the call just before it had the first. There
may be no call before it, and either may be no call for a layout. -/
def needsLayout [BEq α] : Option (LayoutKey α) × Option (LayoutKey α) → Bool
  | (_, none) => false
  | (none, some _) => true
  | (some before, some key) => !before.isMatch key

def freshCallsAfter [BEq α] (before : Option (LayoutKey α)) (calls : List (ArrowCacheCall α)) : Nat :=
  ((before :: calls.map ArrowCacheCall.key?).zip (calls.map ArrowCacheCall.key?)).countP needsLayout

/-- The number of calls for a layout that are the first of a history, or the first after the memo was emptied,
or whose key does not compare equal to that of the call just before. -/
def freshCalls [BEq α] (calls : List (ArrowCacheCall α)) : Nat := freshCallsAfter none calls

/-- Histories in which what compares equal is equal: one identity stands for one list, and no two numbers
compare equal without being equal, as the two zeros of doubles do. -/
structure ComparesExactly [BEq α] (calls : List (ArrowCacheCall α)) : Prop where
  lists : ∀ r ∈ calls.filterMap ArrowCacheCall.request?, ∀ t ∈ calls.filterMap ArrowCacheCall.request?,
    r.snapshot.identity = t.snapshot.identity → r.snapshot.frames = t.snapshot.frames
  keys : ∀ r ∈ calls.filterMap ArrowCacheCall.request?, ∀ t ∈ calls.filterMap ArrowCacheCall.request?,
    r.key.isMatch t.key = true → r.key = t.key

section Key

variable [Scalar α] {k l m : LayoutKey α}

/-- Entries compare equal if their indices are the same and their values compare equal. -/
theorem beq_entries_iff {a b : List (UInt32 × α)} :
    (a == b) = true ↔ a.map Prod.fst = b.map Prod.fst ∧
      List.Forall₂ (fun x y => (x == y) = true) (a.map Prod.snd) (b.map Prod.snd) := by
  induction a generalizing b with
  | nil => cases b <;> simp
  | cons e rest ih =>
    cases b with
    | nil => simp
    | cons e' rest' =>
      have hpair : (e == e') = (e.1 == e'.1 && e.2 == e'.2) := rfl
      rw [List.cons_beq_cons, hpair, Bool.and_eq_true, Bool.and_eq_true, ih, beq_iff_eq]
      simp only [List.map_cons, List.cons.injEq, List.forall₂_cons]
      tauto

/-- Keys match if they have one list, centers for the same frames, and numbers that compare equal. -/
theorem isMatch_iff : k.isMatch l = true ↔
    k.identity = l.identity ∧
      k.anchors.centers.entries.map Prod.fst = l.anchors.centers.entries.map Prod.fst ∧
      List.Forall₂ (fun x y => (x == y) = true) k.numbers l.numbers := by
  have hgeometry : (k.geometry == l.geometry) = (k.geometry.framePitch == l.geometry.framePitch &&
      (k.geometry.anchorY == l.geometry.anchorY && (k.geometry.baseArc == l.geometry.baseArc &&
      (k.geometry.slotSpacing == l.geometry.slotSpacing && (k.geometry.labelGap == l.geometry.labelGap &&
      (k.geometry.labelCharWidth == l.geometry.labelCharWidth &&
        k.geometry.margin == l.geometry.margin)))))) := rfl
  have hanchors : (k.anchors == l.anchors) = (k.anchors.centers.entries == l.anchors.centers.entries) := rfl
  rw [LayoutKey.isMatch, hgeometry, hanchors]
  simp only [Bool.and_eq_true, beq_entries_iff, LayoutKey.numbers, List.forall₂_cons, beq_iff_eq]
  tauto

/-- A key matches itself unless one of its numbers is undefined. -/
theorem isMatch_self_iff : k.isMatch k = true ↔ ∀ x ∈ k.numbers, Scalar.isUndefined x = false := by
  rw [isMatch_iff, List.forall₂_same]
  simp [Scalar.isUndefined]

section Equivalence

variable [PartialEquivBEq α]

theorem isMatch_symm (h : k.isMatch l = true) : l.isMatch k = true := by
  obtain ⟨hidentity, hindices, hnumbers⟩ := isMatch_iff.1 h
  have hflipped : List.Forall₂ (fun x y => (x == y) = true) l.numbers k.numbers :=
    List.Forall₂.flip (hnumbers.imp fun _ _ hxy => PartialEquivBEq.symm hxy)
  exact isMatch_iff.2 ⟨hidentity.symm, hindices.symm, hflipped⟩

/-- Matching keys can be followed from one call to the next, where numbers compare transitively. -/
theorem isMatch_trans (hkl : k.isMatch l = true) (hlm : l.isMatch m = true) : k.isMatch m = true := by
  obtain ⟨hidentity, hindices, hnumbers⟩ := isMatch_iff.1 hkl
  obtain ⟨hidentity', hindices', hnumbers'⟩ := isMatch_iff.1 hlm
  have htrans : ∀ {a b c : List α}, List.Forall₂ (fun x y => (x == y) = true) a b →
      List.Forall₂ (fun x y => (x == y) = true) b c → List.Forall₂ (fun x y => (x == y) = true) a c := by
    intro a b c hab
    induction hab generalizing c with
    | nil => exact fun hbc => hbc
    | cons hxy _ ih =>
      intro hbc
      obtain ⟨z, rest, hyz, hrest, rfl⟩ := List.forall₂_cons_left_iff.1 hbc
      exact .cons (PartialEquivBEq.trans hxy hyz) (ih hrest)
  exact isMatch_iff.2 ⟨hidentity.trans hidentity', hindices.trans hindices', htrans hnumbers hnumbers'⟩

/-- Keys that match each other match the same keys. -/
theorem isMatch_congr (h : k.isMatch l = true) (m : LayoutKey α) : k.isMatch m = l.isMatch m := by
  rw [Bool.eq_iff_iff]
  exact ⟨isMatch_trans (isMatch_symm h), isMatch_trans h⟩

/-- A key with an undefined number is never matched, so its layout is computed each time. -/
theorem isMatch_eq_false_of_undefined (h : ∃ x ∈ l.numbers, Scalar.isUndefined x = true) (k : LayoutKey α) :
    k.isMatch l = false := by
  obtain ⟨x, hx, hundefined⟩ := h
  by_contra hmatch
  rw [Bool.not_eq_false] at hmatch
  -- What matches anything matches itself as well, and an undefined number does not.
  have hself : l.isMatch l = true := isMatch_trans (isMatch_symm hmatch) hmatch
  rw [isMatch_self_iff.1 hself x hx] at hundefined
  contradiction

end Equivalence

end Key

namespace ArrowCache

variable [Scalar α] {c : ArrowCache α}

theorem handle_of_request {call : ArrowCacheCall α} {r : LayoutRequest α} (h : call.request? = some r) :
    c.handle call = (some (c.layout r.snapshot r.focus r.geometry r.anchors).1,
      (c.layout r.snapshot r.focus r.geometry r.anchors).2) := by
  cases call with
  | nominal s focus g => rw [← Option.some.inj h]; rfl
  | layout request => rw [← Option.some.inj h]; rfl
  | invalidate => contradiction

def Recalls (c : ArrowCache α) (before : Option (LayoutKey α)) : Prop :=
  ∀ key, (c.lookup? key).isSome = before.any fun k => k.isMatch key

theorem recalls_empty : (empty : ArrowCache α).Recalls none := fun _ => rfl

/-- The memo answers exactly what matches the key that it holds. -/
theorem isSome_lookup?_of_entry {key : LayoutKey α} {held : ArrowLayout α}
    (h : c.entry = some (key, held)) (k : LayoutKey α) : (c.lookup? k).isSome = key.isMatch k := by
  rw [lookup?, h]
  by_cases hmatch : key.isMatch k = true <;> simp [hmatch]

/-- One call: the count goes up if the call before cannot answer it, and the memo then recalls this one. -/
theorem Recalls.handle [PartialEquivBEq α] {before : Option (LayoutKey α)} (h : c.Recalls before)
    (call : ArrowCacheCall α) :
    (c.handle call).2.Recalls call.key? ∧
      (c.handle call).2.computations = c.computations + if needsLayout (before, call.key?) then 1 else 0 := by
  cases hrequest : call.request? with
  | none =>
    obtain rfl := ArrowCacheCall.eq_invalidate hrequest
    exact ⟨fun _ => rfl, rfl⟩
  | some r =>
    have hkey : call.key? = some r.key := by rw [ArrowCacheCall.key?, hrequest]; rfl
    have hneeds : needsLayout (before, some r.key) = !(c.lookup? r.key).isSome := by
      rw [h r.key]
      cases before <;> rfl
    rw [handle_of_request hrequest, hkey, hneeds]
    rcases layout_cases c r with ⟨key, held, hentry, hmatch, hlayout⟩ | ⟨hlookup, hlayout⟩
    -- What is held may be under another key than the one asked for now, but the two match the same keys.
    · have hheld := isSome_lookup?_of_entry hentry
      rw [hlayout, hheld r.key, hmatch]
      refine ⟨?_, rfl⟩
      intro k
      rw [hheld k, isMatch_congr hmatch k]
      rfl
    · rw [hlayout, hlookup]
      refine ⟨?_, rfl⟩
      intro k
      exact isSome_lookup?_of_entry rfl k

/-- After any history the memo answers what matches the last key, and has computed once for each fresh call. -/
theorem Recalls.after [PartialEquivBEq α] {before : Option (LayoutKey α)} (h : c.Recalls before)
    (calls : List (ArrowCacheCall α)) :
    (∃ last, (c.after calls).Recalls last) ∧
      (c.after calls).computations = c.computations + freshCallsAfter before calls := by
  induction calls generalizing c before with
  | nil => exact ⟨⟨before, h⟩, rfl⟩
  | cons call rest ih =>
    obtain ⟨hrecalls, hcount⟩ := h.handle call
    obtain ⟨hlast, hrest⟩ := ih hrecalls
    refine ⟨hlast, ?_⟩
    have hfresh : freshCallsAfter before (call :: rest) =
        freshCallsAfter call.key? rest + if needsLayout (before, call.key?) then 1 else 0 := by
      rw [freshCallsAfter, List.map_cons, List.zip_cons_cons, List.countP_cons]
      rfl
    rw [after_cons, hrest, hcount, hfresh]
    omega

def HoldsAnswer (requests : List (LayoutRequest α)) (c : ArrowCache α) : Prop :=
  ∀ key held, c.entry = some (key, held) → ∃ r ∈ requests, r.key = key ∧ r.answer.layout = held

theorem HoldsAnswer.handle {requests : List (LayoutRequest α)} (h : c.HoldsAnswer requests)
    {call : ArrowCacheCall α} (hcall : ∀ r, call.request? = some r → r ∈ requests) :
    (c.handle call).2.HoldsAnswer requests := by
  cases hrequest : call.request? with
  | none =>
    obtain rfl := ArrowCacheCall.eq_invalidate hrequest
    intro key held hentry
    contradiction
  | some r =>
    rw [handle_of_request hrequest]
    rcases layout_cases c r with ⟨key, held, hentry, hmatch, hlayout⟩ | ⟨hlookup, hlayout⟩
    · rw [hlayout]
      exact h
    · rw [hlayout]
      intro key held hentry
      obtain ⟨rfl, rfl⟩ := Prod.mk.inj (Option.some.inj hentry)
      exact ⟨r, hcall r hrequest, rfl, rfl⟩

/-- Whatever the memo holds after a history was computed for a request of the history. -/
theorem HoldsAnswer.after {requests : List (LayoutRequest α)} (h : c.HoldsAnswer requests)
    {calls : List (ArrowCacheCall α)} (hcalls : ∀ r ∈ calls.filterMap ArrowCacheCall.request?, r ∈ requests) :
    (c.after calls).HoldsAnswer requests := by
  induction calls generalizing c with
  | nil => exact h
  | cons call rest ih =>
    apply ih
    · apply h.handle
      intro r hr
      exact hcalls r (List.mem_filterMap.2 ⟨call, List.mem_cons_self, hr⟩)
    · intro r hr
      obtain ⟨other, hother, hrequest⟩ := List.mem_filterMap.1 hr
      exact hcalls r (List.mem_filterMap.2 ⟨other, List.mem_cons_of_mem call hother, hrequest⟩)

/-- Where what compares equal is equal, a held answer is the answer to what is asked. -/
theorem HoldsAnswer.answer {calls : List (ArrowCacheCall α)} (hexact : ComparesExactly calls)
    (h : c.HoldsAnswer (calls.filterMap ArrowCacheCall.request?)) {r : LayoutRequest α}
    (hr : r ∈ calls.filterMap ArrowCacheCall.request?) :
    (c.layout r.snapshot r.focus r.geometry r.anchors).1 = r.answer := by
  rcases layout_cases c r with ⟨key, held, hentry, hmatch, hlayout⟩ | ⟨hlookup, hlayout⟩
  · obtain ⟨t, ht, rfl, rfl⟩ := h key held hentry
    have hkeys : t.key = r.key := hexact.keys t ht r hr hmatch
    obtain ⟨hidentity, hgeometry, hanchors⟩ := LayoutKey.mk.inj hkeys
    have hframes : t.snapshot.frames = r.snapshot.frames := hexact.lists t ht r hr hidentity
    rw [hlayout, LayoutRequest.answer, LayoutRequest.answer, hframes, hgeometry, hanchors]
  · rw [hlayout]

/-- The memo is sound and exact. Every call for a layout gives back what would be computed for it, and a layout
is computed as often as calls need one: never for another focus alone, always for a key with an undefined
number and for another list, equal or not. -/
theorem memo_sound_and_exact [PartialEquivBEq α] (calls : List (ArrowCacheCall α)) :
    let c : ArrowCache α := empty.after calls
    c.computations = freshCalls calls ∧
      ∀ call r, call.request? = some r →
        let asked := (c.handle call).2
        (ComparesExactly (calls ++ [call]) → (c.handle call).1 = some r.answer) ∧
          ((∃ x ∈ r.key.numbers, Scalar.isUndefined x = true) → asked.computations = c.computations + 1) ∧
          ∀ next t, next.request? = some t →
            ((∀ x ∈ r.key.numbers, Scalar.isUndefined x = false) → (∃ focus, t = { r with focus := focus }) →
              (asked.handle next).2.computations = asked.computations) ∧
            (t.snapshot.identity ≠ r.snapshot.identity →
              (asked.handle next).2.computations = asked.computations + 1) := by
  intro c
  obtain ⟨⟨last, hlast⟩, hcount⟩ := recalls_empty.after calls
  refine ⟨hcount.trans (Nat.zero_add _), ?_⟩
  intro call r hcall asked
  have hkey : call.key? = some r.key := by rw [ArrowCacheCall.key?, hcall]; rfl
  obtain ⟨hrecalls, hasked⟩ := hlast.handle call
  rw [hkey] at hrecalls hasked
  refine ⟨?_, ?_, ?_⟩
  · intro hexact
    have hr : r ∈ (calls ++ [call]).filterMap ArrowCacheCall.request? :=
      List.mem_filterMap.2 ⟨call, List.mem_append_right _ List.mem_cons_self, hcall⟩
    have hempty : (empty : ArrowCache α).HoldsAnswer ((calls ++ [call]).filterMap ArrowCacheCall.request?) := by
      intro key held hentry
      contradiction
    have hholds : c.HoldsAnswer ((calls ++ [call]).filterMap ArrowCacheCall.request?) := by
      apply hempty.after
      intro t ht
      rw [List.filterMap_append]
      exact List.mem_append_left _ ht
    rw [handle_of_request hcall]
    exact congrArg some (hholds.answer hexact hr)
  · intro hundefined
    have hneeds : needsLayout (last, some r.key) = true := by
      cases last with
      | none => rfl
      | some before => exact congrArg not (isMatch_eq_false_of_undefined hundefined before)
    rw [hneeds] at hasked
    exact hasked
  · intro next t hnext
    have hnextKey : next.key? = some t.key := by rw [ArrowCacheCall.key?, hnext]; rfl
    obtain ⟨-, hcomputed⟩ := hrecalls.handle next
    rw [hnextKey] at hcomputed
    refine ⟨?_, ?_⟩
    · rintro hdefined ⟨focus, rfl⟩
      have hself : r.key.isMatch r.key = true := isMatch_self_iff.2 hdefined
      have hneeds : needsLayout (some r.key, some { r with focus := focus }.key) = false := congrArg not hself
      rw [hneeds] at hcomputed
      exact hcomputed
    · intro hother
      have hdiffers : r.key.isMatch t.key = false := by
        by_contra hmatch
        rw [Bool.not_eq_false] at hmatch
        exact hother (isMatch_iff.1 hmatch).1.symm
      have hneeds : needsLayout (some r.key, some t.key) = true := congrArg not hdiffers
      rw [hneeds] at hcomputed
      exact hcomputed

/-- The same frames under another identity, asked for after the memo was emptied. -/
theorem memo_sound_and_exact_for_copy :
    let list : Snapshot := ⟨1, [{ index := 0, kind := .intra }, { index := 1, refs := [0, 7] }]⟩
    let copy : Snapshot := ⟨2, list.frames⟩
    let g : ArrowGeometry Rat := .default
    let calls : List (ArrowCacheCall Rat) := [.nominal list (some 1) g, .layout ⟨list, none, g, .empty⟩,
      .nominal copy (some 1) g, .invalidate]
    let r : LayoutRequest Rat := ⟨copy, some 0, g, .empty⟩
    let c : ArrowCache Rat := empty.after calls
    let asked := (c.handle (.layout r)).2
    c.computations = 2 ∧ ComparesExactly (calls ++ [.layout r]) ∧ (c.handle (.layout r)).1 = some r.answer ∧
      (asked.handle (.nominal copy none g)).2.computations = asked.computations ∧
      (asked.handle (.nominal list none g)).2.computations = asked.computations + 1 := by
  intro list copy g calls r c asked
  obtain ⟨hcount, hcalls⟩ := memo_sound_and_exact calls
  have hfresh : freshCalls calls = 2 := by decide +kernel
  have hexact : ComparesExactly (calls ++ [.layout r]) :=
    ⟨by decide +kernel, fun _ _ _ _ h => LayoutKey.eq_of_isMatch h⟩
  obtain ⟨hanswer, -, hnext⟩ := hcalls (.layout r) r rfl
  have hdefined : ∀ x ∈ r.key.numbers, Scalar.isUndefined x = false := by decide +kernel
  refine ⟨hcount.trans hfresh, hexact, hanswer hexact, ?_, ?_⟩
  · exact (hnext (.nominal copy none g) _ rfl).1 hdefined ⟨none, rfl⟩
  · exact (hnext (.nominal list none g) _ rfl).2 (by decide)

end ArrowCache

end FrameAtlas

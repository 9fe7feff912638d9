import FrameAtlas.Frame.Listing
import FrameAtlas.Proofs.Json.ReadBack
import FrameAtlas.Proofs.Json.Text

namespace FrameAtlas

variable {β : Type}

def present (slots : List (String × Option Json)) : List (String × Json) :=
  slots.filterMap fun s => s.2.map fun j => (s.1, j)

theorem mem_present {slots : List (String × Option Json)} {name : String} {j : Json} :
    (name, j) ∈ present slots ↔ (name, some j) ∈ slots := by
  rw [present, List.mem_filterMap]
  constructor
  · rintro ⟨⟨other, o⟩, hs, hj⟩
    obtain ⟨k, rfl, hk⟩ := Option.map_eq_some_iff.1 hj
    rw [← (Prod.mk.inj hk).1, ← (Prod.mk.inj hk).2]
    exact hs
  · intro hs
    exact ⟨(name, some j), hs, rfl⟩

theorem names_present_sublist (slots : List (String × Option Json)) :
    ((present slots).map Prod.fst).Sublist (slots.map Prod.fst) := by
  induction slots with
  | nil => exact .slnil
  | cons s rest ih =>
    obtain ⟨name, o⟩ := s
    cases o with
    | none => exact ih.cons name
    | some j => exact ih.cons_cons name

/-- A member that has a value holds it, and one that has none is nowhere else either. -/
theorem Describes.gives_slot [Wire β] {slots : List (String × Option Json)} {found : List (String × Json)}
    (h : Describes (present slots) found) (hnames : (slots.map Prod.fst).Nodup) (name : String) {o : Option β}
    (hread : ReadsBack o) (hmem : (name, o.map encode) ∈ slots) : Gives found name (.default none) o := by
  cases o with
  | some a => exact h.gives name hread (mem_present.2 hmem)
  | none =>
    refine h.gives_default ?_
    intro hname
    obtain ⟨⟨_, j⟩, hj, rfl⟩ := List.mem_map.1 hname
    have heq := List.inj_on_of_nodup_map hnames hmem (mem_present.1 hj) rfl
    cases (Prod.mk.inj heq).2

/-- The letter of a kind names it, the mark of an unknown one too. -/
theorem FrameKind.ofName_letter (k : FrameKind) : FrameKind.ofName k.letter = k := by
  cases k <;> decide

theorem readsBack_frameKind (k : FrameKind) : ReadsBack k := by
  intro j hj
  rw [Json.Reordered.eq_text hj]
  exact congrArg Except.ok k.ofName_letter

namespace Frame

def slots (f : Frame) : List (String × Option Json) :=
  [("frameIndex", some (encode f.index)), ("frameType", some (encode f.kind)),
    ("temporalId", f.temporalId.map encode), ("keyFrame", f.keyFrame.map encode),
    ("refFrames", some (encode f.refs)), ("size", f.size.map encode), ("poc", f.poc.map encode),
    ("pts", f.pts.map encode), ("displayOrder", f.displayOrder.map encode),
    ("codingOrder", f.codingOrder.map encode), ("spatialId", f.spatialId.map encode)]

/-- A frame is written with no member twice. -/
theorem nodup_slots (f : Frame) : (f.slots.map Prod.fst).Nodup := by
  show ["frameIndex", "frameType", "temporalId", "keyFrame", "refFrames", "size", "poc", "pts", "displayOrder",
    "codingOrder", "spatialId"].Nodup
  decide

theorem nodup_present_slots (f : Frame) : ((present f.slots).map Prod.fst).Nodup :=
  f.nodup_slots.sublist (names_present_sublist f.slots)

theorem present_cons_some (name : String) (j : Json) (rest : List (String × Option Json)) :
    present ((name, some j) :: rest) = (name, j) :: present rest := rfl

theorem present_cons_map [Wire β] (name : String) (o : Option β) (rest : List (String × Option Json)) :
    present ((name, o.map encode) :: rest) = member name o ++ present rest := by
  cases o <;> rfl

/-- A frame is written as its present members, in a fixed order. -/
theorem encode_eq (f : Frame) : encode f = .object (present f.slots) := by
  simp only [slots, present_cons_some, present_cons_map]
  show Json.object _ = _
  simp only [List.append_assoc, List.cons_append, List.nil_append, present, List.filterMap_nil, List.append_nil]

end Frame

/-- A written frame is read back as it was, whichever optional members it has. -/
theorem readsBack_frame (f : Frame) : ReadsBack f := by
  intro j hj
  rw [Frame.encode_eq] at hj
  obtain ⟨found, rfl, hfound⟩ := hj.describes f.nodup_present_slots
  have hnames := f.nodup_slots
  have hindex : ("frameIndex", encode f.index) ∈ present f.slots := mem_present.2 (by simp [Frame.slots])
  have hkind : ("frameType", encode f.kind) ∈ present f.slots := mem_present.2 (by simp [Frame.slots])
  have hrefs : ("refFrames", encode f.refs) ∈ present f.slots := mem_present.2 (by simp [Frame.slots])
  exact (Record.ReadsAs.start Frame.mk found
    |>.field (hfound.gives "frameIndex" (readsBack_uint32 f.index) hindex)
    |>.field (hfound.gives "frameType" (readsBack_frameKind f.kind) hkind)
    |>.field (hfound.gives_slot hnames "temporalId" (readsBack_optional_uint32 f.temporalId) (by simp [Frame.slots]))
    |>.field (hfound.gives_slot hnames "keyFrame" (readsBack_optional_bool f.keyFrame) (by simp [Frame.slots]))
    |>.field (hfound.gives "refFrames" (readsBack_indices f.refs) hrefs)
    |>.field (hfound.gives_slot hnames "size" (readsBack_optional_uint64 f.size) (by simp [Frame.slots]))
    |>.field (hfound.gives_slot hnames "poc" (readsBack_optional_int64 f.poc) (by simp [Frame.slots]))
    |>.field (hfound.gives_slot hnames "pts" (readsBack_optional_int64 f.pts) (by simp [Frame.slots]))
    |>.field (hfound.gives_slot hnames "displayOrder" (readsBack_optional_uint32 f.displayOrder)
      (by simp [Frame.slots]))
    |>.field (hfound.gives_slot hnames "codingOrder" (readsBack_optional_uint32 f.codingOrder)
      (by simp [Frame.slots]))
    |>.field (hfound.gives_slot hnames "spatialId" (readsBack_optional_uint32 f.spatialId)
      (by simp [Frame.slots]))).decodeMembers

theorem kept_uint32 (depth : Nat) (n : UInt32) : Json.Kept depth (encode n) := by
  have hsize : n.toNat < UInt32.size := n.toNat_lt_size
  refine Json.kept_integer depth ⟨by omega, ?_⟩
  exact Int.ofNat_lt.2 (Nat.lt_trans hsize (by decide))

theorem kept_uint64 (depth : Nat) (n : UInt64) : Json.Kept depth (encode n) := by
  refine Json.kept_integer depth ⟨by omega, ?_⟩
  exact Int.ofNat_lt.2 n.toNat_lt_size

theorem kept_int64 (depth : Nat) (n : Int64) : Json.Kept depth (encode n) :=
  Json.kept_integer depth ⟨n.le_toInt, Int.lt_trans n.toInt_lt (by decide)⟩

theorem kept_indices (depth : Nat) (indices : List UInt32) : Json.Kept (depth + 1) (encode indices) := by
  refine Json.kept_array ?_
  intro j hj
  obtain ⟨n, _, rfl⟩ := List.mem_map.1 hj
  exact kept_uint32 depth n

theorem kept_optional [Wire β] {depth : Nat} (hkept : ∀ a : β, Json.Kept depth (encode a)) (o : Option β) :
    ∀ j ∈ o.map encode, Json.Kept depth j := by
  intro j hj
  obtain ⟨a, -, rfl⟩ := Option.map_eq_some_iff.1 hj
  exact hkept a

theorem kept_slots (depth : Nat) (f : Frame) : ∀ s ∈ f.slots, ∀ j ∈ s.2, Json.Kept (depth + 1) j := by
  have hsome : ∀ k, Json.Kept (depth + 1) k → ∀ j ∈ some k, Json.Kept (depth + 1) j := by
    intro k hk j hj
    rw [← Option.some.inj hj]
    exact hk
  rw [Frame.slots]
  simp only [List.forall_mem_cons]
  exact ⟨hsome _ (kept_uint32 _ f.index), hsome _ (Json.kept_text _ f.kind.letter),
    kept_optional (kept_uint32 _) f.temporalId, kept_optional (Json.kept_boolean _) f.keyFrame,
    hsome _ (kept_indices depth f.refs), kept_optional (kept_uint64 _) f.size, kept_optional (kept_int64 _) f.poc,
    kept_optional (kept_int64 _) f.pts, kept_optional (kept_uint32 _) f.displayOrder,
    kept_optional (kept_uint32 _) f.codingOrder, kept_optional (kept_uint32 _) f.spatialId,
    List.forall_mem_nil _⟩

theorem kept_frame (depth : Nat) (f : Frame) : Json.Kept (depth + 2) (encode f) := by
  rw [Frame.encode_eq]
  refine Json.kept_object f.nodup_present_slots ?_
  rintro ⟨name, j⟩ hm
  exact kept_slots depth f (name, some j) (mem_present.1 hm) j rfl

/-- A list of frames stands three deep: the list, a frame in it, and the references of that frame. -/
theorem kept_frames (depth : Nat) (frames : List Frame) : Json.Kept (depth + 3) (encode frames) := by
  refine Json.kept_array ?_
  intro j hj
  obtain ⟨f, _, rfl⟩ := List.mem_map.1 hj
  exact kept_frame depth f

/-- Frames are read back even if the members of their objects come in another order. -/
theorem decode_reordered_frames {frames : List Frame} {j : Json} (h : (encode frames).Reordered j) :
    ∃ items, j = .array items ∧ decodeItems items = .ok frames := by
  obtain ⟨items, rfl, hitems⟩ := Json.Reordered.array_split h
  exact ⟨items, rfl, decodeItems_eq (fun f _ => readsBack_frame f) hitems⟩

theorem framesOfJson_list {frames : List Frame} {j : Json} (h : (encode frames).Reordered j) :
    framesOfJson j = .ok frames := by
  obtain ⟨items, rfl, hitems⟩ := decode_reordered_frames h
  rw [framesOfJson, frameItems?]
  simp only [hitems]

/-- A frame list written as a list is loaded as it was. -/
theorem loadFrames_list (frames : List Frame) : loadFrames (encode frames).render.toUTF8 = .ok frames := by
  obtain ⟨j, hread, hj⟩ := (kept_frames 124 frames).ofBytes?
  rw [loadFrames, hread]
  exact framesOfJson_list hj

theorem loadFrames_member {frames : List Frame} {data : ByteArray} {members : List (String × Json)} {j : Json}
    (hread : Json.ofBytes? data = some (.object members))
    (hmember : (Json.object members).member? "frames" = some j) (h : (encode frames).Reordered j) :
    loadFrames data = .ok frames := by
  obtain ⟨items, rfl, hitems⟩ := decode_reordered_frames h
  have hframes : frameItems? (.object members) = some items := by
    simp only [frameItems?, hmember]
  rw [loadFrames, hread]
  show framesOfJson (.object members) = _
  rw [framesOfJson, hframes]
  simp only [hitems]

/-- Every frame list is loaded from its own text, and from every text that is read as an object with that list
under its name, such as the text of the list among any other members, if that is read as the tree it was written
from. So what was loaded once, from whatever text, is loaded from its own text again. -/
theorem loadFrames_render (frames : List Frame) :
    loadFrames (encode frames).render.toUTF8 = .ok frames ∧
      (∀ data members j, Json.ofBytes? data = some (.object members) →
        (Json.object members).member? "frames" = some j → (encode frames).Reordered j →
        loadFrames data = .ok frames) ∧
      (∀ before after : List (String × Json), "frames" ∉ after.map Prod.fst →
        let tree := Json.object (before ++ ("frames", encode frames) :: after)
        Json.ofBytes? tree.render.toUTF8 = some tree.sorted → loadFrames tree.render.toUTF8 = .ok frames) ∧
      ∀ data, loadFrames data = .ok frames → loadFrames (encode frames).render.toUTF8 = loadFrames data := by
  have hmember : ∀ data members j, Json.ofBytes? data = some (.object members) →
      (Json.object members).member? "frames" = some j → (encode frames).Reordered j →
      loadFrames data = .ok frames := fun _ _ _ => loadFrames_member
  refine ⟨loadFrames_list frames, hmember, ?_, ?_⟩
  · intro before after hafter tree hread
    have hkept := Json.reordered_sorted (kept_frames 124 frames).names
    exact hmember _ _ _ hread (Json.member?_sorted hafter before (encode frames)) hkept
  · intro data hdata
    rw [hdata]
    exact loadFrames_list frames

theorem loadFrames_render_beside_rate :
    let frames : List Frame :=
      [{ index := 4294967295, kind := .bidirectional, refs := [0, 7], size := some 18446744073709551615,
         poc := some (-9223372036854775808) }, { index := 0, keyFrame := some false }]
    let tree := Json.object
      ([("codec", .text "hevc")] ++ ("frames", encode frames) :: [("rate", .number (.integer 25))])
    Json.ofBytes? tree.render.toUTF8 = some tree.sorted ∧ loadFrames tree.render.toUTF8 = .ok frames ∧
      loadFrames (encode frames).render.toUTF8 = loadFrames tree.render.toUTF8 := by
  intro frames tree
  have hlegible : Json.Legible Json.maxDepth tree :=
    ⟨by decide, trivial, (kept_frames 123 frames).legible, ⟨by decide, by decide⟩, trivial⟩
  have hread := Json.ofBytes?_render hlegible
  have hmember := Json.member?_sorted (show "frames" ∉ [("rate", Json.number (.integer 25))].map Prod.fst by decide)
    [("codec", .text "hevc")] (encode frames)
  have hframes := Json.reordered_sorted (kept_frames 123 frames).names
  have hloaded := (loadFrames_render frames).2.1 _ _ _ hread hmember hframes
  exact ⟨hread, (loadFrames_render frames).2.2.1 _ _ (by decide) hread, (loadFrames_render frames).2.2.2 _ hloaded⟩

end FrameAtlas

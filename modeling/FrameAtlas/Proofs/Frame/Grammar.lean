import FrameAtlas.Proofs.Frame.Listing
import FrameAtlas.Proofs.Json.Names
import FrameAtlas.Proofs.Json.Types

/-!
The grammar of frame lists. Which trees are frames is told of their members alone: every field is read from its own
member, and a list of values like the object that gives them to the fields in order. A frame list is loaded just
when all of its elements are frames.
-/

namespace FrameAtlas

namespace Frame

def fieldNames : List String :=
  ["frameIndex", "frameType", "temporalId", "keyFrame", "refFrames", "size", "poc", "pts", "displayOrder",
    "codingOrder", "spatialId"]

/-- A frame that an object tells of: each field has the value of its own member, or its default. -/
structure IsToldBy (f : Frame) (object : Json) : Prop where
  index : object.member? "frameIndex" = some (.ofNat f.index.toNat)
  kind : Json.TellsDefaulted (fun j k => ∃ s, j = .text s ∧ k = .ofName s) .unknown
    (object.member? "frameType") f.kind
  temporalId : Json.TellsOptional (fun n => .ofNat n.toNat) (object.member? "temporalId") f.temporalId
  keyFrame : Json.TellsOptional .boolean (object.member? "keyFrame") f.keyFrame
  refs : Json.TellsDefaulted (fun j refs => j = .array (refs.map fun n => .ofNat n.toNat)) []
    (object.member? "refFrames") f.refs
  size : Json.TellsOptional (fun n => .ofNat n.toNat) (object.member? "size") f.size
  poc : Json.TellsOptional (fun n => .ofInt n.toInt) (object.member? "poc") f.poc
  pts : Json.TellsOptional (fun n => .ofInt n.toInt) (object.member? "pts") f.pts
  displayOrder : Json.TellsOptional (fun n => .ofNat n.toNat) (object.member? "displayOrder") f.displayOrder
  codingOrder : Json.TellsOptional (fun n => .ofNat n.toNat) (object.member? "codingOrder") f.codingOrder
  spatialId : Json.TellsOptional (fun n => .ofNat n.toNat) (object.member? "spatialId") f.spatialId

end Frame

namespace Json

structure HasFrameMembers (object : Json) : Prop where
  frameIndex : ∃ j, object.member? "frameIndex" = some j ∧ j.IsInteger 0 (2 ^ 32)
  frameType : IsDefaulted IsText (object.member? "frameType")
  temporalId : IsOptional (IsInteger 0 (2 ^ 32)) (object.member? "temporalId")
  keyFrame : IsOptional IsBoolean (object.member? "keyFrame")
  refFrames : IsDefaulted (IsListOf (IsInteger 0 (2 ^ 32))) (object.member? "refFrames")
  size : IsOptional (IsInteger 0 (2 ^ 64)) (object.member? "size")
  poc : IsOptional (IsInteger (-2 ^ 63) (2 ^ 63)) (object.member? "poc")
  pts : IsOptional (IsInteger (-2 ^ 63) (2 ^ 63)) (object.member? "pts")
  displayOrder : IsOptional (IsInteger 0 (2 ^ 32)) (object.member? "displayOrder")
  codingOrder : IsOptional (IsInteger 0 (2 ^ 32)) (object.member? "codingOrder")
  spatialId : IsOptional (IsInteger 0 (2 ^ 32)) (object.member? "spatialId")

/-- Objects stand for themselves, and lists for the object that gives their values to the fields in order. -/
inductive StandsFor : Json → Json → Prop
  | object (members : List (String × Json)) : StandsFor (.object members) (.object members)
  | array (items : List Json) (hfirst : 1 ≤ items.length) (hlast : items.length ≤ 11) :
      StandsFor (.array items) (.object (Frame.fieldNames.zip items))

def IsFrame (item : Json) : Prop := ∃ object, item.StandsFor object ∧ object.HasFrameMembers

def TellsOf (item : Json) (f : Frame) : Prop := ∃ object, item.StandsFor object ∧ f.IsToldBy object

def HoldsFrames (j : Json) (items : List Json) : Prop :=
  j = .array items ∨ j.member? "frames" = some (.array items)

end Json

namespace Frame

theorem hasFields_record : record.HasFields fieldNames :=
  Record.HasFields.start Frame.mk
    |>.field "frameIndex" (by decide) .required rfl
    |>.field "frameType" (by decide) (.default .unknown) rfl
    |>.field "temporalId" (by decide) (.default none) rfl
    |>.field "keyFrame" (by decide) (.default none) rfl
    |>.field "refFrames" (by decide) (.default []) rfl
    |>.field "size" (by decide) (.default none) rfl
    |>.field "poc" (by decide) (.default none) rfl
    |>.field "pts" (by decide) (.default none) rfl
    |>.field "displayOrder" (by decide) (.default none) rfl
    |>.field "codingOrder" (by decide) (.default none) rfl
    |>.field "spatialId" (by decide) (.default none) rfl

/-- Every text names a kind of frame. -/
theorem decode_kind_iff {j : Json} {k : FrameKind} :
    (decode j : Except DecodeError FrameKind) = .ok k ↔ ∃ s, j = .text s ∧ k = .ofName s := by
  constructor
  · intro h
    obtain ⟨s, hs, rfl⟩ := map_eq_ok_iff.1 h
    cases j with
    | text => exact ⟨s, congrArg Json.text (Except.ok.inj hs), rfl⟩
    | null | boolean | number | array | object => contradiction
  · rintro ⟨s, rfl, rfl⟩
    rfl

theorem isText_iff (j : Json) : j.IsText ↔ ∃ k s, j = .text s ∧ k = FrameKind.ofName s :=
  ⟨fun ⟨s, hs⟩ => ⟨_, s, hs, rfl⟩, fun ⟨_, s, hs, _⟩ => ⟨s, hs⟩⟩

/-- An object makes a frame just when there is one that it tells of. -/
theorem exists_isToldBy_iff {object : Json} : (∃ f : Frame, f.IsToldBy object) ↔ object.HasFrameMembers := by
  constructor
  · rintro ⟨f, h⟩
    exact ⟨⟨_, h.index, (Json.areTreesOf_uint32 _).2 ⟨f.index, rfl⟩⟩,
      (Json.exists_tellsDefaulted_iff isText_iff).1 ⟨_, h.kind⟩,
      Json.areTreesOf_uint32.exists_tellsOptional_iff.1 ⟨_, h.temporalId⟩,
      Json.areTreesOf_bool.exists_tellsOptional_iff.1 ⟨_, h.keyFrame⟩,
      (Json.exists_tellsDefaulted_iff Json.areTreesOf_uint32.list).1 ⟨_, h.refs⟩,
      Json.areTreesOf_uint64.exists_tellsOptional_iff.1 ⟨_, h.size⟩,
      Json.areTreesOf_int64.exists_tellsOptional_iff.1 ⟨_, h.poc⟩,
      Json.areTreesOf_int64.exists_tellsOptional_iff.1 ⟨_, h.pts⟩,
      Json.areTreesOf_uint32.exists_tellsOptional_iff.1 ⟨_, h.displayOrder⟩,
      Json.areTreesOf_uint32.exists_tellsOptional_iff.1 ⟨_, h.codingOrder⟩,
      Json.areTreesOf_uint32.exists_tellsOptional_iff.1 ⟨_, h.spatialId⟩⟩
  · intro h
    obtain ⟨_, hindex, hrange⟩ := h.frameIndex
    obtain ⟨index, rfl⟩ := (Json.areTreesOf_uint32 _).1 hrange
    obtain ⟨kind, hkind⟩ := (Json.exists_tellsDefaulted_iff isText_iff).2 h.frameType
    obtain ⟨temporalId, htemporalId⟩ := Json.areTreesOf_uint32.exists_tellsOptional_iff.2 h.temporalId
    obtain ⟨keyFrame, hkeyFrame⟩ := Json.areTreesOf_bool.exists_tellsOptional_iff.2 h.keyFrame
    obtain ⟨refs, hrefs⟩ := (Json.exists_tellsDefaulted_iff Json.areTreesOf_uint32.list).2 h.refFrames
    obtain ⟨size, hsize⟩ := Json.areTreesOf_uint64.exists_tellsOptional_iff.2 h.size
    obtain ⟨poc, hpoc⟩ := Json.areTreesOf_int64.exists_tellsOptional_iff.2 h.poc
    obtain ⟨pts, hpts⟩ := Json.areTreesOf_int64.exists_tellsOptional_iff.2 h.pts
    obtain ⟨displayOrder, hdisplayOrder⟩ := Json.areTreesOf_uint32.exists_tellsOptional_iff.2 h.displayOrder
    obtain ⟨codingOrder, hcodingOrder⟩ := Json.areTreesOf_uint32.exists_tellsOptional_iff.2 h.codingOrder
    obtain ⟨spatialId, hspatialId⟩ := Json.areTreesOf_uint32.exists_tellsOptional_iff.2 h.spatialId
    exact ⟨⟨index, kind, temporalId, keyFrame, refs, size, poc, pts, displayOrder, codingOrder, spatialId⟩, hindex,
      hkind, htemporalId, hkeyFrame, hrefs, hsize, hpoc, hpts, hdisplayOrder, hcodingOrder, hspatialId⟩

/-- A frame is read from an object exactly if the object tells of it, field by field. -/
theorem ofMembers_iff {members : List (String × Json)} {f : Frame} :
    record.ofMembers members = .ok f ↔ f.IsToldBy (.object members) := by
  have huint32 : ∀ {m o}, Takes (.default none) m o ↔ Json.TellsOptional (fun n : UInt32 => .ofNat n.toNat) m o :=
    readsJust_uint32.takes_tellsOptional_iff fun _ h => nomatch h
  have huint64 : ∀ {m o}, Takes (.default none) m o ↔ Json.TellsOptional (fun n : UInt64 => .ofNat n.toNat) m o :=
    readsJust_uint64.takes_tellsOptional_iff fun _ h => nomatch h
  have hint64 : ∀ {m o}, Takes (.default none) m o ↔ Json.TellsOptional (fun n : Int64 => .ofInt n.toInt) m o :=
    readsJust_int64.takes_tellsOptional_iff fun _ h => nomatch h
  have hbool : ∀ {m o}, Takes (.default none) m o ↔ Json.TellsOptional .boolean m o :=
    readsJust_bool.takes_tellsOptional_iff fun _ h => nomatch h
  have hindex : ∀ {m} {n : UInt32}, Takes .required m n ↔ m = some (.ofNat n.toNat) := by
    intro m n
    simp only [takes_required_iff, readsJust_uint32 _ n, exists_eq_right]
  constructor
  · intro h
    -- The last field stands outermost, so each step takes one field off the record.
    obtain ⟨_, h10, spatialId, hspatialId, rfl⟩ := Record.ofMembers_field_iff.1 h
    obtain ⟨_, h9, codingOrder, hcodingOrder, rfl⟩ := Record.ofMembers_field_iff.1 h10
    obtain ⟨_, h8, displayOrder, hdisplayOrder, rfl⟩ := Record.ofMembers_field_iff.1 h9
    obtain ⟨_, h7, pts, hpts, rfl⟩ := Record.ofMembers_field_iff.1 h8
    obtain ⟨_, h6, poc, hpoc, rfl⟩ := Record.ofMembers_field_iff.1 h7
    obtain ⟨_, h5, size, hsize, rfl⟩ := Record.ofMembers_field_iff.1 h6
    obtain ⟨_, h4, refs, hrefs, rfl⟩ := Record.ofMembers_field_iff.1 h5
    obtain ⟨_, h3, keyFrame, hkeyFrame, rfl⟩ := Record.ofMembers_field_iff.1 h4
    obtain ⟨_, h2, temporalId, htemporalId, rfl⟩ := Record.ofMembers_field_iff.1 h3
    obtain ⟨_, h1, kind, hkind, rfl⟩ := Record.ofMembers_field_iff.1 h2
    obtain ⟨_, h0, index, hfirst, rfl⟩ := Record.ofMembers_field_iff.1 h1
    obtain rfl := Except.ok.inj h0
    exact {
      index := hindex.1 hfirst
      kind := (takes_tellsDefaulted_iff fun _ _ => decode_kind_iff).1 hkind
      temporalId := huint32.1 htemporalId
      keyFrame := hbool.1 hkeyFrame
      refs := (takes_tellsDefaulted_iff readsJust_uint32.list).1 hrefs
      size := huint64.1 hsize
      poc := hint64.1 hpoc
      pts := hint64.1 hpts
      displayOrder := huint32.1 hdisplayOrder
      codingOrder := huint32.1 hcodingOrder
      spatialId := huint32.1 hspatialId }
  · intro h
    obtain ⟨index, kind, temporalId, keyFrame, refs, size, poc, pts, displayOrder, codingOrder, spatialId⟩ := f
    refine Record.ofMembers_field_eq_ok ?_ (huint32.2 h.spatialId)
    refine Record.ofMembers_field_eq_ok ?_ (huint32.2 h.codingOrder)
    refine Record.ofMembers_field_eq_ok ?_ (huint32.2 h.displayOrder)
    refine Record.ofMembers_field_eq_ok ?_ (hint64.2 h.pts)
    refine Record.ofMembers_field_eq_ok ?_ (hint64.2 h.poc)
    refine Record.ofMembers_field_eq_ok ?_ (huint64.2 h.size)
    refine Record.ofMembers_field_eq_ok ?_ ((takes_tellsDefaulted_iff readsJust_uint32.list).2 h.refs)
    refine Record.ofMembers_field_eq_ok ?_ (hbool.2 h.keyFrame)
    refine Record.ofMembers_field_eq_ok ?_ (huint32.2 h.temporalId)
    refine Record.ofMembers_field_eq_ok ?_ ((takes_tellsDefaulted_iff fun _ _ => decode_kind_iff).2 h.kind)
    exact Record.ofMembers_field_eq_ok rfl (hindex.2 h.index)

/-- An object is read as a frame just when it tells of one. -/
theorem decode_object_iff {members : List (String × Json)} (hdistinct : (members.map Prod.fst).Nodup) {f : Frame} :
    (decode (.object members) : Except DecodeError Frame) = .ok f ↔ f.IsToldBy (.object members) :=
  (hasFields_record.decodeMembers_iff hdistinct).trans ofMembers_iff

/-- A list is read as a frame like the object that gives its values to the fields in order. -/
theorem decode_array_iff {items : List Json} {f : Frame} :
    (decode (.array items) : Except DecodeError Frame) = .ok f ↔
      1 ≤ items.length ∧ items.length ≤ 11 ∧
        (decode (.object (fieldNames.zip items)) : Except DecodeError Frame) = .ok f := by
  have hlist : (decode (.array items) : Except DecodeError Frame) = .ok f ↔
      items.length ≤ 11 ∧ (decode (.object (fieldNames.zip items)) : Except DecodeError Frame) = .ok f :=
    hasFields_record.decode_array_iff
  rw [hlist, iff_and_self]
  rintro ⟨-, hread⟩
  cases items with
  | nil =>
    have hnone : (([] : List (String × Json)).map Prod.fst).Nodup := List.nodup_nil
    have htells : f.IsToldBy (.object []) := (decode_object_iff hnone).1 hread
    exact nomatch htells.index
  | cons j rest => exact Nat.succ_pos _

/-- A frame is read from an element exactly if the element tells of it, as an object or as a list. -/
theorem decode_iff {item : Json} (hdistinct : item.NamesDistinct) {f : Frame} :
    (decode item : Except DecodeError Frame) = .ok f ↔ item.TellsOf f := by
  cases item with
  | object members =>
    rw [decode_object_iff hdistinct.1]
    constructor
    · exact fun h => ⟨_, .object members, h⟩
    · rintro ⟨_, ⟨⟩, h⟩
      exact h
  | array items =>
    have hzip : ((fieldNames.zip items).map Prod.fst).Nodup :=
      hasFields_record.nodup.sublist (Json.names_zip_sublist fieldNames items)
    rw [decode_array_iff, decode_object_iff hzip]
    constructor
    · rintro ⟨hfirst, hlast, h⟩
      exact ⟨_, .array items hfirst hlast, h⟩
    · rintro ⟨_, hstands, h⟩
      cases hstands with
      | array _ hfirst hlast => exact ⟨hfirst, hlast, h⟩
  | null | boolean | number | text =>
    constructor
    · exact fun h => nomatch h
    · rintro ⟨_, ⟨⟩, -⟩

/-- The elements that tell of some frame are those that are frames. -/
theorem exists_tellsOf_iff {item : Json} : (∃ f, item.TellsOf f) ↔ item.IsFrame := by
  simp only [Json.IsFrame, ← exists_isToldBy_iff]
  constructor
  · rintro ⟨f, object, hstands, htells⟩
    exact ⟨object, hstands, f, htells⟩
  · rintro ⟨object, hstands, f, htells⟩
    exact ⟨f, object, hstands, htells⟩

theorem decodeItems_iff_tellsOf {items : List Json} (hdistinct : ∀ item ∈ items, item.NamesDistinct)
    {frames : List Frame} : decodeItems items = .ok frames ↔ List.Forall₂ Json.TellsOf items frames := by
  rw [decodeItems_iff]
  constructor
  · intro h
    have hboth := (List.forall₂_and_left items frames).2 ⟨hdistinct, h⟩
    exact hboth.imp fun _ _ hread => (decode_iff hread.1).1 hread.2
  · intro h
    have hboth := (List.forall₂_and_left items frames).2 ⟨hdistinct, h⟩
    exact hboth.imp fun _ _ htells => (decode_iff htells.1).2 htells.2

/-- Null stands for no index, no kind and no references. -/
theorem not_isFrame_of_null {members : List (String × Json)} {name : String}
    (hname : name ∈ ["frameIndex", "frameType", "refFrames"])
    (hnull : (Json.object members).member? name = some .null) : ¬(Json.object members).IsFrame := by
  rintro ⟨_, ⟨⟩, h⟩
  simp only [List.mem_cons, List.not_mem_nil, or_false] at hname
  rcases hname with rfl | rfl | rfl
  · obtain ⟨j, hj, n, rfl, -⟩ := h.frameIndex
    exact nomatch hnull.symm.trans hj
  · obtain ⟨s, hs⟩ := h.frameType _ hnull
    exact nomatch hs
  · obtain ⟨items, hitems, -⟩ := h.refFrames _ hnull
    exact nomatch hitems

end Frame

/-- A frame list is a list, or what stands under its name in an object. -/
theorem frameItems?_eq_some_iff {j : Json} {items : List Json} :
    frameItems? j = some items ↔ j.HoldsFrames items := by
  cases j with
  | array others =>
    constructor
    · exact fun h => .inl (congrArg Json.array (Option.some.inj h))
    · rintro (h | h)
      · exact congrArg some (Json.array.inj h)
      · contradiction
  | object members =>
    constructor
    · intro h
      simp only [frameItems?] at h
      split at h
      · rename_i others hmember
        rw [← Option.some.inj h]
        exact .inr hmember
      · contradiction
    · rintro (h | h)
      · contradiction
      · simp only [frameItems?, h]
  | null | boolean | number | text =>
    constructor
    · intro h
      contradiction
    · rintro (h | h)
      · contradiction
      · contradiction

theorem Json.HoldsFrames.namesDistinct {j : Json} {items : List Json} (h : j.HoldsFrames items)
    (hdistinct : j.NamesDistinct) : ∀ item ∈ items, item.NamesDistinct := by
  rw [← namesDistinctItems_iff]
  rcases h with rfl | hmember
  · exact hdistinct
  · cases j with
    | object members =>
      obtain ⟨m, hm, hitems⟩ := Option.map_eq_some_iff.1 hmember
      have hvalue := (namesDistinctMembers_iff members).1 hdistinct.2 m (List.mem_of_find?_eq_some hm)
      rw [hitems] at hvalue
      exact hvalue
    | null | boolean | number | text | array => contradiction

section Loading

variable {data : ByteArray} {j : Json} (hread : Json.ofBytes? data = some j)

include hread

theorem loadFrames_of_decodeItems {items : List Json} (h : j.HoldsFrames items) {frames : List Frame}
    (hitems : decodeItems items = .ok frames) : loadFrames data = .ok frames := by
  simp only [loadFrames, hread, framesOfJson, frameItems?_eq_some_iff.2 h, hitems]

theorem loadFrames_of_decodeItems_error {items : List Json} (h : j.HoldsFrames items) {cause : DecodeError}
    (hitems : decodeItems (α := Frame) items = .error cause) : loadFrames data = .error (.badFrame cause) := by
  simp only [loadFrames, hread, framesOfJson, frameItems?_eq_some_iff.2 h, hitems]

/-- Frames are loaded exactly if the elements tell of them one by one. -/
theorem loadFrames_eq_ok_iff {items : List Json} (h : j.HoldsFrames items) {frames : List Frame} :
    loadFrames data = .ok frames ↔ List.Forall₂ Json.TellsOf items frames := by
  have hdistinct := h.namesDistinct (Json.namesDistinct_of_ofBytes? hread)
  rw [← Frame.decodeItems_iff_tellsOf hdistinct]
  cases hitems : (decodeItems items : Except DecodeError (List Frame)) with
  | ok others => rw [loadFrames_of_decodeItems hread h hitems, Except.ok.injEq, Except.ok.injEq]
  | error cause =>
    rw [loadFrames_of_decodeItems_error hread h hitems]
    constructor
    · exact fun h => nomatch h
    · exact fun h => nomatch h

/-- Only a tree that holds no list of frames is said to miss one. -/
theorem loadFrames_eq_missingFrames_iff :
    loadFrames data = .error .missingFrames ↔ ∀ items, ¬j.HoldsFrames items := by
  constructor
  · intro hmissing items h
    cases hitems : (decodeItems items : Except DecodeError (List Frame)) with
    | ok frames => exact nomatch hmissing.symm.trans (loadFrames_of_decodeItems hread h hitems)
    | error cause =>
      have hbad := Except.error.inj (hmissing.symm.trans (loadFrames_of_decodeItems_error hread h hitems))
      exact nomatch hbad
  · intro h
    have hnone : frameItems? j = none :=
      Option.eq_none_iff_forall_ne_some.2 fun items hitems => h items (frameItems?_eq_some_iff.1 hitems)
    simp only [loadFrames, hread, framesOfJson, hnone]

end Loading

/-- Text that is read as a tree is refused for missing frames just when the tree is no list and holds none under
`frames`. Otherwise it is loaded just when every element is a frame, and then as the frames that the elements tell
of, one for each and in order; one element that is no frame makes the whole text fail. Of an element, members that
are no fields do not matter, and a list of values is read like the object that gives them to the fields in order;
null stands for no value only where a field is optional. -/
theorem loadFrames_accepts_just_frames {data : ByteArray} {j : Json} (hread : Json.ofBytes? data = some j) :
    (loadFrames data = .error .missingFrames ↔ ∀ items, ¬j.HoldsFrames items) ∧
      (∀ items, j.HoldsFrames items →
        ((∃ frames, loadFrames data = .ok frames) ↔ ∀ item ∈ items, item.IsFrame) ∧
        (∀ frames, loadFrames data = .ok frames ↔ List.Forall₂ Json.TellsOf items frames) ∧
        ((∃ item ∈ items, ¬item.IsFrame) → ∃ cause, loadFrames data = .error (.badFrame cause))) ∧
      (∀ members, (decode (.object (members.filter fun m => m.1 ∈ Frame.fieldNames)) : Except DecodeError Frame) =
        decode (.object members)) ∧
      (∀ items f, (decode (.array items) : Except DecodeError Frame) = .ok f ↔
        1 ≤ items.length ∧ items.length ≤ 11 ∧
          (decode (.object (Frame.fieldNames.zip items)) : Except DecodeError Frame) = .ok f) ∧
      ∀ members, ∀ name ∈ ["frameIndex", "frameType", "refFrames"],
        (Json.object members).member? name = some .null → ¬(Json.object members).IsFrame := by
  refine ⟨loadFrames_eq_missingFrames_iff hread, ?_, Frame.hasFields_record.decodeMembers_filter,
    fun items f => Frame.decode_array_iff, fun members name => Frame.not_isFrame_of_null⟩
  intro items h
  have hall : (∃ frames, loadFrames data = .ok frames) ↔ ∀ item ∈ items, item.IsFrame := by
    simp only [loadFrames_eq_ok_iff hread h, exists_forall₂_iff, Frame.exists_tellsOf_iff]
  refine ⟨hall, fun frames => loadFrames_eq_ok_iff hread h, ?_⟩
  rintro ⟨item, hitem, hbad⟩
  cases hitems : (decodeItems items : Except DecodeError (List Frame)) with
  | ok frames => exact absurd (hall.1 ⟨frames, loadFrames_of_decodeItems hread h hitems⟩ item hitem) hbad
  | error cause => exact ⟨cause, loadFrames_of_decodeItems_error hread h hitems⟩

theorem loadFrames_accepts_just_frames_of_both_shapes :
    let inner := Json.object
      [("frameIndex", .number (.integer 4294967295)), ("frameType", .text "IDR_N_LP"),
        ("poc", .number (.integer (-9223372036854775808))), ("size", .null), ("slices", .boolean true)]
    let tree := Json.object
      [("frames", .array [inner, .array [.number (.integer 7), .text "P", .null]]), ("rate", .number (.integer 25))]
    let frames : List Frame :=
      [{ index := 4294967295, kind := .intra, poc := some (-9223372036854775808) }, { index := 7, kind := .inter }]
    Json.ofBytes? tree.render.toUTF8 = some tree ∧ loadFrames tree.render.toUTF8 = .ok frames := by
  intro inner tree frames
  have hlegible : Json.Legible Json.maxDepth tree := by
    simp only [tree, inner, Json.maxDepth, Json.Legible, Json.LegibleItems, Json.LegibleMembers, Json.FitsWord]
    decide
  have hsorted : tree.sorted = tree := by
    simp +decide [tree, inner, Json.sorted, Json.sortedItems, Json.sortedMembers, Json.orderMembers,
      Json.insertMember]
  have hread := Json.ofBytes?_render hlegible
  rw [hsorted] at hread
  have hinner : inner.TellsOf { index := 4294967295, kind := .intra, poc := some (-9223372036854775808) } :=
    ⟨_, .object _, {
      index := rfl
      kind := .inr ⟨_, rfl, _, rfl, by decide⟩
      temporalId := .inl rfl
      keyFrame := .inl rfl
      refs := .inl ⟨rfl, rfl⟩
      size := .inr rfl
      poc := rfl
      pts := .inl rfl
      displayOrder := .inl rfl
      codingOrder := .inl rfl
      spatialId := .inl rfl }⟩
  have hlist : (Json.array [.number (.integer 7), .text "P", .null]).TellsOf { index := 7, kind := .inter } :=
    ⟨_, .array _ (by decide) (by decide), {
      index := rfl
      kind := .inr ⟨_, rfl, _, rfl, by decide⟩
      temporalId := .inr rfl
      keyFrame := .inl rfl
      refs := .inl ⟨rfl, rfl⟩
      size := .inl rfl
      poc := .inl rfl
      pts := .inl rfl
      displayOrder := .inl rfl
      codingOrder := .inl rfl
      spatialId := .inl rfl }⟩
  have hloads := ((loadFrames_accepts_just_frames hread).2.1 _ (.inr rfl)).2.1 frames
  exact ⟨hread, hloads.2 (.cons hinner (.cons hlist .nil))⟩

end FrameAtlas

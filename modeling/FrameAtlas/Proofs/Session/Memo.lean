import FrameAtlas.Proofs.Session.Rebuilding
import FrameAtlas.Scalar.Exact

namespace FrameAtlas

variable {α : Type}

namespace SessionEvent

def opened? : SessionEvent α → Option Snapshot
  | .replace t => some t
  | _ => none

end SessionEvent

def historyLists (events : List (SessionEvent α)) : List Snapshot :=
  Snapshot.initial :: events.filterMap SessionEvent.opened?

theorem historyLists_append (first second : List (SessionEvent α)) :
    historyLists (first ++ second) = historyLists first ++ second.filterMap SessionEvent.opened? := by
  rw [historyLists, List.filterMap_append, ← List.cons_append]
  rfl

/-- Whether one identity stands for one list throughout a history. -/
def OneListPerIdentity (events : List (SessionEvent α)) : Prop :=
  ∀ a ∈ historyLists events, ∀ b ∈ historyLists events, a.identity = b.identity → a.frames = b.frames

/-- Numbers with which the keys that sessions ask layouts for are equal as soon as they compare equal. -/
def HasExactKeys (α : Type) [Scalar α] : Prop :=
  ∀ (s t : Session α) (v w : Viewport α), (s.layoutKey v).isMatch (t.layoutKey w) = true →
    s.layoutKey v = t.layoutKey w

/-- Where comparing equal is being equal, keys are exact. -/
theorem hasExactKeys_of_lawfulBEq [Scalar α] [LawfulBEq α] : HasExactKeys α :=
  fun _ _ _ _ h => LayoutKey.eq_of_isMatch h

namespace Session

variable [Scalar α]

def historySources (hexact : HasExactKeys α) {events : List (SessionEvent α)}
    (hlists : OneListPerIdentity events) : Sources α where
  lists := {t | t ∈ historyLists events}
  viewports := ∅
  keys := {k | ∃ (s : Session α) (v : Viewport α), s.layoutKey v = k}
  initial_mem := List.mem_cons_self
  lists_exact := hlists
  viewports_exact _ hv := hv.elim
  keys_exact := by
    rintro _ ⟨s, v, rfl⟩ _ ⟨t, w, rfl⟩ hmatch
    exact hexact s t v w hmatch

structure Remembers (src : Sources α) (s : Session α) : Prop where
  listed : s.snapshot ∈ src.lists
  explained : src.Explains s.arrowCache

variable {src : Sources α} {s t : Session α}

theorem Remembers.of_same (hs : s.Remembers src) (hlist : t.snapshot = s.snapshot)
    (hcache : t.arrowCache = s.arrowCache) : t.Remembers src where
  listed := hlist ▸ hs.listed
  explained := hcache ▸ hs.explained

theorem Remembers.arrowsFocused (hs : s.Remembers src) {v : Viewport α} (hk : s.layoutKey v ∈ src.keys)
    (focus : Option UInt32) : (s.arrowsFocused v focus).2.Remembers src where
  listed := hs.listed
  explained := (hs.explained.layout hs.listed hk focus).2

/-- What the memo gives back is what would be computed. -/
theorem Remembers.arrowsFocused_eq (hs : s.Remembers src) {v : Viewport α}
    (hk : s.layoutKey v ∈ src.keys) (focus : Option UInt32) :
    (s.arrowsFocused v focus).1 =
      ⟨ArrowLayout.compute s.frames (s.arrowGeometry v) (s.arrowAnchors v), focus⟩ :=
  (hs.explained.layout hs.listed hk focus).1

theorem arrowCache_trackStrip (s : Session α) (v : Viewport α) :
    (s.trackStrip v).2.arrowCache = s.arrowCache := by
  unfold trackStrip
  simp only
  split <;> rfl

theorem Remembers.trackStrip (hs : s.Remembers src) (v : Viewport α) : (s.trackStrip v).2.Remembers src :=
  hs.of_same (sameList_trackStrip s v).snapshot (arrowCache_trackStrip s v)

theorem Remembers.renderTimeline (hs : s.Remembers src) (hkeys : ∀ (t : Session α) w, t.layoutKey w ∈ src.keys)
    (v : Viewport α) : (s.renderTimeline v).2.Remembers src := by
  have hready : (s.readyForArrows v).Remembers src := (hs.trackStrip v).of_same rfl rfl
  exact hready.arrowsFocused (hkeys _ v) _

/-- An event asks the memo for a layout of the list at hand, or leaves it alone. -/
theorem Remembers.handle (hs : s.Remembers src) (hkeys : ∀ (t : Session α) w, t.layoutKey w ∈ src.keys)
    {e : SessionEvent α} (he : ∀ t, e = .replace t → t ∈ src.lists) :
    (s.handle e).session.Remembers src := by
  cases e with
  | replace t =>
    show (s.replaceFrames t).Remembers src
    unfold Session.replaceFrames
    split
    · exact hs
    -- The memo keeps the layout of the old list, under the identity of the old list.
    · exact ⟨he t rfl, hs.explained⟩
  | sizing sizing =>
    show (s.setStripSizing sizing).Remembers src
    unfold Session.setStripSizing
    split
    · exact hs
    · exact hs.of_same rfl rfl
  | pointerDown x v => exact (hs.trackStrip v).of_same rfl rfl
  | pointerMove x v =>
    show (s.pointerMove x v).2.Remembers src
    unfold Session.pointerMove
    split
    · exact (hs.trackStrip v).of_same rfl rfl
    · exact hs
  | render surface v =>
    have hsynced : s.synced.Remembers src := hs.of_same rfl rfl
    cases surface with
    | timeline => exact hsynced.renderTimeline hkeys v
    | minimap => exact hsynced
    | pyramid => exact hsynced
    | filmstrip => exact hsynced
  | arrows v => exact hs.arrowsFocused (hkeys s v) _
  | arrowsFocused v focus => exact hs.arrowsFocused (hkeys s v) focus
  | visible range => exact hs.of_same rfl rfl
  | select position => exact hs.of_same rfl rfl
  | step direction => exact hs.of_same rfl rfl
  | pointerUp => exact hs.of_same rfl rfl
  | commit position => exact hs.of_same rfl rfl
  | clear => exact hs.of_same rfl rfl
  | subscribe => exact hs.of_same rfl rfl
  | unsubscribe id => exact hs.of_same rfl rfl

theorem Remembers.after (hs : s.Remembers src) (hkeys : ∀ (t : Session α) w, t.layoutKey w ∈ src.keys)
    {events : List (SessionEvent α)} (he : ∀ t, .replace t ∈ events → t ∈ src.lists) :
    (s.after events).Remembers src := by
  induction events generalizing s with
  | nil => exact hs
  | cons e rest ih =>
    apply ih
    · exact hs.handle hkeys fun t ht => he t (ht ▸ List.mem_cons_self)
    · exact fun t ht => he t (List.mem_cons_of_mem e ht)

theorem layoutKey_mem_historySources (hexact : HasExactKeys α) {events : List (SessionEvent α)}
    (hlists : OneListPerIdentity events) (s : Session α) (v : Viewport α) :
    s.layoutKey v ∈ (historySources hexact hlists).keys := ⟨s, v, rfl⟩

/-- After any history the memo of a session holds nothing but what would be computed for its key. -/
theorem remembers_after (hexact : HasExactKeys α) {events : List (SessionEvent α)}
    (hlists : OneListPerIdentity events) :
    ((new : Session α).after events).Remembers (historySources hexact hlists) := by
  let src := historySources hexact hlists
  have hnew : (new : Session α).Remembers src := ⟨src.initial_mem, src.explains_empty⟩
  apply hnew.after (layoutKey_mem_historySources hexact hlists)
  intro t ht
  exact List.mem_cons_of_mem _ (List.mem_filterMap.2 ⟨.replace t, ht, rfl⟩)

/-- The arrows that a session gives out are laid out for the list, the strip and the focus of now. -/
theorem arrowsFocused_after (hexact : HasExactKeys α) {events : List (SessionEvent α)}
    (hlists : OneListPerIdentity events) (v : Viewport α) (focus : Option UInt32) :
    let s := (new : Session α).after events
    (s.arrowsFocused v focus).1 =
      ⟨ArrowLayout.compute s.frames (s.arrowGeometry v) (s.arrowAnchors v), focus⟩ := by
  intro s
  have hkey := layoutKey_mem_historySources hexact hlists s v
  exact (remembers_after hexact hlists).arrowsFocused_eq hkey focus

end Session

end FrameAtlas

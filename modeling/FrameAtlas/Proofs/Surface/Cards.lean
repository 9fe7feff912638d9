import FrameAtlas.Proofs.Surface.CurrentMark
import FrameAtlas.Proofs.Surface.Rects
import FrameAtlas.Scalar.Exact
import FrameAtlas.Surface.Checked

namespace FrameAtlas.Filmstrip

open CheckedCount

variable {α : Type} {count capacity c : Nat} {current : Option Nat}

def offCenter (length position start : Nat) : Nat :=
  ((start : Int) - ((position : Int) - (length / 2 : Nat))).natAbs

def center (count : Nat) (current : Option Nat) : Nat := (current.filter fun c => c < count).getD 0

theorem center_of_lt (hc : c < count) : center count (some c) = c := by
  have hlisted : (some c).filter (fun c => decide (c < count)) = some c := by simp [hc]
  rw [center, hlisted, Option.getD_some]

/-- Neither a missing nor a stale position is in the list. -/
theorem center_eq_zero (hcurrent : ∀ c, current = some c → count ≤ c) : center count current = 0 := by
  have hnone : current.filter (fun c => decide (c < count)) = none := by
    rw [Option.filter_eq_none_iff]
    intro c hc hlt
    exact Nat.not_lt.2 (hcurrent c hc) (of_decide_eq_true hlt)
  rw [center, hnone, Option.getD_none]

theorem window_of_pos (hcount : 0 < count) (hcapacity : 0 < capacity) (current : Option Nat) :
    window count capacity current =
      ⟨min (center count current - min capacity count / 2) (count - min capacity count),
        min (center count current - min capacity count / 2) (count - min capacity count) + min capacity count⟩ := by
  have hsome : ¬ (count = 0 ∨ capacity = 0) := by omega
  exact if_neg hsome

/-- The first position is found without going below zero. -/
theorem window?_eq (count capacity : Nat) (current : Option Nat) :
    window? count capacity current = some (window count capacity current) := by
  unfold window? window
  split
  · rfl
  · simp only [difference?_of_le (Nat.min_le_right capacity count)]
    rfl

theorem window_inside (count capacity : Nat) (current : Option Nat) :
    (window count capacity current).start ≤ (window count capacity current).stop ∧
      (window count capacity current).stop ≤ count := by
  unfold window
  split
  · exact ⟨Nat.le_refl 0, Nat.zero_le count⟩
  · simp only
    omega

theorem length_window (hcount : 0 < count) (hcapacity : 0 < capacity) (current : Option Nat) :
    (window count capacity current).length = min capacity count := by
  rw [window_of_pos hcount hcapacity, PositionRange.length]
  exact Nat.add_sub_cancel_left _ _

theorem start_window (hcount : 0 < count) (hcapacity : 0 < capacity) (current : Option Nat) :
    (window count capacity current).start =
      min (center count current - min capacity count / 2) (count - min capacity count) := by
  rw [window_of_pos hcount hcapacity]

/-- A window around a position of the list: it lies in the list, is as long as room and list allow, holds the
position, and any other part of the list of that length is farther from having the position in its middle. -/
structure IsCentered (count position : Nat) (r : PositionRange) : Prop where
  contains : r.Contains position
  start_le : r.start ≤ count - r.length
  nearest : ∀ start ≤ count - r.length, start ≠ r.start →
    offCenter r.length position r.start < offCenter r.length position start

/-- The window is the one that holds the position as near to its middle as the ends of the list allow. -/
theorem isCentered_window (hcapacity : 0 < capacity) (hc : c < count) :
    IsCentered count c (window count capacity (some c)) where
  contains := mem_window hcapacity hc
  start_le := by
    have hcount : 0 < count := Nat.zero_lt_of_lt hc
    rw [length_window hcount hcapacity, start_window hcount hcapacity]
    exact Nat.min_le_right _ _
  nearest := by
    have hcount : 0 < count := Nat.zero_lt_of_lt hc
    rw [length_window hcount hcapacity, start_window hcount hcapacity, center_of_lt hc]
    intro start hstart hne
    -- Where the middle would lead beyond an end of the list, all other starts lie farther off on one side.
    unfold offCenter
    omega

theorem start_window_mono (hcapacity : 0 < capacity) {d : Nat} (hcd : c ≤ d) (hd : d < count) :
    (window count capacity (some c)).start ≤ (window count capacity (some d)).start := by
  have hcount : 0 < count := Nat.zero_lt_of_lt hd
  rw [start_window hcount hcapacity, start_window hcount hcapacity, center_of_lt (Nat.lt_of_le_of_lt hcd hd),
    center_of_lt hd]
  omega

/-- One step of the current position moves the window one place at most. -/
theorem start_window_succ_le (hcapacity : 0 < capacity) (hc : c + 1 < count) :
    (window count capacity (some (c + 1))).start ≤ (window count capacity (some c)).start + 1 := by
  have hcount : 0 < count := Nat.zero_lt_of_lt hc
  rw [start_window hcount hcapacity, start_window hcount hcapacity, center_of_lt hc,
    center_of_lt (Nat.lt_of_succ_lt hc)]
  omega

theorem window_of_missing (hcount : 0 < count) (hcapacity : 0 < capacity)
    (hcurrent : ∀ c, current = some c → count ≤ c) :
    window count capacity current = ⟨0, min capacity count⟩ := by
  rw [window_of_pos hcount hcapacity, center_eq_zero hcurrent, Nat.zero_sub, Nat.zero_min, Nat.zero_add]

variable [Scalar α]

def cardRect (v : Viewport α) (current : Option Nat) (place position : Nat) (f : Frame) : RectCommand α where
  rect := ⟨v.x + (place : α) * ((thumbWidth + thumbGap : Nat) : α), v.y, (thumbWidth : α), (thumbHeight : α)⟩
  color := .thumbnailBackground
  borderColor := some (if current == some position then .currentFrame else Color.ofKind f.kind)
  label := some ("Frame " ++ toString f.index.toNat)
  frameIndex := some f.index
  current := current == some position

theorem rectsOf_card (analysis : TemporalAnalysis α) (v : Viewport α) (current : Option Nat) (place position : Nat)
    (f : Frame) : rectsOf (card analysis v current place position f) = [cardRect v current place position f] := by
  have hline (l : LineCommand α) :
      rectsOf (if analysis.isBoundary f.index then [Command.line l] else []) = [] := by
    split
    · rfl
    · rfl
  simp only [card, rectsOf_rect, rectsOf_append, hline, rectsOf_text, rectsOf_nil, List.nil_append]
  rfl

def shown (frames : List Frame) (v : Viewport α) (current : Option Nat) : PositionRange :=
  window frames.length (max (Filmstrip.capacity v.width) 1) current

/-- A filmstrip has a card for each position shown, and no other rectangles. -/
theorem rectsOf_render (frames : List Frame) (analysis : TemporalAnalysis α) (v : Viewport α)
    (current : Option Nat) :
    rectsOf (render frames analysis v current) =
      (Minimap.slice frames (shown frames v current)).mapIdx fun place f =>
        cardRect v current place ((shown frames v current).start + place) f := by
  unfold render
  simp only
  split
  · rename_i hempty
    rw [shown, List.isEmpty_iff.1 hempty]
    rfl
  · rw [rectsOf_append, rectsOf_beginGroup, rectsOf_mapIdx fun place f _ => rectsOf_card analysis v current _ _ f]
    exact List.append_nil _

/-- Each position shown has its own card, and there are no others. -/
theorem cards_render (frames : List Frame) (analysis : TemporalAnalysis α) (v : Viewport α) (current : Option Nat) :
    let cards := rectsOf (render frames analysis v current)
    cards.length = (shown frames v current).length ∧
      ∀ place < (shown frames v current).length, ∃ f, frames[(shown frames v current).start + place]? = some f ∧
        cards[place]? = some (cardRect v current place ((shown frames v current).start + place) f) := by
  intro cards
  have hinside : (shown frames v current).stop ≤ frames.length := (window_inside _ _ current).2
  have hcards : cards = (Minimap.slice frames (shown frames v current)).mapIdx fun place f =>
      cardRect v current place ((shown frames v current).start + place) f := rectsOf_render frames analysis v current
  constructor
  · rw [hcards, List.length_mapIdx, Minimap.length_slice hinside]
  · intro place hplace
    have hlisted : (shown frames v current).start + place < frames.length :=
      Nat.lt_of_lt_of_le (Nat.add_lt_of_lt_sub' hplace) hinside
    refine ⟨_, List.getElem?_eq_getElem hlisted, ?_⟩
    rw [hcards, List.getElem?_mapIdx, Minimap.getElem?_slice frames hplace, List.getElem?_eq_getElem hlisted]
    rfl

/-- A filmstrip shows a part of the list as long as its room and the list allow, found without going below zero. A
current position is in it, as near to the middle as the ends of the list let it; without one in the list the part
is the first. A later position is never shown in an earlier part, nor the next position in a part that starts
further than one place on. Every position of the part has one card, in order, and nothing else has one. -/
theorem shown_part_follows_current :
    (∀ count capacity : Nat, 0 < count → 0 < capacity →
      (∀ current, window? count capacity current = some (window count capacity current) ∧
        (window count capacity current).start ≤ (window count capacity current).stop ∧
        (window count capacity current).stop ≤ count ∧
        (window count capacity current).length = min capacity count ∧
        ((∀ c, current = some c → count ≤ c) → window count capacity current = ⟨0, min capacity count⟩)) ∧
      (∀ c < count, IsCentered count c (window count capacity (some c))) ∧
      (∀ c d, c ≤ d → d < count →
        (window count capacity (some c)).start ≤ (window count capacity (some d)).start) ∧
      ∀ c, c + 1 < count →
        (window count capacity (some (c + 1))).start ≤ (window count capacity (some c)).start + 1) ∧
    ∀ (frames : List Frame) (analysis : TemporalAnalysis α) (v : Viewport α) (current : Option Nat),
      let shown := window frames.length (max (Filmstrip.capacity v.width) 1) current
      let cards := rectsOf (render frames analysis v current)
      cards.length = shown.length ∧
        ∀ place < shown.length, ∃ f, frames[shown.start + place]? = some f ∧
          cards[place]? = some (cardRect v current place (shown.start + place) f) := by
  constructor
  · intro count capacity hcount hcapacity
    refine ⟨?range, ?centered, ?mono, ?step⟩
    case range =>
      intro current
      obtain ⟨hordered, hinside⟩ := window_inside count capacity current
      exact ⟨window?_eq count capacity current, hordered, hinside, length_window hcount hcapacity current,
        window_of_missing hcount hcapacity⟩
    case centered => exact fun c hc => isCentered_window hcapacity hc
    case mono => exact fun c d hcd hd => start_window_mono hcapacity hcd hd
    case step => exact fun c hc => start_window_succ_le hcapacity hc
  · exact cards_render

/-- Of nine positions with room for four the second last is shown with the last three before it and the last. -/
theorem shown_part_follows_current_near_end :
    (0 < 9 ∧ 0 < 4 ∧ 7 < 9) ∧ window 9 4 (some 7) = ⟨5, 9⟩ ∧ IsCentered 9 7 (window 9 4 (some 7)) := by
  obtain ⟨hwindow, -⟩ := shown_part_follows_current (α := Rat)
  have h := hwindow 9 4 (by decide) (by decide)
  exact ⟨by decide, by decide, h.2.1 7 (by decide)⟩

end FrameAtlas.Filmstrip

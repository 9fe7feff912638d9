import FrameAtlas.Proofs.Cursor.Highlight
import FrameAtlas.Selection.Event
import Mathlib.Data.List.Range

/-!
Who is told of what. A subscriber is told of every change of the selection from its subscription until that is
taken back, once and in order, and of nothing else. The numbers of subscribers are never used again: a number
that has been handed out lies below the next one for good.
-/

namespace FrameAtlas

def StoreEvent.sets? : StoreEvent → Option (Option Nat)
  | .commit position => some (some position)
  | .clear => some none
  | _ => none

def StoreEvent.published? : StoreEvent → StoreReply → Option Nat
  | .commit position, .changed true => some position
  | _, _ => none

def StoreReply.subscription? : StoreReply → Option Nat
  | .subscription id => some id
  | _ => none

def StoreTurn.told (t : StoreTurn) (id : Nat) : List Nat :=
  (t.notices.filter fun n => n.subscriber == id).map Notice.position

def received (turns : List StoreTurn) (id : Nat) : List Nat := turns.flatMap fun t => t.told id

def handedOut (turns : List StoreTurn) : List Nat := turns.filterMap fun t => t.reply.subscription?

namespace SelectionStore

/-- What is selected after a history that starts with nothing selected: the last event with a say in it tells. -/
def selected (events : List StoreEvent) : Option Nat :=
  ((events.filterMap StoreEvent.sets?).getLast?).getD none

/-- The positions of the commits of a history that changed the selection, in order. -/
def published (s : SelectionStore) (events : List StoreEvent) : List Nat :=
  (events.zip (s.run events)).filterMap fun e => e.1.published? e.2.reply

/-- The time of a subscriber in a history. It is given its number after what came before and keeps it as long
as nothing takes that back; the rest, if there is any, starts by taking it back. -/
structure Stay (events : List StoreEvent) (id : Nat) (before during rest : List StoreEvent) : Prop where
  history : events = before ++ .subscribe :: (during ++ rest)
  given : ((empty.after before).handle .subscribe).reply = .subscription id
  kept : .unsubscribe id ∉ during
  ended : rest = [] ∨ ∃ tail, rest = .unsubscribe id :: tail

def IsSubscribed (events : List StoreEvent) (id : Nat) : Prop :=
  ∃ before during, Stay events id before during []

section Step

variable (s : SelectionStore) (e : StoreEvent)

theorem subscribers_commit (position : Nat) : (s.commit position).1.subscribers = s.subscribers := by
  rw [commit_eq]

theorem nextId_commit (position : Nat) : (s.commit position).1.nextId = s.nextId := by
  rw [commit_eq]

theorem current_handle : (s.handle e).store.current = e.sets?.getD s.current := by
  cases e with
  | commit position => exact current_commit s position
  | clear => rfl
  | subscribe => rfl
  | unsubscribe id => rfl

/-- Only a subscription moves the next number on, and the number before is the one it hands out. -/
theorem nextId_handle :
    (s.handle e).reply.subscription? = none ∧ (s.handle e).store.nextId = s.nextId ∨
      (s.handle e).reply.subscription? = some s.nextId ∧ (s.handle e).store.nextId = s.nextId + 1 := by
  cases e with
  | commit position => exact .inl ⟨rfl, nextId_commit s position⟩
  | clear => exact .inl ⟨rfl, rfl⟩
  | subscribe => exact .inr ⟨rfl, rfl⟩
  | unsubscribe id => exact .inl ⟨rfl, rfl⟩

theorem nextId_le_handle : s.nextId ≤ (s.handle e).store.nextId := by
  rcases nextId_handle s e with ⟨-, h⟩ | ⟨-, h⟩ <;> omega

/-- Subscribers keep their order, and a new one comes last. -/
theorem subscribers_handle_sublist :
    (s.handle e).store.subscribers.Sublist (s.subscribers ++ (s.handle e).reply.subscription?.toList) := by
  cases e with
  | commit position =>
    show (s.commit position).1.subscribers.Sublist (s.subscribers ++ [])
    rw [subscribers_commit, List.append_nil]
  | clear =>
    show s.subscribers.Sublist (s.subscribers ++ [])
    rw [List.append_nil]
  | subscribe => exact List.Sublist.refl _
  | unsubscribe id =>
    show (s.subscribers.filter fun other => other != id).Sublist (s.subscribers ++ [])
    rw [List.append_nil]
    exact List.filter_sublist

/-- Nothing but its own end of subscription takes a subscriber out, and no number is handed out twice. -/
theorem count_subscribers_handle {id : Nat} (hnext : s.nextId ≠ id) (he : e ≠ .unsubscribe id) :
    (s.handle e).store.subscribers.count id = s.subscribers.count id := by
  cases e with
  | commit position => exact congrArg (List.count id) (subscribers_commit s position)
  | clear => rfl
  | subscribe =>
    show (s.subscribers ++ [s.nextId]).count id = _
    rw [List.count_append, List.count_singleton, if_neg (by simpa using hnext), Nat.add_zero]
  | unsubscribe other =>
    apply List.count_filter
    simpa using fun h : id = other => he (h ▸ rfl)

/-- A subscriber is told of a change once for each time it is listed. -/
theorem told_handle (id : Nat) :
    (s.handle e).told id =
      (e.published? (s.handle e).reply).toList.flatMap (List.replicate (s.subscribers.count id)) := by
  cases e with
  | clear => rfl
  | subscribe => rfl
  | unsubscribe other => rfl
  | commit position =>
    have hcalls : ((s.subscribers.map fun i => (⟨i, position⟩ : Notice)).filter
        fun n => n.subscriber == id).map Notice.position = List.replicate (s.subscribers.count id) position := by
      rw [List.filter_map, List.map_map, List.count_eq_length_filter]
      exact List.map_const'
    by_cases hchanges : s.changes position = true
    · simp [handle, commit, hchanges, StoreTurn.told, StoreEvent.published?, hcalls]
    · simp [handle, commit, hchanges, StoreTurn.told, StoreEvent.published?]

end Step

section History

variable {s : SelectionStore}

/-- After a history the last event with a say in it has decided what is selected. -/
theorem current_after (s : SelectionStore) (events : List StoreEvent) :
    (s.after events).current = ((events.filterMap StoreEvent.sets?).getLast?).getD s.current := by
  induction events generalizing s with
  | nil => rfl
  | cons e rest ih =>
    rw [after_cons, ih, current_handle]
    cases he : e.sets? with
    | none => rw [List.filterMap_cons_none he, Option.getD_none]
    | some current => rw [List.filterMap_cons_some he, List.getLast?_cons, Option.getD_some, Option.getD_some]

theorem handedOut_cons (t : StoreTurn) (turns : List StoreTurn) :
    handedOut (t :: turns) = t.reply.subscription?.toList ++ handedOut turns := by
  simp only [handedOut, List.filterMap_eq_flatMap_toList, List.flatMap_cons]

theorem published_cons (s : SelectionStore) (e : StoreEvent) (rest : List StoreEvent) :
    s.published (e :: rest) =
      (e.published? (s.handle e).reply).toList ++ (s.handle e).store.published rest := by
  simp only [published, run_cons, List.zip_cons_cons, List.filterMap_eq_flatMap_toList, List.flatMap_cons]

theorem received_cons (t : StoreTurn) (turns : List StoreTurn) (id : Nat) :
    received (t :: turns) id = t.told id ++ received turns id := List.flatMap_cons

theorem received_append (first second : List StoreTurn) (id : Nat) :
    received (first ++ second) id = received first id ++ received second id := List.flatMap_append

/-- A run hands out the numbers from the next one on, one after the other. -/
theorem handedOut_run (s : SelectionStore) (events : List StoreEvent) :
    ∃ n, handedOut (s.run events) = List.range' s.nextId n ∧ (s.after events).nextId = s.nextId + n := by
  induction events generalizing s with
  | nil => exact ⟨0, rfl, rfl⟩
  | cons e rest ih =>
    obtain ⟨n, hids, hnext⟩ := ih (s.handle e).store
    rw [run_cons, handedOut_cons, after_cons, hids, hnext]
    rcases nextId_handle s e with ⟨hreply, hsame⟩ | ⟨hreply, hsucc⟩
    · exact ⟨n, by rw [hreply, hsame]; rfl, by rw [hsame]⟩
    · refine ⟨n + 1, ?_, by omega⟩
      rw [hreply, hsucc, List.range'_succ]
      rfl

theorem nextId_le_after (s : SelectionStore) (events : List StoreEvent) :
    s.nextId ≤ (s.after events).nextId := by
  obtain ⟨n, -, hnext⟩ := handedOut_run s events
  omega

/-- No number is handed out twice. -/
theorem nodup_handedOut (s : SelectionStore) (events : List StoreEvent) :
    (handedOut (s.run events)).Nodup := by
  obtain ⟨n, hids, -⟩ := handedOut_run s events
  rw [hids]
  exact List.nodup_range'

/-- The numbers handed out in a run are those that the counter has passed. -/
theorem mem_handedOut_iff {events : List StoreEvent} {id : Nat} :
    id ∈ handedOut (s.run events) ↔ s.nextId ≤ id ∧ id < (s.after events).nextId := by
  obtain ⟨n, hids, hnext⟩ := handedOut_run s events
  rw [hids, hnext, List.mem_range'_1]

/-- Those who are subscribed after a history were so before it, or it handed out their numbers, in the order
in which they are listed. -/
theorem subscribers_after_sublist (s : SelectionStore) (events : List StoreEvent) :
    (s.after events).subscribers.Sublist (s.subscribers ++ handedOut (s.run events)) := by
  induction events generalizing s with
  | nil => exact (List.append_nil s.subscribers).symm ▸ List.Sublist.refl _
  | cons e rest ih =>
    rw [run_cons, handedOut_cons, ← List.append_assoc]
    exact (ih _).trans ((subscribers_handle_sublist s e).append_right _)

theorem told_eq_nil {e : StoreEvent} {id : Nat} (h : id ∉ s.subscribers) : (s.handle e).told id = [] := by
  rw [told_handle, List.count_eq_zero_of_not_mem h]
  exact List.flatMap_eq_nil_iff.2 fun _ _ => rfl

/-- Whoever is not subscribed and is given no number in a run is told nothing in it. -/
theorem received_eq_nil {events : List StoreEvent} {id : Nat}
    (h : id ∉ s.subscribers ++ handedOut (s.run events)) : received (s.run events) id = [] := by
  induction events generalizing s with
  | nil => rfl
  | cons e rest ih =>
    rw [run_cons, handedOut_cons, ← List.append_assoc] at h
    have hrest : id ∉ (s.handle e).store.subscribers ++ handedOut ((s.handle e).store.run rest) :=
      fun hmem => h (((subscribers_handle_sublist s e).append_right _).subset hmem)
    have hhere : id ∉ s.subscribers := fun hmem =>
      h (List.mem_append_left _ (List.mem_append_left _ hmem))
    rw [run_cons, received_cons, told_eq_nil hhere]
    exact ih hrest

/-- A number that was handed out and is not in use stays out of use: no later history tells it of anything. -/
theorem not_mem_of_gone {events : List StoreEvent} {id : Nat} (hid : id < s.nextId) (h : id ∉ s.subscribers) :
    id ∉ s.subscribers ++ handedOut (s.run events) := by
  rw [List.mem_append, not_or, mem_handedOut_iff]
  exact ⟨h, by omega⟩

/-- A subscriber that stays is told all changes in order, each once. -/
theorem received_eq_published {during : List StoreEvent} {id : Nat} (hcount : s.subscribers.count id = 1)
    (hid : id < s.nextId) (hkept : .unsubscribe id ∉ during) :
    received (s.run during) id = s.published during := by
  induction during generalizing s with
  | nil => rfl
  | cons e rest ih =>
    rw [List.mem_cons, not_or] at hkept
    have hrest : received ((s.handle e).store.run rest) id = (s.handle e).store.published rest := by
      apply ih
      · rw [count_subscribers_handle s e hid.ne' (Ne.symm hkept.1), hcount]
      · exact hid.trans_le (nextId_le_handle s e)
      · exact hkept.2
    have hhere : (s.handle e).told id = (e.published? (s.handle e).reply).toList := by
      rw [told_handle, hcount]
      cases e.published? (s.handle e).reply <;> rfl
    rw [run_cons, received_cons, published_cons, hhere, hrest]

theorem mem_subscribers_after {during : List StoreEvent} {id : Nat} (hmem : id ∈ s.subscribers)
    (hid : id < s.nextId) (hkept : .unsubscribe id ∉ during) : id ∈ (s.after during).subscribers := by
  induction during generalizing s with
  | nil => exact hmem
  | cons e rest ih =>
    rw [List.mem_cons, not_or] at hkept
    apply ih
    · have hcount := count_subscribers_handle s e hid.ne' (Ne.symm hkept.1)
      exact List.count_pos_iff.1 (hcount ▸ List.count_pos_iff.2 hmem)
    · exact hid.trans_le (nextId_le_handle s e)
    · exact hkept.2

end History

section Stay

variable {events before during rest : List StoreEvent} {id : Nat}

theorem exists_given {s : SelectionStore} (h : id ∈ handedOut (s.run events)) :
    ∃ before later, events = before ++ .subscribe :: later ∧ (s.after before).nextId = id := by
  induction events generalizing s with
  | nil => contradiction
  | cons e tail ih =>
    rw [run_cons, handedOut_cons, List.mem_append] at h
    rcases h with hhere | hlater
    · refine ⟨[], tail, ?_, ?_⟩
      · cases e with
        | subscribe => rfl
        | commit position => contradiction
        | clear => contradiction
        | unsubscribe other => contradiction
      · rcases nextId_handle s e with ⟨hreply, -⟩ | ⟨hreply, -⟩
        · rw [hreply] at hhere
          contradiction
        · rw [hreply] at hhere
          exact (List.mem_singleton.1 hhere).symm
    · obtain ⟨before, later, hevents, hid⟩ := ih hlater
      exact ⟨e :: before, later, congrArg (e :: ·) hevents, hid⟩

/-- Whoever got a number has a time in the history. -/
theorem exists_stay (h : id ∈ handedOut (empty.run events)) :
    ∃ before during rest, Stay events id before during rest := by
  obtain ⟨before, later, hevents, hid⟩ := exists_given h
  have hgiven : ((empty.after before).handle .subscribe).reply = .subscription id :=
    congrArg StoreReply.subscription hid
  by_cases hend : .unsubscribe id ∈ later
  · obtain ⟨during, tail, hlater, hkept⟩ := List.eq_append_cons_of_mem hend
    exact ⟨before, during, .unsubscribe id :: tail, hlater ▸ hevents, hgiven, hkept, .inr ⟨tail, rfl⟩⟩
  · exact ⟨before, later, [], by rwa [List.append_nil], hgiven, hend, .inl rfl⟩

theorem Stay.nextId (h : Stay events id before during rest) : (empty.after before).nextId = id :=
  StoreReply.subscription.inj h.given

theorem Stay.not_mem_before (h : Stay events id before during rest) :
    id ∉ empty.subscribers ++ handedOut (empty.run before) := by
  have hnext := h.nextId
  rw [List.mem_append, not_or, mem_handedOut_iff]
  exact ⟨List.not_mem_nil, by omega⟩

/-- What the number stands for when its time begins: it is listed once and lies below the next one. -/
theorem Stay.begins (h : Stay events id before during rest) :
    (empty.after (before ++ [.subscribe])).subscribers.count id = 1 ∧
      id < (empty.after (before ++ [.subscribe])).nextId := by
  have hnext := h.nextId
  have habsent : id ∉ (empty.after before).subscribers := fun hmem =>
    h.not_mem_before ((subscribers_after_sublist empty before).subset hmem)
  rw [after_append]
  constructor
  · show ((empty.after before).subscribers ++ [(empty.after before).nextId]).count id = 1
    rw [List.count_append, List.count_eq_zero_of_not_mem habsent, hnext, List.count_singleton_self]
  · show id < (empty.after before).nextId + 1
    omega

theorem Stay.split (h : Stay events id before during rest) :
    events = before ++ [.subscribe] ++ during ++ rest := by
  rw [h.history, List.append_assoc, List.append_assoc, List.singleton_append]

theorem Stay.not_mem_rest (h : Stay events id before during rest) (hrest : rest ≠ []) :
    let closed := (empty.after (before ++ [.subscribe])).after during
    id ∉ (closed.after rest).subscribers ∧ received (closed.run rest) id = [] := by
  intro closed
  obtain ⟨tail, rfl⟩ : ∃ tail, rest = .unsubscribe id :: tail := h.ended.resolve_left hrest
  let gone := (closed.handle (.unsubscribe id)).store
  have hid : id < gone.nextId := h.begins.2.trans_le (nextId_le_after _ during)
  have habsent : id ∉ gone.subscribers := by
    show id ∉ closed.subscribers.filter fun other => other != id
    simp
  have hnever : id ∉ gone.subscribers ++ handedOut (gone.run tail) := not_mem_of_gone hid habsent
  constructor
  · exact fun hmem => hnever ((subscribers_after_sublist gone tail).subset hmem)
  · rw [run_cons, received_cons, received_eq_nil hnever]
    rfl

/-- A subscriber is told of all that is published in its time, and of nothing else. -/
theorem Stay.received_eq (h : Stay events id before during rest) :
    received (empty.run events) id = (empty.after (before ++ [.subscribe])).published during := by
  let opened := empty.after (before ++ [.subscribe])
  have hbefore : received (empty.run (before ++ [.subscribe])) id = [] := by
    rw [run_append, received_append, received_eq_nil h.not_mem_before]
    rfl
  have hduring : received (opened.run during) id = opened.published during :=
    received_eq_published h.begins.1 h.begins.2 h.kept
  have hrest : received ((opened.after during).run rest) id = [] := by
    by_cases hnone : rest = []
    · rw [hnone]
      rfl
    · exact (h.not_mem_rest hnone).2
  rw [h.split, run_append, run_append, received_append, received_append,
    after_append _ _ during, hbefore, hduring, hrest, List.nil_append,
    List.append_nil]

/-- Those in the list of subscribers are those who subscribed and have not unsubscribed. -/
theorem mem_subscribers_iff : id ∈ (empty.after events).subscribers ↔ IsSubscribed events id := by
  constructor
  · intro hmem
    have hgiven : id ∈ handedOut (empty.run events) := (subscribers_after_sublist empty events).subset hmem
    obtain ⟨before, during, rest, hstay⟩ := exists_stay hgiven
    obtain rfl : rest = [] := by
      by_contra hrest
      rw [hstay.split, after_append, after_append] at hmem
      exact (hstay.not_mem_rest hrest).1 hmem
    exact ⟨before, during, hstay⟩
  · rintro ⟨before, during, hstay⟩
    rw [hstay.split, List.append_nil, after_append]
    apply mem_subscribers_after _ hstay.begins.2 hstay.kept
    exact List.count_pos_iff.1 (hstay.begins.1 ▸ Nat.one_pos)

end Stay

structure AgreeFor (id : Nat) (s t : SelectionStore) : Prop where
  current : t.current = s.current
  nextId : t.nextId = s.nextId
  listed : t.subscribers.count id = s.subscribers.count id

theorem AgreeFor.changes {id : Nat} {s t : SelectionStore} (h : AgreeFor id s t) (position : Nat) :
    t.changes position = s.changes position := by
  rw [SelectionStore.changes, SelectionStore.changes, h.current]

theorem AgreeFor.handle {id : Nat} {s t : SelectionStore} (h : AgreeFor id s t) (e : StoreEvent) :
    AgreeFor id (s.handle e).store (t.handle e).store where
  current := by rw [current_handle, current_handle, h.current]
  nextId := by
    cases e with
    | commit position =>
      show (t.commit position).1.nextId = (s.commit position).1.nextId
      rw [nextId_commit, nextId_commit, h.nextId]
    | clear => exact h.nextId
    | subscribe => exact congrArg (· + 1) h.nextId
    | unsubscribe other => exact h.nextId
  listed := by
    cases e with
    | commit position =>
      show (t.commit position).1.subscribers.count id = (s.commit position).1.subscribers.count id
      rw [subscribers_commit, subscribers_commit, h.listed]
    | clear => exact h.listed
    | subscribe =>
      show (t.subscribers ++ [t.nextId]).count id = (s.subscribers ++ [s.nextId]).count id
      rw [List.count_append, List.count_append, h.listed, h.nextId]
    | unsubscribe other =>
      show (t.subscribers.filter _).count id = (s.subscribers.filter _).count id
      by_cases hother : id = other
      · have hnone (l : List Nat) : (l.filter fun i => i != other).count id = 0 :=
          List.count_eq_zero_of_not_mem (by simp [hother])
        exact (hnone _).trans (hnone _).symm
      · rw [List.count_filter (by simpa using hother), List.count_filter (by simpa using hother), h.listed]

theorem AgreeFor.told {id : Nat} {s t : SelectionStore} (h : AgreeFor id s t) (e : StoreEvent) :
    (t.handle e).told id = (s.handle e).told id := by
  have hpublished : e.published? (t.handle e).reply = e.published? (s.handle e).reply := by
    cases e with
    | commit position =>
      show (StoreEvent.commit position).published? (.changed (t.changes position)) = _
      rw [h.changes position]
      rfl
    | clear => rfl
    | subscribe => rfl
    | unsubscribe other => rfl
  rw [told_handle, told_handle, hpublished, h.listed]

/-- A subscriber cannot tell such selections apart by what it is told either. -/
theorem AgreeFor.received {id : Nat} {s t : SelectionStore} (h : AgreeFor id s t) (events : List StoreEvent) :
    FrameAtlas.received (t.run events) id = FrameAtlas.received (s.run events) id := by
  induction events generalizing s t with
  | nil => rfl
  | cons e rest ih => rw [run_cons, run_cons, received_cons, received_cons, h.told e, ih (h.handle e)]

theorem agreeFor_unsubscribe (s : SelectionStore) {id other : Nat} (h : other ≠ id) :
    AgreeFor other s (s.handle (.unsubscribe id)).store where
  current := rfl
  nextId := rfl
  listed := List.count_filter (by simpa using h)

/-- How a selection tells of its changes, after a history that starts with nothing selected and nobody
subscribed. -/
structure TellsEachChangeOnce (events : List StoreEvent) : Prop where
  current : (empty.after events).current = selected events
  /-- A commit tells whether it changes the selection. -/
  changed : ∀ position, ((empty.after events).handle (.commit position)).reply =
    .changed (selected events != some position)
  distinct : (handedOut (empty.run events)).Nodup
  /-- A subscription ends if it is one, and once. -/
  ended : ∀ id,
    ((empty.after events).handle (.unsubscribe id)).reply = .changed true ↔ IsSubscribed events id
  /-- The end of a subscription is nothing to the others, whatever comes later. -/
  apart : ∀ id other later, other ≠ id →
    received (empty.run (events ++ .unsubscribe id :: later)) other =
      received (empty.run (events ++ later)) other
  /-- Who has subscribed is told of all changes of its time, in order, and of nothing else. -/
  told : ∀ id ∈ handedOut (empty.run events), ∃ before during rest, Stay events id before during rest ∧
    received (empty.run events) id = (empty.after (before ++ [.subscribe])).published during
  untold : ∀ id ∉ handedOut (empty.run events), received (empty.run events) id = []
  /-- A change is told to those who are subscribed, in the order in which they got their numbers. -/
  called : ∀ position, ∃ subscribers : List Nat,
    subscribers.Sublist (handedOut (empty.run events)) ∧ (∀ id, id ∈ subscribers ↔ IsSubscribed events id) ∧
      ((empty.after events).handle (.commit position)).notices =
        if selected events = some position then [] else subscribers.map fun id => ⟨id, position⟩

/-- All that subscribers, commits and subscriptions are told in any history. -/
theorem tells_each_change_once (events : List StoreEvent) : TellsEachChangeOnce events := by
  have hcurrent : (empty.after events).current = selected events := current_after empty events
  refine ⟨hcurrent, ?_, nodup_handedOut empty events, ?_, ?_, ?_, ?_, ?_⟩
  · intro position
    show StoreReply.changed ((empty.after events).current != some position) = _
    rw [hcurrent]
  · intro id
    rw [← mem_subscribers_iff, ← List.contains_iff_mem]
    exact StoreReply.changed.injEq _ _ ▸ Iff.rfl
  · intro id other later hother
    have hagree := agreeFor_unsubscribe (empty.after events) hother
    rw [run_append, run_append, received_append, received_append, run_cons, received_cons,
      hagree.received later]
    rfl
  · intro id hid
    obtain ⟨before, during, rest, hstay⟩ := exists_stay hid
    exact ⟨before, during, rest, hstay, hstay.received_eq⟩
  · intro id hid
    exact received_eq_nil hid
  · intro position
    refine ⟨(empty.after events).subscribers, subscribers_after_sublist empty events,
      fun id => mem_subscribers_iff, ?_⟩
    show ((empty.after events).commit position).2 = _
    rw [commit_eq, hcurrent]

end SelectionStore

end FrameAtlas

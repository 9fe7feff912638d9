import FrameAtlas.Selection

namespace FrameAtlas

inductive StoreEvent where
  | commit (position : Nat)
  | clear
  | subscribe
  | unsubscribe (id : Nat)
deriving DecidableEq, Repr

inductive StoreReply where
  | nothing
  | changed (b : Bool)
  | subscription (id : Nat)
deriving DecidableEq, Repr

structure StoreTurn where
  store : SelectionStore
  reply : StoreReply
  notices : List Notice
deriving DecidableEq, Repr

namespace SelectionStore

def handle (s : SelectionStore) : StoreEvent → StoreTurn
  | .commit position =>
    let (store, notices) := s.commit position
    ⟨store, .changed (s.changes position), notices⟩
  | .clear => ⟨s.clear, .nothing, []⟩
  | .subscribe =>
    let (id, store) := s.subscribe
    ⟨store, .subscription id, []⟩
  | .unsubscribe id =>
    let (found, store) := s.unsubscribe id
    ⟨store, .changed found, []⟩

def after (s : SelectionStore) (events : List StoreEvent) : SelectionStore :=
  events.foldl (fun s e => (s.handle e).store) s

def run (s : SelectionStore) : List StoreEvent → List StoreTurn
  | [] => []
  | e :: rest => s.handle e :: run (s.handle e).store rest

@[simp] theorem after_nil (s : SelectionStore) : s.after [] = s := rfl

@[simp] theorem after_cons (s : SelectionStore) (e : StoreEvent) (rest : List StoreEvent) :
    s.after (e :: rest) = (s.handle e).store.after rest := rfl

theorem after_append (s : SelectionStore) (first second : List StoreEvent) :
    s.after (first ++ second) = (s.after first).after second := by
  simp only [after, List.foldl_append]

@[simp] theorem run_nil (s : SelectionStore) : s.run [] = [] := rfl

@[simp] theorem run_cons (s : SelectionStore) (e : StoreEvent) (rest : List StoreEvent) :
    s.run (e :: rest) = s.handle e :: (s.handle e).store.run rest := rfl

theorem run_append (s : SelectionStore) (first second : List StoreEvent) :
    s.run (first ++ second) = s.run first ++ (s.after first).run second := by
  induction first generalizing s with
  | nil => rfl
  | cons e rest ih => rw [List.cons_append, run_cons, run_cons, after_cons, ih, List.cons_append]

end SelectionStore

end FrameAtlas

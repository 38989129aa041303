import AcosChat.Lib.Chain
import AcosChat.Lib.Run
import AcosChat.TsQueue.Model

/-!
# `ts_queue` refines a double-ended list

The heap owns the nodes of a chain from `first`, and the values of the chain are those of a
list with append, prepend and remove-head. `last` is the end of the chain where there is
one; the pop of the last node leaves it pointing to the node that is released. Every call
gives the answer of the list, in every sequence of calls and in every interleaving of
calls whose locked parts are single steps.
-/
namespace AcosChat

open Store Run TsQueue

variable {α σ : Type}

/-! ### The locked parts -/

/-- The heap owns the nodes of the queue, and beside them what calls in flight hold. -/
structure TsQueue.Linked (q : TsQueue α) (nodes : List (Nat × Option α))
    (held : Multiset (Nat × Node α)) : Prop where
  live : q.frozen = false
  owns : Owns q.heap (Chain.cells Node.mk nodes none + held)
  first : q.first = Chain.entry nodes none
  size : q.size = nodes.length
  last : ∀ node, nodes.getLast? = some node → q.last = some node.1

namespace TsQueue

variable {q : TsQueue α} {nodes : List (Nat × Option α)} {held : Multiset (Nat × Node α)}

theorem linked_init : Linked (tsQueueInit : TsQueue α) [] 0 := by
  refine ⟨rfl, ?_, rfl, rfl, ?_⟩
  · rw [Chain.cells, add_zero]
    exact owns_empty
  · intro node last
    cases last

theorem Linked.newNode (linked : Linked q nodes held) (val : Option α) :
    Linked (q.newNode val).2 nodes ({((q.newNode val).1, ⟨none, val⟩)} + held) := by
  obtain ⟨_, _, owns⟩ := linked.owns.alloc ⟨none, val⟩
  exact ⟨linked.live, owns.of_eq (by rw [add_left_comm]; rfl), linked.first, linked.size, linked.last⟩

theorem Linked.free {node : Nat} {record : Node α}
    (linked : Linked q nodes ({(node, record)} + held)) :
    ∃ q', q.free node = some q' ∧ Linked q' nodes held ∧ q'.last = q.last := by
  obtain ⟨heap, freed, _, owns⟩ := (linked.owns.of_eq (add_left_comm _ _ _)).free
  refine ⟨{ q with heap := heap }, ?_, ⟨linked.live, owns, linked.first, linked.size, linked.last⟩, rfl⟩
  rw [TsQueue.free, freed]
  rfl

theorem Linked.pushLocked {node : Nat} {val : Option α}
    (linked : Linked q nodes ({(node, ⟨none, val⟩)} + held)) :
    ∃ q', q.pushLocked node = some (true, q') ∧ Linked q' (nodes ++ [(node, val)]) held ∧
      q'.last = some node := by
  have live := linked.live
  rcases List.eq_nil_or_concat nodes with rfl | ⟨before, ⟨a, w⟩, rfl⟩
  · have size : q.size = 0 := linked.size
    refine ⟨{ q with last := some node, first := some node, size := 1 }, ?_, ?_, rfl⟩
    · simp only [TsQueue.pushLocked, live, size, Bool.false_eq_true, if_false, if_true, Option.pure_def]
    · refine ⟨live, ?_, rfl, rfl, ?_⟩
      · exact linked.owns.of_eq (by rw [List.nil_append, Chain.cells_cons, Chain.cells, Chain.entry,
          add_zero, zero_add])
      · intro last ends
        cases ends
        rfl
  · rw [List.concat_eq_append] at linked ⊢
    have last : q.last = some a := linked.last (a, w) List.getLast?_concat
    have size : q.size = before.length + 1 := by
      rw [linked.size, List.length_append, List.length_singleton]
    have nonzero : ¬q.size = 0 := by omega
    have apart : Chain.cells Node.mk (before ++ [(a, w)]) none + ({(node, ⟨none, val⟩)} + held) =
        {(a, ⟨none, w⟩)} +
          (Chain.cells Node.mk before (some a) + ({(node, ⟨none, val⟩)} + held)) := by
      rw [Chain.cells_concat, add_assoc]
    -- the end of the chain is set to point to the new node
    obtain ⟨heap, wrote, _, owns⟩ := (linked.owns.of_eq apart).modify
      fun record => { record with next := some node }
    refine ⟨{ q with heap := heap, last := some node, size := q.size + 1 }, ?_, ?_, rfl⟩
    · simp only [TsQueue.pushLocked, live, nonzero, last, wrote, Bool.false_eq_true, if_false,
        Option.bind_eq_bind, Option.bind_some, Option.pure_def]
    · refine ⟨live, owns.of_eq ?_, ?_, ?_, ?_⟩
      · rw [Chain.cells_concat, Chain.cells_concat]
        ac_rfl
      · rw [Chain.entry_append]
        exact linked.first.trans (Chain.entry_concat before (a, w) _ _)
      · simp only [List.length_append, List.length_singleton, size]
      · intro last' ends
        rw [List.getLast?_concat] at ends
        cases ends
        rfl

theorem Linked.pushInFrontLocked {node : Nat} {val : Option α}
    (linked : Linked q nodes ({(node, ⟨none, val⟩)} + held)) :
    ∃ q', q.pushInFrontLocked node = some (true, q') ∧ Linked q' ((node, val) :: nodes) held ∧
      q'.last ≠ none := by
  have live := linked.live
  cases nodes with
  | nil =>
    have size : q.size = 0 := linked.size
    refine ⟨{ q with last := some node, first := some node, size := 1 }, ?_, ?_, nofun⟩
    · simp only [TsQueue.pushInFrontLocked, live, size, Bool.false_eq_true, if_false, if_true,
        Option.pure_def]
    · refine ⟨live, ?_, rfl, rfl, ?_⟩
      · exact linked.owns.of_eq (by rw [Chain.cells_cons, Chain.cells, Chain.entry, add_zero, zero_add])
      · intro last ends
        cases ends
        rfl
  | cons front nodes =>
    have nonzero : ¬q.size = 0 := by
      rw [linked.size, List.length_cons]
      omega
    -- only the new node is written; the last one stays the last
    have last := linked.last _ (List.getLast?_eq_some_getLast (List.cons_ne_nil front nodes))
    obtain ⟨heap, wrote, _, owns⟩ := (linked.owns.of_eq (add_left_comm _ _ _)).modify
      fun record => { record with next := q.first }
    refine ⟨{ q with heap := heap, first := some node, size := q.size + 1 }, ?_, ?_, ?_⟩
    · simp only [TsQueue.pushInFrontLocked, live, nonzero, wrote, Bool.false_eq_true, if_false,
        Option.bind_eq_bind, Option.bind_some, Option.pure_def]
    · refine ⟨live, owns.of_eq ?_, rfl, ?_, ?_⟩
      · rw [linked.first, Chain.cells_cons Node.mk (node, val), add_assoc]
      · simp only [linked.size, List.length_cons]
      · intro last' ends
        exact linked.last last' (by rwa [List.getLast?_cons_cons] at ends)
    · simp only [last, ne_eq, reduceCtorEq, not_false_eq_true]

theorem Linked.popLocked_nil (linked : Linked q [] held) : q.popLocked = some ((none, none), q) := by
  have size : q.size = 0 := linked.size
  simp only [TsQueue.popLocked, size, lt_irrefl, decide_false, Bool.and_false, Bool.false_eq_true,
    if_false, Option.pure_def]

/-- The node that is popped is left to the call, and `last` as it was. -/
theorem Linked.popLocked_cons {node : Nat × Option α} (linked : Linked q (node :: nodes) held) :
    ∃ q', q.popLocked = some ((node.2, some node.1), q') ∧
      Linked q' nodes ({(node.1, ⟨Chain.entry nodes none, node.2⟩)} + held) ∧ q'.last = q.last := by
  have size : q.size = nodes.length + 1 := linked.size
  have positive : 0 < q.size := by omega
  have there : q.heap.read node.1 = some ⟨Chain.entry nodes none, node.2⟩ :=
    linked.owns.read (by simp [Chain.cells])
  have first : q.first = some node.1 := linked.first
  refine ⟨{ q with first := Chain.entry nodes none, size := q.size - 1 }, ?_, ?_, rfl⟩
  · simp only [TsQueue.popLocked, linked.live, positive, first, there, Bool.not_false, decide_true,
      Bool.and_self, if_true, Option.bind_eq_bind, Option.bind_some, Option.pure_def]
  · refine ⟨linked.live, linked.owns.of_eq ?_, rfl, ?_, ?_⟩
    · rw [Chain.cells_cons]
      ac_rfl
    · simp only [size, Nat.add_sub_cancel]
    · intro last ends
      cases nodes with
      | nil => cases ends
      | cons second nodes => exact linked.last last (by rwa [List.getLast?_cons_cons])

end TsQueue

/-! ### The list -/

/-- What `ts_queue` is for: a list of values that grows at both ends. -/
abbrev Deque (α : Type) := List (Option α)

inductive QueueCall (α : Type) where
  | push (val : Option α)
  | pushInFront (val : Option α)
  | pop
  | size
  | empty
deriving DecidableEq, Repr

inductive QueueAnswer (α : Type) where
  | success (flag : Bool)
  | value (val : Option α)
  | size (count : Nat)
  | empty (flag : Bool)
deriving DecidableEq, Repr

/-- The answer of the list, and the list after the call. -/
def Deque.call (abs : Deque α) : QueueCall α → QueueAnswer α × Deque α
  | .push val => (.success true, abs ++ [val])
  | .pushInFront val => (.success true, val :: abs)
  | .pop => (.value abs.head?.join, abs.tail)
  | .size => (.size abs.length, abs)
  | .empty => (.empty abs.isEmpty, abs)

def Deque.calls (abs : Deque α) : List (QueueCall α) → List (QueueAnswer α) × Deque α
  | [] => ([], abs)
  | call :: later =>
    let (answer, abs) := abs.call call
    let (answers, abs) := Deque.calls abs later
    (answer :: answers, abs)

/-- What a call pushes. -/
def QueueCall.pushed : QueueCall α → List (Option α)
  | .push val => [val]
  | .pushInFront val => [val]
  | _ => []

/-- What a call removes from the list. -/
def Deque.popped (abs : Deque α) : QueueCall α → List (Option α)
  | .pop => abs.take 1
  | _ => []

/-- What calls remove from the list, in order. -/
def Deque.allPopped (abs : Deque α) : List (QueueCall α) → List (Option α)
  | [] => []
  | call :: later => abs.popped call ++ Deque.allPopped (abs.call call).2 later

theorem Deque.call_conserves (abs : Deque α) (call : QueueCall α) :
    (abs.popped call ++ (abs.call call).2).Perm (call.pushed ++ abs) := by
  cases call with
  | push val => exact (List.perm_append_comm : (abs ++ [val]).Perm ([val] ++ abs))
  | pushInFront val => exact .refl _
  | pop =>
    cases abs with
    | nil => exact .refl _
    | cons val abs => exact .refl _
  | size => exact .refl _
  | empty => exact .refl _

/-- Every value that is pushed is popped once or still there: none is lost, none doubled. -/
theorem Deque.calls_conserve (abs : Deque α) (calls : List (QueueCall α)) :
    (abs.allPopped calls ++ (abs.calls calls).2).Perm (calls.flatMap QueueCall.pushed ++ abs) := by
  induction calls generalizing abs with
  | nil => exact .refl _
  | cons call calls ih =>
    have later := ih (abs.call call).2
    have now := abs.call_conserves call
    calc abs.popped call ++ (abs.call call).2.allPopped calls ++ ((abs.call call).2.calls calls).2
        _ = abs.popped call ++ ((abs.call call).2.allPopped calls ++ ((abs.call call).2.calls calls).2) :=
          List.append_assoc _ _ _
        List.Perm _ (abs.popped call ++ (calls.flatMap QueueCall.pushed ++ (abs.call call).2)) :=
          later.append_left _
        List.Perm _ (calls.flatMap QueueCall.pushed ++ (call.pushed ++ abs)) :=
          (List.perm_append_comm_assoc _ _ _).trans (now.append_left _)
        List.Perm _ (call.pushed ++ calls.flatMap QueueCall.pushed ++ abs) := by
          rw [List.append_assoc]
          exact List.perm_append_comm_assoc _ _ _

/-! ### Sequences of calls -/

def TsQueue.call (q : TsQueue α) : QueueCall α → Option (QueueAnswer α × TsQueue α)
  | .push val => (tsQueuePush q val).map fun (success, q) => (.success success, q)
  | .pushInFront val => (tsQueuePushInFront q val).map fun (success, q) => (.success success, q)
  | .pop => (tsQueuePop q).map fun (val, q) => (.value val, q)
  | .size => some (.size (tsQueueSize q), q)
  | .empty => some (.empty (tsQueueEmpty q), q)

def TsQueue.calls (q : TsQueue α) : List (QueueCall α) → Option (List (QueueAnswer α) × TsQueue α)
  | [] => some ([], q)
  | call :: later => do
    let (answer, q) ← q.call call
    let (answers, q) ← TsQueue.calls q later
    some (answer :: answers, q)

/-- The nodes from `first` hold these values, number `size`, and end at `last`. -/
def Represents (q : TsQueue α) (abs : Deque α) : Prop :=
  ∃ addresses, Chain.Visits Node.next q.heap q.first addresses ∧ addresses.Nodup ∧
    addresses.map (fun node => (q.heap.read node).map Node.val) = abs.map some ∧
    addresses.length = q.size ∧ (0 < q.size → q.last = addresses.getLast?)

theorem TsQueue.Linked.represents {q : TsQueue α} {nodes : List (Nat × Option α)}
    {held : Multiset (Nat × Node α)} (linked : Linked q nodes held) :
    Represents q (nodes.map Prod.snd) := by
  refine ⟨nodes.map Prod.fst, ?_, Chain.nodup_of_owns linked.owns, ?_, ?_, ?_⟩
  · rw [linked.first]
    exact Chain.visits_of_owns (fun _ _ => rfl) linked.owns
  · rw [List.map_map, List.map_map]
    exact Chain.values_of_owns (fun _ _ => rfl) linked.owns
  · rw [List.length_map, linked.size]
  · intro positive
    have nonempty : nodes ≠ [] := by
      rintro rfl
      exact absurd linked.size (Nat.ne_of_gt positive)
    have ends := List.getLast?_eq_some_getLast nonempty
    rw [linked.last _ ends, List.getLast?_map, ends, Option.map_some]

/-! ### The parts of a call -/

/-- What a call does before `LOCK`: the node that it allocates. -/
def TsQueue.prepare (q : TsQueue α) : QueueCall α → Ptr × TsQueue α
  | .push val => ((q.newNode val).1, (q.newNode val).2)
  | .pushInFront val => ((q.newNode val).1, (q.newNode val).2)
  | _ => (none, q)

/-- What a call does between `LOCK` and `UNLOCK`: its answer, and the node that it
releases afterwards. -/
def TsQueue.locked (q : TsQueue α) (node : Ptr) :
    QueueCall α → Option ((QueueAnswer α × Ptr) × TsQueue α)
  | .push _ => do
    let node ← node
    (q.pushLocked node).map fun (success, q) => ((.success success, unused success node), q)
  | .pushInFront _ => do
    let node ← node
    (q.pushInFrontLocked node).map fun (success, q) => ((.success success, unused success node), q)
  | .pop => q.popLocked.map fun ((val, node), q) => ((.value val, node), q)
  | .size => some ((.size (tsQueueSize q), none), q)
  | .empty => some ((.empty (tsQueueEmpty q), none), q)

/-- A call is its parts. -/
theorem TsQueue.call_eq (q : TsQueue α) (call : QueueCall α) : q.call call = do
    let (node, q) := q.prepare call
    let ((answer, node), q) ← q.locked node call
    return (answer, ← q.release node) := by
  cases call with
  | push val =>
    simp only [TsQueue.call, tsQueuePush, prepare, locked, Option.bind_eq_bind, Option.bind_some,
      Option.map_bind, Option.bind_map, Function.comp_def, Option.pure_def, Option.map_some]
  | pushInFront val =>
    simp only [TsQueue.call, tsQueuePushInFront, prepare, locked, Option.bind_eq_bind,
      Option.bind_some, Option.map_bind, Option.bind_map, Function.comp_def, Option.pure_def,
      Option.map_some]
  | pop =>
    simp only [TsQueue.call, tsQueuePop, prepare, locked, Option.bind_eq_bind, Option.map_bind,
      Option.bind_map, Function.comp_def, Option.pure_def, Option.map_some]
  | size => rfl
  | empty => rfl

/-- The cells that a call holds before `LOCK`. -/
inductive Prepared : QueueCall α → Ptr → Multiset (Nat × Node α) → Prop
  | push (val : Option α) (node : Nat) : Prepared (.push val) (some node) {(node, ⟨none, val⟩)}
  | pushInFront (val : Option α) (node : Nat) :
      Prepared (.pushInFront val) (some node) {(node, ⟨none, val⟩)}
  | pop : Prepared .pop none 0
  | size : Prepared .size none 0
  | empty : Prepared .empty none 0

/-- The cells that a call holds after `UNLOCK`. -/
inductive Answered : Ptr → Multiset (Nat × Node α) → Prop
  | null : Answered none 0
  | node (node : Nat) (record : Node α) : Answered (some node) {(node, record)}

namespace TsQueue

variable {q : TsQueue α} {nodes : List (Nat × Option α)} {held cells : Multiset (Nat × Node α)}

theorem Linked.prepare (linked : Linked q nodes held) (call : QueueCall α) :
    ∃ cells, Prepared call (q.prepare call).1 cells ∧
      Linked (q.prepare call).2 nodes (cells + held) := by
  cases call with
  | push val => exact ⟨_, .push val _, linked.newNode val⟩
  | pushInFront val => exact ⟨_, .pushInFront val _, linked.newNode val⟩
  | pop => exact ⟨0, .pop, by rwa [zero_add]⟩
  | size => exact ⟨0, .size, by rwa [zero_add]⟩
  | empty => exact ⟨0, .empty, by rwa [zero_add]⟩

/-- The locked part runs, answers as the list does, and leaves the nodes of the list. -/
theorem Linked.locked {call : QueueCall α} {node : Ptr} (prepared : Prepared call node cells)
    (linked : Linked q nodes (cells + held)) : ∃ q' nodes' node' cells',
      q.locked node call = some (((Deque.call (nodes.map Prod.snd) call).1, node'), q') ∧
      Answered node' cells' ∧ Linked q' nodes' (cells' + held) ∧
      nodes'.map Prod.snd = (Deque.call (nodes.map Prod.snd) call).2 ∧
      (q'.last = none → q.last = none ∧ call.pushed = []) := by
  cases prepared with
  | push val node =>
    obtain ⟨q', ran, linked', last⟩ := linked.pushLocked
    refine ⟨q', _, none, 0, ?_, .null, by rwa [zero_add], List.map_append, ?_⟩
    · simp only [TsQueue.locked, ran, unused, Option.bind_eq_bind, Option.bind_some, if_true,
        Option.map_some, Deque.call]
    · simp only [last, reduceCtorEq, false_implies]
  | pushInFront val node =>
    obtain ⟨q', ran, linked', last⟩ := linked.pushInFrontLocked
    refine ⟨q', _, none, 0, ?_, .null, by rwa [zero_add], rfl, fun null => absurd null last⟩
    simp only [TsQueue.locked, ran, unused, Option.bind_eq_bind, Option.bind_some, if_true,
      Option.map_some, Deque.call]
  | pop =>
    cases nodes with
    | nil =>
      -- popping from an empty queue answers NULL and changes nothing
      refine ⟨q, [], none, 0, ?_, .null, linked, rfl, fun null => ⟨null, rfl⟩⟩
      rw [TsQueue.locked, linked.popLocked_nil]
      rfl
    | cons node nodes =>
      rw [zero_add] at linked
      -- the call keeps the node, to free it after the lock is released
      obtain ⟨q', ran, linked', last⟩ := linked.popLocked_cons
      refine ⟨q', nodes, some node.1, _, ?_, .node _ _, linked', rfl, fun null => ⟨last ▸ null, rfl⟩⟩
      rw [TsQueue.locked, ran]
      rfl
  | size =>
    refine ⟨q, nodes, none, 0, ?_, .null, linked, rfl, fun null => ⟨null, rfl⟩⟩
    simp only [TsQueue.locked, tsQueueSize, linked.size, Deque.call, List.length_map]
  | empty =>
    refine ⟨q, nodes, none, 0, ?_, .null, linked, rfl, fun null => ⟨null, rfl⟩⟩
    simp only [TsQueue.locked, tsQueueEmpty, linked.size, Deque.call]
    cases nodes <;> rfl

theorem Linked.release {node : Ptr} (answered : Answered node cells)
    (linked : Linked q nodes (cells + held)) :
    ∃ q', q.release node = some q' ∧ Linked q' nodes held ∧ q'.last = q.last := by
  cases answered with
  | null => exact ⟨q, rfl, by rwa [zero_add] at linked, rfl⟩
  | node node record => exact linked.free

/-- A call runs, answers as the list does, and leaves the nodes of the list. -/
theorem Linked.call (linked : Linked q nodes held) (call : QueueCall α) : ∃ q' nodes',
    q.call call = some ((Deque.call (nodes.map Prod.snd) call).1, q') ∧
      Linked q' nodes' held ∧ nodes'.map Prod.snd = (Deque.call (nodes.map Prod.snd) call).2 ∧
      (q'.last = none → q.last = none ∧ call.pushed = []) := by
  obtain ⟨cells, prepared, linked₁⟩ := linked.prepare call
  obtain ⟨q₂, nodes₂, node₂, cells₂, ran, answered, linked₂, same, last⟩ := linked₁.locked prepared
  obtain ⟨q₃, freed, linked₃, last₃⟩ := linked₂.release answered
  refine ⟨q₃, nodes₂, ?_, linked₃, same, ?_⟩
  · rw [TsQueue.call_eq]
    simp only [ran, freed, Option.bind_eq_bind, Option.bind_some, Option.pure_def]
  · intro null
    obtain ⟨null₁, none⟩ := last (last₃ ▸ null)
    refine ⟨?_, none⟩
    cases call <;> exact null₁

theorem Linked.push (linked : Linked q nodes held) (val : Option α) : ∃ q' nodes',
    tsQueuePush q val = some (true, q') ∧ Linked q' nodes' held ∧
      nodes'.map Prod.snd = nodes.map Prod.snd ++ [val] := by
  obtain ⟨q', nodes', ran, linked', values, _⟩ := linked.call (.push val)
  obtain ⟨⟨_, _⟩, pushed, same⟩ := Option.map_eq_some_iff.mp ran
  cases same
  exact ⟨q', nodes', pushed, linked', values⟩

theorem Linked.pushInFront (linked : Linked q nodes held) (val : Option α) : ∃ q' nodes',
    tsQueuePushInFront q val = some (true, q') ∧ Linked q' nodes' held ∧
      nodes'.map Prod.snd = val :: nodes.map Prod.snd := by
  obtain ⟨q', nodes', ran, linked', values, _⟩ := linked.call (.pushInFront val)
  obtain ⟨⟨_, _⟩, pushed, same⟩ := Option.map_eq_some_iff.mp ran
  cases same
  exact ⟨q', nodes', pushed, linked', values⟩

theorem Linked.pop (linked : Linked q nodes held) : ∃ q' nodes',
    tsQueuePop q = some ((nodes.map Prod.snd).head?.join, q') ∧ Linked q' nodes' held ∧
      nodes'.map Prod.snd = (nodes.map Prod.snd).tail := by
  obtain ⟨q', nodes', ran, linked', values, _⟩ := linked.call .pop
  obtain ⟨⟨_, _⟩, popped, same⟩ := Option.map_eq_some_iff.mp ran
  cases same
  exact ⟨q', nodes', popped, linked', values⟩

end TsQueue

/-! ### Runs of calls -/

theorem TsQueue.Linked.calls {q : TsQueue α} {nodes : List (Nat × Option α)} (linked : Linked q nodes 0)
    (calls : List (QueueCall α)) : ∃ q' nodes',
      q.calls calls = some ((Deque.calls (nodes.map Prod.snd) calls).1, q') ∧
      Linked q' nodes' 0 ∧ nodes'.map Prod.snd = (Deque.calls (nodes.map Prod.snd) calls).2 ∧
      (q'.last = none → q.last = none ∧ calls.flatMap QueueCall.pushed = []) := by
  induction calls generalizing q nodes with
  | nil => exact ⟨q, nodes, rfl, linked, rfl, fun null => ⟨null, rfl⟩⟩
  | cons call calls ih =>
    obtain ⟨q₁, nodes₁, ran, linked₁, same, last⟩ := linked.call call
    obtain ⟨q₂, nodes₂, ran', linked₂, same', last'⟩ := ih linked₁
    refine ⟨q₂, nodes₂, ?_, linked₂, ?_, ?_⟩
    · simp only [TsQueue.calls, ran, ran', same, Option.bind_eq_bind, Option.bind_some, Deque.calls]
    · rw [same', same]
      rfl
    · intro null
      obtain ⟨null₁, none₂⟩ := last' null
      obtain ⟨null₀, none₁⟩ := last null₁
      exact ⟨null₀, by rw [List.flatMap_cons, none₁, none₂]; rfl⟩

/-! ### Destruction -/

theorem destroyLoop_spec (destructor : Option α → σ → σ) {q : TsQueue α}
    {nodes : List (Nat × Option α)} {held : Multiset (Nat × Node α)} {budget : Nat}
    (owns : Owns q.heap (Chain.cells Node.mk nodes none + held))
    (first : q.first = Chain.entry nodes none) (enough : nodes.length < budget) (state : σ) :
    ∃ q', destroyLoop (some destructor) budget q state =
        some (q', (nodes.map Prod.snd).foldl (fun state val => destructor val state) state) ∧
      Owns q'.heap held := by
  induction nodes generalizing q budget state with
  | nil =>
    obtain ⟨budget, rfl⟩ : ∃ n, budget = n + 1 := ⟨budget - 1, by omega⟩
    rw [Chain.entry] at first
    refine ⟨q, ?_, by rwa [Chain.cells, zero_add] at owns⟩
    simp only [destroyLoop, first, List.map_nil, List.foldl_nil]
  | cons node nodes ih =>
    obtain ⟨budget, rfl⟩ : ∃ n, budget = n + 1 := ⟨budget - 1, by omega⟩
    rw [Chain.cells_cons, add_assoc] at owns
    rw [Chain.entry] at first
    have there : q.heap.read node.1 = some ⟨Chain.entry nodes none, node.2⟩ := owns.read (by simp)
    obtain ⟨heap, freed, _, owns'⟩ := owns.free
    have shorter : nodes.length < budget := by
      rw [List.length_cons] at enough
      omega
    obtain ⟨q', ran, empty⟩ := ih (q := { q with heap := heap, first := Chain.entry nodes none })
      owns' rfl shorter (destructor node.2 state)
    refine ⟨q', ?_, empty⟩
    simp only [destroyLoop, first, there, TsQueue.free, freed, ran, Option.bind_eq_bind,
      Option.bind_some, Option.pure_def, List.map_cons, List.foldl_cons]

/-- `ts_queue_destroy` hands every value to the destructor once, from the front, and leaves
no node. -/
theorem tsQueueDestroy_spec (destructor : Option α → σ → σ) {q : TsQueue α}
    {nodes : List (Nat × Option α)} (linked : Linked q nodes 0) (state : σ) :
    ∃ q', tsQueueDestroy (some destructor) q state =
        some (q', (nodes.map Prod.snd).foldl (fun state val => destructor val state) state) ∧
      Owns q'.heap 0 ∧ q'.frozen = true := by
  have enough : nodes.length < q.heap.next + 1 := by
    have bound := linked.owns.card_le
    rw [add_zero, Chain.card_cells] at bound
    omega
  obtain ⟨q', ran, empty⟩ := destroyLoop_spec destructor linked.owns linked.first enough state
  refine ⟨{ q' with frozen := true }, ?_, empty, rfl⟩
  simp only [tsQueueDestroy, ran, Option.bind_eq_bind, Option.bind_some, Option.pure_def]

end AcosChat

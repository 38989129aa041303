import AcosChat.TsQueue.Refinement

/-!
# `ts_queue` under many threads

A call allocates its node, does its locked part, and releases what it has to release, with
steps of other calls between. In every interleaving no step faults, and the answers are
those of the list in the order of the locked parts.
-/
namespace AcosChat

open Store Run TsQueue

variable {α : Type}

/-- A call in flight, with the node that it holds. -/
inductive QueueStage (α : Type) where
  | called (call : QueueCall α) (node : Ptr)
  | answered (answer : QueueAnswer α) (node : Ptr)

structure QueueThreads (α : Type) where
  q : TsQueue α
  calls : List (QueueStage α)

inductive QueueAction (α : Type) where
  | call (call : QueueCall α)
  | locked (i : Nat)
  | release (i : Nat)

/-- What is seen of a step is a call that is answered. A step that faults is the last. -/
def queueStep : Step (QueueThreads α) (QueueAction α) (QueueCall α × QueueAnswer α)
  | s, .call call =>
    some ([], some ⟨(s.q.prepare call).2, s.calls ++ [.called call (s.q.prepare call).1]⟩)
  | s, .locked i =>
    match s.calls[i]? with
    | some (.called call node) =>
      match s.q.locked node call with
      | some ((answer, node), q) => some ([(call, answer)], some ⟨q, s.calls.set i (.answered answer node)⟩)
      | none => some ([], none)
    | _ => none
  | s, .release i =>
    match s.calls[i]? with
    | some (.answered _ node) => some ([], (s.q.release node).map fun q => ⟨q, s.calls.eraseIdx i⟩)
    | _ => none

/-! ### What the calls hold -/

inductive StageHolds : QueueStage α → Multiset (Nat × Node α) → Prop
  | called {call : QueueCall α} {node : Ptr} {cells : Multiset (Nat × Node α)}
      (prepared : Prepared call node cells) : StageHolds (.called call node) cells
  | answered (answer : QueueAnswer α) {node : Ptr} {cells : Multiset (Nat × Node α)}
      (answered : Answered node cells) : StageHolds (.answered answer node) cells

inductive StagesHold : List (QueueStage α) → Multiset (Nat × Node α) → Prop
  | nil : StagesHold [] 0
  | cons {stage : QueueStage α} {stages : List (QueueStage α)} {cells held : Multiset (Nat × Node α)}
      (first : StageHolds stage cells) (rest : StagesHold stages held) :
      StagesHold (stage :: stages) (cells + held)

/-- What one of the calls holds, apart from what the others do. -/
theorem stagesHold_middle {before after : List (QueueStage α)} {stage : QueueStage α}
    {total : Multiset (Nat × Node α)} : StagesHold (before ++ stage :: after) total ↔
      ∃ cells held, StageHolds stage cells ∧ StagesHold (before ++ after) held ∧
        total = cells + held := by
  induction before generalizing total with
  | nil =>
    constructor
    · rintro (_ | ⟨first, rest⟩)
      exact ⟨_, _, first, rest, rfl⟩
    · rintro ⟨cells, held, first, rest, rfl⟩
      exact .cons first rest
  | cons other before ih =>
    constructor
    · rintro (_ | ⟨first, rest⟩)
      obtain ⟨cells, held, here, others, rfl⟩ := ih.mp rest
      exact ⟨cells, _, here, .cons first others, add_left_comm _ _ _⟩
    · rintro ⟨cells, held, here, others, rfl⟩
      cases others with
      | cons first others =>
        have rest := ih.mpr ⟨cells, _, here, others, rfl⟩
        exact add_left_comm cells _ _ ▸ StagesHold.cons first rest

theorem stagesHold_at {calls : List (QueueStage α)} {i : Nat} {stage : QueueStage α}
    (there : calls[i]? = some stage) {total : Multiset (Nat × Node α)}
    (holds : StagesHold calls total) : ∃ cells held, StageHolds stage cells ∧ total = cells + held ∧
      StagesHold (calls.eraseIdx i) held ∧
      ∀ stage' cells', StageHolds stage' cells' → StagesHold (calls.set i stage') (cells' + held) := by
  obtain ⟨inside, rfl⟩ := List.getElem?_eq_some_iff.mp there
  have split : calls = calls.take i ++ calls[i] :: calls.drop (i + 1) := by
    rw [← List.drop_eq_getElem_cons inside, List.take_append_drop]
  rw [split] at holds
  obtain ⟨cells, held, here, others, rfl⟩ := stagesHold_middle.mp holds
  refine ⟨cells, held, here, rfl, ?_, ?_⟩
  · rwa [List.eraseIdx_eq_take_drop_succ]
  · intro stage' cells' here'
    rw [List.set_eq_take_append_cons_drop, if_pos inside]
    exact stagesHold_middle.mpr ⟨cells', held, here', others, rfl⟩

/-! ### The runs -/

theorem Deque.calls_append (abs : Deque α) (calls later : List (QueueCall α)) :
    abs.calls (calls ++ later) =
      ((abs.calls calls).1 ++ ((abs.calls calls).2.calls later).1, ((abs.calls calls).2.calls later).2) := by
  induction calls generalizing abs with
  | nil => rfl
  | cons call calls ih =>
    simp only [List.cons_append, Deque.calls]
    rw [ih]

/-- The calls that are answered have the answers of the list, which the queue represents;
what the calls in flight hold is apart from its nodes. -/
def Linearized (trace : List (QueueCall α × QueueAnswer α)) (s : QueueThreads α) : Prop :=
  ∃ nodes held, Linked s.q nodes held ∧ StagesHold s.calls held ∧
    trace.map Prod.snd = (Deque.calls [] (trace.map Prod.fst)).1 ∧
    nodes.map Prod.snd = (Deque.calls [] (trace.map Prod.fst)).2

theorem linearized_init : Linearized ([] : List (QueueCall α × QueueAnswer α)) ⟨tsQueueInit, []⟩ :=
  ⟨[], 0, linked_init, .nil, rfl, rfl⟩

/-- One step: it does not fault, and keeps the answers those of the list. -/
theorem queueStep_linearized {trace did : List (QueueCall α × QueueAnswer α)} {s : QueueThreads α}
    {action : QueueAction α} {rest : Option (QueueThreads α)} (linearized : Linearized trace s)
    (taken : queueStep s action = some (did, rest)) :
    ∃ s', rest = some s' ∧ Linearized (trace ++ did) s' := by
  obtain ⟨nodes, held, linked, holds, answers, values⟩ := linearized
  cases action with
  | call call =>
    cases taken
    -- a call that waits for the lock holds a node that no other call and no queue has
    obtain ⟨cells, prepared, linked'⟩ := linked.prepare call
    refine ⟨_, rfl, nodes, cells + held, linked', ?_, ?_, ?_⟩
    · have more : StagesHold (s.calls ++ [.called call (s.q.prepare call).1]) (cells + held) := by
        apply stagesHold_middle.mpr
        exact ⟨cells, held, .called prepared, by rwa [List.append_nil], rfl⟩
      exact more
    · rwa [List.append_nil]
    · rwa [List.append_nil]
  | locked i =>
    simp only [queueStep] at taken
    split at taken
    next call node there =>
      obtain ⟨cells, held, here, rfl, _, others⟩ := stagesHold_at there holds
      cases here with
      | called prepared =>
        -- the linearization point: the call takes effect and gets its answer here
        obtain ⟨q', nodes', node', cells', ran, answered, linked', same, _⟩ := linked.locked prepared
        rw [ran] at taken
        cases taken
        refine ⟨_, rfl, nodes', _, linked', others _ _ (.answered _ answered), ?_, ?_⟩
        · rw [List.map_append, List.map_append, Deque.calls_append, answers, ← values]
          rfl
        · rw [List.map_append, Deque.calls_append, ← values, same]
          rfl
    next => cases taken
  | release i =>
    simp only [queueStep] at taken
    split at taken
    next answer node there =>
      obtain ⟨cells, held, here, rfl, others, _⟩ := stagesHold_at there holds
      cases here with
      | answered _ answered =>
        obtain ⟨q', freed, linked', _⟩ := linked.release answered
        rw [freed] at taken
        cases taken
        exact ⟨_, rfl, nodes, held, linked', others, by rwa [List.append_nil], by rwa [List.append_nil]⟩
    next => cases taken

theorem linearized_of_ran {trace : List (QueueCall α × QueueAnswer α)} {s : QueueThreads α}
    (ran : Ran queueStep (fun _ _ => True) ⟨tsQueueInit, []⟩ trace s) : Linearized trace s := by
  apply ran.invariant linearized_init
  intro trace s action did s' linearized _ taken
  obtain ⟨_, same, linearized'⟩ := queueStep_linearized linearized taken
  cases same
  exact linearized'

/-- `ts_queue` is a double-ended list. In every sequence of calls the answers are those of the
list, which loses and doubles no value; the nodes from `first` are those of the list,
number `size`, and end at `last`, which dangles when the queue has become empty. The same
holds in every interleaving, in the order of the locked parts. -/
theorem ts_queue_refines_deque :
    (∀ calls : List (QueueCall α), ∃ q : TsQueue α,
      (tsQueueInit : TsQueue α).calls calls = some ((Deque.calls [] calls).1, q) ∧
      Represents q (Deque.calls [] calls).2 ∧
      (Deque.allPopped [] calls ++ (Deque.calls [] calls).2).Perm (calls.flatMap QueueCall.pushed) ∧
      (q.size = 0 → calls.flatMap QueueCall.pushed ≠ [] →
        ∃ node, q.last = some node ∧ q.heap.read node = none)) ∧
    ∀ (trace : List (QueueCall α × QueueAnswer α)) (s : QueueThreads α),
      Ran queueStep (fun _ _ => True) ⟨tsQueueInit, []⟩ trace s →
      trace.map Prod.snd = (Deque.calls [] (trace.map Prod.fst)).1 ∧
      Represents s.q (Deque.calls [] (trace.map Prod.fst)).2 ∧
      ∀ action did, queueStep s action ≠ some (did, none) := by
  constructor
  · intro calls
    obtain ⟨q, nodes, ran, linked, values, last⟩ := linked_init.calls calls
    refine ⟨q, ran, values ▸ linked.represents, ?_, ?_⟩
    · simpa only [List.append_nil] using Deque.calls_conserve [] calls
    · intro empty pushed
      have none : nodes = [] := List.length_eq_zero_iff.mp (linked.size ▸ empty)
      subst none
      cases pointed : q.last with
      | none => exact absurd (last pointed).2 pushed
      | some node =>
        refine ⟨node, rfl, ?_⟩
        -- no cell is left
        have owns := linked.owns
        rw [Chain.cells, add_zero] at owns
        cases there : q.heap.read node with
        | none => rfl
        | some record => exact absurd ((owns.exact node record).mpr there) (Multiset.notMem_zero _)
  · intro trace s ran
    obtain ⟨nodes, held, linked, _, answers, values⟩ := linearized_of_ran ran
    refine ⟨answers, values ▸ linked.represents, ?_⟩
    intro action did faults
    obtain ⟨_, same, _⟩ := queueStep_linearized (linearized_of_ran ran) faults
    cases same

/-- Two values and the queue empty again; a pop that overtakes the push before it. -/
theorem ts_queue_refines_deque_two :
    (∃ q : TsQueue Nat, (tsQueueInit : TsQueue Nat).calls
        [.push (some 1), .pushInFront (some 2), .pop, .pop] =
          some ([.success true, .success true, .value (some 2), .value (some 1)], q) ∧
      ∃ node, q.last = some node ∧ q.heap.read node = none) ∧
    ∃ s : QueueThreads Nat, Ran queueStep (fun _ _ => True) ⟨tsQueueInit, []⟩
        [(.pop, .value none), (.push (some 1), .success true)] s ∧ Represents s.q [some 1] := by
  obtain ⟨sequences, interleavings⟩ := @ts_queue_refines_deque Nat
  constructor
  · obtain ⟨q, ran, represents, _, dangles⟩ :=
      sequences [.push (some 1), .pushInFront (some 2), .pop, .pop]
    obtain ⟨_, visits, _, values, length, _⟩ := represents
    have empty : q.size = 0 := by
      rw [← length, ← List.length_map, values]
      rfl
    exact ⟨q, ran, dangles empty (by decide)⟩
  · have ran : Ran queueStep (fun _ _ => True) (⟨tsQueueInit, []⟩ : QueueThreads Nat)
        [(.pop, .value none), (.push (some 1), .success true)] _ :=
      ran_of_replay (meets_of_forall (fun _ _ => trivial) _
        [.call (.push (some 1)), .call .pop, .locked 1, .locked 0]) rfl
    exact ⟨_, ran, (interleavings _ _ ran).2.1⟩

end AcosChat

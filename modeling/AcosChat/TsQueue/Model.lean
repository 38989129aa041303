import AcosChat.Lib.Store

/-!
# `ts_queue`

`lib/ts_queue/src/ts_queue.c`: a singly linked queue on the heap, with pointers to both
ends. A function is `none` where it dereferences the null pointer or a node that is not
allocated. What stands between `LOCK` and `UNLOCK` is a function of its own: it is one step,
whatever other threads do; the nodes that are allocated before it and released after it
are known to one thread only.
-/
namespace AcosChat

open Store

variable {α σ : Type}

namespace TsQueue

/-- `ts_queue_node_t`; a null value is `none`. -/
structure Node (α : Type) where
  next : Ptr
  val : Option α
deriving DecidableEq, Repr

abbrev Heap (α : Type) := Store (Node α)

end TsQueue

/-- `ts_queue_t`, with the heap that its nodes are on. -/
structure TsQueue (α : Type) where
  heap : TsQueue.Heap α
  first : Ptr
  last : Ptr
  frozen : Bool
  size : Nat

namespace TsQueue

/-- `calloc` of a node, and `node->val = val`. -/
def newNode (q : TsQueue α) (val : Option α) : Nat × TsQueue α :=
  let (node, heap) := q.heap.alloc ⟨none, val⟩
  (node, { q with heap := heap })

def free (q : TsQueue α) (node : Nat) : Option (TsQueue α) := do
  return { q with heap := ← q.heap.free node }

/-- `ts_queue_push` under the lock. -/
def pushLocked (q : TsQueue α) (node : Nat) : Option (Bool × TsQueue α) := do
  if q.frozen then return (false, q)
  else if q.size = 0 then
    return (true, { q with last := some node, first := some node, size := 1 })
  else
    let heap ← q.heap.modify (← q.last) fun record => { record with next := some node }
    return (true, { q with heap := heap, last := some node, size := q.size + 1 })

/-- `ts_queue_push_in_front` under the lock. -/
def pushInFrontLocked (q : TsQueue α) (node : Nat) : Option (Bool × TsQueue α) := do
  if q.frozen then return (false, q)
  else if q.size = 0 then
    return (true, { q with last := some node, first := some node, size := 1 })
  else
    let heap ← q.heap.modify node fun record => { record with next := q.first }
    return (true, { q with heap := heap, first := some node, size := q.size + 1 })

/-- `ts_queue_pop` under the lock: `val` and `node`. -/
def popLocked (q : TsQueue α) : Option ((Option α × Ptr) × TsQueue α) := do
  if !q.frozen && 0 < q.size then
    let node ← q.first
    let record ← q.heap.read node
    return ((record.val, some node), { q with first := record.next, size := q.size - 1 })
  else return ((none, none), q)

/-- `free(node)`, if `node` is not null. -/
def release (q : TsQueue α) (node : Ptr) : Option (TsQueue α) :=
  match node with
  | none => some q
  | some node => q.free node

/-- The node of a call that did not succeed is to be released. -/
def unused (success : Bool) (node : Nat) : Ptr := if success then none else some node

end TsQueue

open TsQueue

/-- `ts_queue_init` -/
def tsQueueInit : TsQueue α := ⟨Store.empty, none, none, false, 0⟩

def tsQueuePush (q : TsQueue α) (val : Option α) : Option (Bool × TsQueue α) := do
  let (node, q) := q.newNode val
  let (success, q) ← q.pushLocked node
  return (success, ← q.release (unused success node))

def tsQueuePushInFront (q : TsQueue α) (val : Option α) : Option (Bool × TsQueue α) := do
  let (node, q) := q.newNode val
  let (success, q) ← q.pushInFrontLocked node
  return (success, ← q.release (unused success node))

def tsQueuePop (q : TsQueue α) : Option (Option α × TsQueue α) := do
  let ((val, node), q) ← q.popLocked
  return (val, ← q.release node)

def tsQueueSize (q : TsQueue α) : Nat := q.size

def tsQueueEmpty (q : TsQueue α) : Bool := q.size == 0

/-- The loop of `ts_queue_destroy`, with what its destructor works on. -/
def destroyLoop (destructor : Option (Option α → σ → σ)) :
    Nat → TsQueue α → σ → Option (TsQueue α × σ)
  | 0, _, _ => none
  | budget + 1, q, state =>
    match q.first with
    | none => some (q, state)
    | some node => do
      let record ← q.heap.read node
      let state := match destructor with
        | none => state
        | some destructor => destructor record.val state
      let q ← q.free node
      destroyLoop destructor budget { q with first := record.next } state

/-- `ts_queue_destroy`: the loop is given as many steps as nodes have ever been allocated,
and one more. -/
def tsQueueDestroy (destructor : Option (Option α → σ → σ)) (q : TsQueue α) (state : σ) :
    Option (TsQueue α × σ) := do
  let (q, state) ← destroyLoop destructor (q.heap.next + 1) q state
  return ({ q with frozen := true }, state)

end AcosChat

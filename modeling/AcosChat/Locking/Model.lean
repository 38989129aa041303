import AcosChat.Lib.Locks

/-!
# The mutexes

What the functions of `ts_map.c`, `ts_queue.c`, `ts_vector.c`, `event_loop.c`, `logger.h` and
`message.c` do to mutexes, and to the data that go with each. A map, a queue or a vector is
named by its mutex. A `read` is of the fields of the struct and of its nodes, a `write` changes
them, and may read them first; `ts_map_find` and `ts_map_has` write, for they splay. Both
programs are built with the locks of `ts_map` and `ts_vector` switched on. `pthread_join` waits for
a lock that a thread has for life. What SQLite and the C library lock for themselves is left out.
-/
namespace AcosChat.Locking

open Locks Code

/-- The event loops: the first three of the server, all but `workers` of the client. -/
inductive LoopName where
  | controller
  | listener
  | workers
  | gui
deriving DecidableEq, Repr

inductive ThreadName where
  | controller
  | listener
  | gui
  /-- By its `pthread_t`. -/
  | worker (id : Nat)
deriving DecidableEq, Repr

/-- The mutexes of both programs, and what `pthread_join` waits for. -/
inductive Mutex where
  | life (thread : ThreadName)
  /-- `mgr->mutex` -/
  | mgr
  | uidToSid
  | sidToUid
  /-- That of the sessions of one user, by the address of the map. -/
  | session (m : Nat)
  | clients
  /-- That of the map of `worker_data_t` -/
  | workers
  | handlers (el : LoopName)
  | deleters (el : LoopName)
  | queue (el : LoopName)
  /-- That of a vector, by its address. -/
  | vector (v : Nat)
  /-- `logger_mutex`; what it guards is the log. -/
  | logger
deriving DecidableEq, Repr

abbrev LockCode := Code Mutex Mutex

open Mutex

/-- LOCK, a change, UNLOCK. -/
def changing (m : Mutex) : LockCode := locked m (write m)

/-- LOCK, a look at `frosen`, `frozen` or `size`, a change if it allows one, UNLOCK. -/
def checking (m : Mutex) : LockCode := locked m (block [read m, perhaps (write m)])

/-- LOCK, one node after the other, the end of the whole, UNLOCK. -/
def destroying (m : Mutex) (destructor : LockCode) : LockCode :=
  locked m (block [loop (block [read m, destructor, write m]), write m])

/-! ### `ts_map.c` -/

abbrev tsMapInit : Mutex → LockCode := changing

abbrev tsMapDestroy : Mutex → LockCode → LockCode := destroying

abbrev tsMapInsert : Mutex → LockCode := checking

abbrev tsMapFind : Mutex → LockCode := changing

abbrev tsMapHas : Mutex → LockCode := changing

abbrev tsMapErase : Mutex → LockCode := checking

def tsMapSize (m : Mutex) : LockCode := locked m (read m)

def tsMapForall (m : Mutex) (callback : LockCode) : LockCode :=
  locked m (loop (block [read m, callback]))

/-! ### `ts_queue.c` -/

abbrev tsQueueInit : Mutex → LockCode := changing

abbrev tsQueueDestroy : Mutex → LockCode → LockCode := destroying

abbrev tsQueuePush : Mutex → LockCode := checking

abbrev tsQueuePushInFront : Mutex → LockCode := checking

abbrev tsQueuePop : Mutex → LockCode := checking

/-! ### `ts_vector.c` -/

abbrev tsVectorInit : Mutex → LockCode := changing

abbrev tsVectorDestroy : Mutex → LockCode := changing

abbrev tsVectorPushBack : Mutex → LockCode := changing

abbrev tsVectorClear : Mutex → LockCode := changing

/-! ### `event_loop.c` -/

def eventLoopInit (el : LoopName) : LockCode :=
  block [tsQueueInit (queue el), tsMapInit (handlers el), tsMapInit (deleters el),
    tsMapInsert (deleters el)]

/-- The deleters are those of the events still in the queue. -/
def eventLoopDestroy (el : LoopName) (deleterCodes : List LockCode) : LockCode :=
  block [tsQueueDestroy (queue el) (oneOf deleterCodes), tsMapDestroy (deleters el) skip,
    tsMapDestroy (handlers el) skip]

/-- The handlers and the deleters of the loop; `default_deleter` and `exit_evt_deleter_stub`
lock nothing. -/
def eventLoopIteration (el : LoopName) (handlerCodes deleterCodes : List LockCode) : LockCode :=
  block [tsQueuePop (queue el),
    perhaps (block [tsMapFind (handlers el), oneOf handlerCodes, oneOf deleterCodes])]

def runEventLoop (el : LoopName) (handlerCodes deleterCodes : List LockCode) : LockCode :=
  loop (eventLoopIteration el handlerCodes deleterCodes)

def sendEvent (el : LoopName) : LockCode := block [tsMapFind (deleters el), tsQueuePush (queue el)]

def sendUrgentEvent (el : LoopName) : LockCode :=
  block [tsMapFind (deleters el), tsQueuePushInFront (queue el)]

/-! ### `logger.h`, `message.c` -/

/-- LOG -/
def log : LockCode := changing logger

def deleteMessage (tokens : Nat) : LockCode := tsVectorDestroy (vector tokens)

/-- `LOG("Corrupted message")` for each token of no known type. -/
def packMessage : LockCode := loop (perhaps log)

def sendMessage : LockCode := block [packMessage, perhaps log]

def sendStatusCode : LockCode := log

/-- A message of tokens in a vector of its own, filled, packed, sent and deleted, as both programs
do in many places. -/
def sendTokens : LockCode :=
  any fun tokens => block [tsVectorInit (vector tokens), loop (tsVectorPushBack (vector tokens)),
    sendMessage, deleteMessage tokens]

/-- The vector of tokens is destroyed again if the frame is corrupted. -/
def unpackMessage2 (tokens : Nat) : LockCode :=
  block [tsVectorInit (vector tokens), loop (tsVectorPushBack (vector tokens)),
    perhaps (block [log, tsVectorDestroy (vector tokens)])]

/-! ### The discipline -/

/-- The order in which the mutexes are taken. Who waits for a worker may have the map of the
workers. -/
@[simp] def rank : Mutex → Nat
  | life (.worker _) => 2
  | life _ => 0
  | workers => 1
  | mgr => 3
  | uidToSid => 4
  | session _ => 5
  | sidToUid | clients => 6
  | handlers _ | deleters _ => 7
  | queue _ => 8
  | vector _ => 9
  | logger => 10

/-- Each is guarded by its own mutex; who changes the sessions of a user has `mgr->mutex`, too,
and with that `conn_mgr_get_number_of_sessions` reads them. -/
@[simp] def guards : Mutex → List Mutex
  | session m => [mgr, session m]
  | m => [m]

theorem mem_guards (m : Mutex) : m ∈ guards m := by
  cases m <;> simp

def discipline : Discipline Mutex Mutex where
  rank := rank
  guards := guards
  guarded m := List.ne_nil_of_mem (mem_guards m)

/-- All that is held ranks below this. -/
def Below (n : Nat) (locks : List Mutex) : Prop := ∀ lock ∈ locks, rank lock < n

@[simp] theorem below_nil (n : Nat) : Below n [] := by simp [Below]

@[simp] theorem below_cons {n : Nat} {m : Mutex} {locks : List Mutex} :
    Below n (m :: locks) ↔ rank m < n ∧ Below n locks := by simp [Below]

/-- Nothing is held that `mgr->mutex` is not taken after. -/
def Idle (locks : List Mutex) : Prop := Below (rank mgr) locks

theorem Idle.below {locks : List Mutex} (idle : Idle locks) (n : Nat) (high : 3 ≤ n) : Below n locks :=
  fun lock member => Nat.lt_of_lt_of_le (idle lock member) high

@[simp] theorem above_iff {locks : List Mutex} {m : Mutex} :
    discipline.Above locks m ↔ Below (rank m) locks := Iff.rfl

/-! ### What each function needs of its callers -/

/-- The mutexes held allow a function that changes what this one guards. -/
def Ready (locks : List Mutex) (m : Mutex) : Prop :=
  Below (rank m) locks ∧ ∀ lock ∈ guards m, lock ∈ m :: locks

section

variable {locks : List Mutex} {m : Mutex}

/-- Whoever has the mutex may read, whatever else is held. -/
@[simp] theorem keeps_read : (read m : LockCode).Keeps discipline (m :: locks) :=
  ⟨m, mem_guards m, List.mem_cons_self⟩

@[simp] theorem keeps_write :
    (write m : LockCode).Keeps discipline locks ↔ ∀ lock ∈ guards m, lock ∈ locks := Iff.rfl

@[simp] theorem keeps_changing : (changing m).Keeps discipline locks ↔ Ready locks m := Iff.rfl

@[simp] theorem keeps_checking : (checking m).Keeps discipline locks ↔ Ready locks m := by
  simp [checking, Ready]

@[simp] theorem keeps_destroying {destructor : LockCode} :
    (destroying m destructor).Keeps discipline locks ↔
      Ready locks m ∧ destructor.Keeps discipline (m :: locks) := by
  simp only [destroying, Ready, keeps_locked, keeps_block, List.forall_mem_cons, keeps_loop, keeps_read,
    keeps_write, above_iff]
  tauto

@[simp] theorem keeps_tsMapSize : (tsMapSize m).Keeps discipline locks ↔ Below (rank m) locks := by
  simp [tsMapSize]

@[simp] theorem keeps_tsMapForall {callback : LockCode} :
    (tsMapForall m callback).Keeps discipline locks ↔
      Below (rank m) locks ∧ callback.Keeps discipline (m :: locks) := by
  simp [tsMapForall]

@[simp] theorem keeps_sendEvent {el : LoopName} :
    (sendEvent el).Keeps discipline locks ↔ Ready locks (deleters el) ∧ Ready locks (queue el) := by
  simp [sendEvent]

@[simp] theorem keeps_sendUrgentEvent {el : LoopName} :
    (sendUrgentEvent el).Keeps discipline locks ↔ Ready locks (deleters el) ∧ Ready locks (queue el) := by
  simp [sendUrgentEvent]

/-- A loop runs its handlers and deleters without a mutex of its own. -/
@[simp] theorem keeps_eventLoopIteration {el : LoopName} {handlerCodes deleterCodes : List LockCode} :
    (eventLoopIteration el handlerCodes deleterCodes).Keeps discipline locks ↔
      Ready locks (queue el) ∧ Ready locks (handlers el) ∧
        (∀ code ∈ handlerCodes, code.Keeps discipline locks) ∧
        ∀ code ∈ deleterCodes, code.Keeps discipline locks := by
  simp [eventLoopIteration]

/-- A queue is destroyed with the deleters run under its mutex. -/
@[simp] theorem keeps_eventLoopDestroy {el : LoopName} {deleterCodes : List LockCode} :
    (eventLoopDestroy el deleterCodes).Keeps discipline locks ↔
      (Ready locks (queue el) ∧ ∀ code ∈ deleterCodes, code.Keeps discipline (queue el :: locks)) ∧
        Ready locks (deleters el) ∧ Ready locks (handlers el) := by
  simp [eventLoopDestroy]

@[simp] theorem keeps_packMessage : packMessage.Keeps discipline locks ↔ Ready locks logger := by
  simp [packMessage, log]

@[simp] theorem keeps_sendMessage : sendMessage.Keeps discipline locks ↔ Ready locks logger := by
  simp [sendMessage, log]

theorem keeps_sendTokens (below : Below 9 locks) : sendTokens.Keeps discipline locks := by
  have logged : Below 10 locks := fun lock member => Nat.lt_succ_of_lt (below lock member)
  simp [sendTokens, deleteMessage, Ready, logged, below]

end

end AcosChat.Locking

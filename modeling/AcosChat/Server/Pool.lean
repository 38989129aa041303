import AcosChat.Lib.Run
import AcosChat.ConnMgr.Model

/-!
# The pool of workers

The controller of `server/controller.c` with CHANGE_WORKER_CNT and WORKER_EXIT events, and
any number of workers, up to the end of `controller_thread`. Each round of a loop that runs
or stops workers is a step. `data->workers` is the controller's alone, so the handler of
WORKER_EXIT is one step, taken when its `pthread_join` returns. `pthread_create` succeeds.
-/
namespace AcosChat

open Std Run

/-- Where the thread of a worker is. -/
inductive WorkerPhase where
  /-- In `run_event_loop`, between two events. -/
  | idle
  /-- The handler of a job is running. -/
  | busy
  /-- It has taken EXIT_EVT, and has left `run_event_loop`. -/
  | exiting
  /-- It has sent its WORKER_EXIT event, and has ended. -/
  | ended
deriving DecidableEq, Repr

/-- The worker has not taken EXIT_EVT. -/
def WorkerPhase.runs : WorkerPhase → Bool
  | .idle | .busy => true
  | .exiting | .ended => false

@[simp] theorem runs_idle : WorkerPhase.idle.runs = true := rfl
@[simp] theorem runs_busy : WorkerPhase.busy.runs = true := rfl
@[simp] theorem runs_exiting : WorkerPhase.exiting.runs = false := rfl
@[simp] theorem runs_ended : WorkerPhase.ended.runs = false := rfl

/-- `worker_data_t`; threads have numbers in the order in which they were started. -/
structure Worker where
  thread : Nat
  workerId : Int32
  phase : WorkerPhase
deriving DecidableEq, Repr

/-- An event of the controller, with what its handler needs of it. -/
inductive PoolEvent where
  | changeWorkerCnt (cnt : Int32)
  | workerExit (workerId : Int32)
  | exit
  /-- An INPUT_MSG event; there is a job for it if the message can be unpacked. -/
  | inputMsg (unpacked : Bool)
  /-- A BROADCAST_MESSAGE event; there is a job for each of the registered sockets. -/
  | broadcastMessage (sids : Nat)
deriving DecidableEq, Repr

/-- An event of the workers. -/
inductive WorkersEvent where
  | exit
  | job
deriving DecidableEq, Repr

/-- Where `controller_thread` is. -/
inductive ControllerStage where
  /-- In `run_event_loop`. -/
  | running
  /-- In `change_worker_cnt_event_handler`, with `delta`. -/
  | resizing (delta : Int)
  /-- In the loop that stops the workers, with `i`. -/
  | stopping (i : Int)
  /-- In the loop while `workers_cnt > 0`. -/
  | draining
  | stopped
deriving DecidableEq, Repr

structure Pool where
  stage : ControllerStage
  queue : List PoolEvent
  workersQueue : List WorkersEvent
  /-- `data->workers`: the thread of each worker, by its id. -/
  workers : KeyMap Nat
  workersCnt : Int
  /-- The threads that have not been joined. -/
  threads : List Worker
  started : Nat

/-- What is observed. -/
inductive PoolSighting where
  /-- A CHANGE_WORKER_CNT event is handled, with so many orders to exit in flight. -/
  | handled (cnt : Int32) (inFlight : Nat)
  | started (thread : Nat)
  | posted (thread : Nat)
  /-- The worker is taken out of `data->workers` and its thread joined. -/
  | joined (thread : Nat)
deriving DecidableEq, Repr

namespace Pool

/-- `controller_init` -/
def init : Pool := ⟨.running, [], [], ∅, 0, [], 0⟩

/-! ### What is in flight -/

/-- The workers that have not taken EXIT_EVT. -/
def running (p : Pool) : Nat := p.threads.countP fun w => w.phase.runs

/-- The workers between taking EXIT_EVT and sending WORKER_EXIT. -/
def exiting (p : Pool) : Nat := p.threads.countP fun w => w.phase = .exiting

/-- The EXIT_EVTs in the workers' queue. -/
def orders (p : Pool) : Nat := p.workersQueue.count .exit

/-- The ids of the WORKER_EXIT events in the controller's queue. -/
def exits (p : Pool) : List Int32 :=
  p.queue.filterMap fun
    | .workerExit workerId => some workerId
    | _ => none

/-- The orders to exit that `workers_cnt` does not know of yet. -/
def inFlight (p : Pool) : Nat := p.orders + p.exiting + p.exits.length

/-! ### The controller -/

/-- `unique_id`, which is called for workers only. -/
def uniqueId (p : Pool) : UInt64 := UInt64.ofNat (p.started + 1)

/-- The `worker_id` of the next worker, an `int`. -/
def nextId (p : Pool) : Int32 := intOfWord p.uniqueId

/-- `run_worker` -/
def runWorker (p : Pool) : Pool :=
  { p with
    threads := p.threads ++ [⟨p.started, p.nextId, .idle⟩]
    -- ts_map_insert does not overwrite an id that is there.
    workers := p.workers.insertIfNew (wordOfInt p.nextId) (some p.started)
    workersCnt := p.workersCnt + 1
    started := p.started + 1 }

/-- `decrease_workers` -/
def decreaseWorkers (p : Pool) : Pool := { p with workersQueue := .exit :: p.workersQueue }

/-- The loops of `change_worker_cnt_event_handler`, before their next round. -/
def resize (p : Pool) (delta : Int) : Pool :=
  { p with stage := if delta = 0 then .running else .resizing delta }

/-- What a step leaves. -/
abbrev Result := Option (List PoolSighting × Option Pool)

/-- One round of the loops of `change_worker_cnt_event_handler`. -/
def resizeRound (p : Pool) : Result :=
  match p.stage with
  | .resizing delta =>
    if delta > 0 then some ([.started p.started], some (p.runWorker.resize (delta - 1)))
    else some ([], some (p.decreaseWorkers.resize (delta + 1)))
  | _ => none

/-- `worker_exit_event_handler`; `pthread_join` returns once the thread has ended. -/
def workerExitEventHandler (p : Pool) (workerId : Int32) : Result :=
  let found := (p.workers[wordOfInt workerId]?).join
  let p := { p with workers := p.workers.erase (wordOfInt workerId) }
  match found with
  | none => some ([], some p)
  | some thread =>
    match p.threads.find? fun w => w.thread = thread with
    | some ⟨_, _, .ended⟩ =>
      some ([.joined thread], some { p with
        threads := p.threads.eraseP fun w => w.thread = thread
        workersCnt := p.workersCnt - 1 })
    | _ => none

/-- The handler of an event in `run_event_loop`. -/
def handleRunning (p : Pool) : PoolEvent → Result
  | .exit => some ([], some { p with stage := .stopping 0 })
  | .changeWorkerCnt cnt =>
    some ([.handled cnt p.inFlight], some (p.resize (cnt.toInt - p.workersCnt)))
  | .workerExit workerId => p.workerExitEventHandler workerId
  | .inputMsg unpacked =>
    some ([], some { p with workersQueue := p.workersQueue ++ if unpacked then [.job] else [] })
  | .broadcastMessage sids =>
    some ([], some { p with workersQueue := p.workersQueue ++ List.replicate sids .job })

/-- The handler of an event in the drain loop. -/
def handleDraining (p : Pool) : PoolEvent → Result
  -- The result of event_loop_iteration is not looked at.
  | .exit => some ([], some p)
  -- These two handlers have been erased.
  | .changeWorkerCnt _ | .inputMsg _ => some ([], some p)
  | .workerExit workerId => p.workerExitEventHandler workerId
  | .broadcastMessage sids =>
    some ([], some { p with workersQueue := p.workersQueue ++ List.replicate sids .job })

/-- `event_loop_iteration` of the controller, on the first event of its queue. -/
def handleEvent (p : Pool) : Result :=
  match p.stage, p.queue with
  | .running, evt :: later => { p with queue := later }.handleRunning evt
  | .draining, evt :: later =>
    if p.workersCnt > 0 then { p with queue := later }.handleDraining evt else none
  | _, _ => none

/-- The next round of the loop that stops the workers, or the step from it to the drain loop. -/
def stopRound (p : Pool) : Result :=
  match p.stage with
  | .stopping i =>
    if i < p.workersCnt then some ([], some { p.decreaseWorkers with stage := .stopping (i + 1) })
    else some ([], some { p with stage := .draining })
  | _ => none

/-- The end of the drain loop. -/
def leave (p : Pool) : Result :=
  match p.stage with
  | .draining => if p.workersCnt > 0 then none else some ([], some { p with stage := .stopped })
  | _ => none

/-! ### The workers -/

/-- A worker takes the first event of its queue. -/
def take (p : Pool) (i : Nat) : Result :=
  match p.threads[i]?, p.workersQueue with
  | some ⟨thread, workerId, .idle⟩, evt :: later =>
    let phase := match evt with
      | .exit => WorkerPhase.exiting
      | .job => .busy
    some ([], some { p with threads := p.threads.set i ⟨thread, workerId, phase⟩, workersQueue := later })
  | _, _ => none

/-- The handler of a worker's job returns. -/
def finish (p : Pool) (i : Nat) : Result :=
  match p.threads[i]? with
  | some ⟨thread, workerId, .busy⟩ =>
    some ([], some { p with threads := p.threads.set i ⟨thread, workerId, .idle⟩ })
  | _ => none

/-- A worker that has left its loop sends WORKER_EXIT. -/
def post (p : Pool) (i : Nat) : Result :=
  match p.threads[i]? with
  | some ⟨thread, workerId, .exiting⟩ =>
    some ([.posted thread], some { p with
      threads := p.threads.set i ⟨thread, workerId, .ended⟩
      queue := p.queue ++ [.workerExit workerId] })
  | _ => none

/-- Another thread sends an event to the controller; WORKER_EXIT comes from workers only. -/
def send (p : Pool) (evt : PoolEvent) : Result :=
  match evt with
  | .workerExit _ => none
  | evt => some ([], some { p with queue := p.queue ++ [evt] })

end Pool

/-! ### Steps -/

inductive PoolAction where
  | send (evt : PoolEvent)
  | handleEvent
  | resizeRound
  | stopRound
  | leave
  | take (i : Nat)
  | finish (i : Nat)
  | post (i : Nat)
deriving DecidableEq, Repr

def poolStep : Step Pool PoolAction PoolSighting
  | p, .send evt => p.send evt
  | p, .handleEvent => p.handleEvent
  | p, .resizeRound => p.resizeRound
  | p, .stopRound => p.stopRound
  | p, .leave => p.leave
  | p, .take i => p.take i
  | p, .finish i => p.finish i
  | p, .post i => p.post i

/-- `run_worker` does not give out the id of a worker that has not been joined. -/
def FreshId (p : Pool) : PoolAction → Prop
  | .resizeRound => ∀ delta, p.stage = .resizing delta → delta > 0 → wordOfInt p.nextId ∉ p.workers
  | _ => True

end AcosChat

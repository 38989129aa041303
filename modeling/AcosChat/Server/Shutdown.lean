import AcosChat.Server.Resizing

/-!
# The end of the pool

When the controller has left `run_event_loop` it orders as many exits as `workers_cnt` says.
Each worker that has not been joined is one of these, or has an order or a WORKER_EXIT event
of its own in flight already, so there are orders enough, and no worker is left behind, as
long as no id is given out twice.
-/
namespace AcosChat

open Std Run

/-! ### Orders for everybody -/

/-- The controller has left `run_event_loop`. -/
def ControllerStage.closing : ControllerStage → Bool
  | .running | .resizing _ => false
  | .stopping _ | .draining | .stopped => true

/-- There is an order for every worker that runs, or the controller has still to send it; when
the drain loop is left, there is no worker. -/
def Ordered (p : Pool) : Prop :=
  match p.stage with
  | .running | .resizing _ => True
  | .stopping i => (p.running : Int) ≤ p.orders + (p.workersCnt - i)
  | .draining => p.running ≤ p.orders
  | .stopped => p.workersCnt = 0

/-- A step that leaves the stage and `workers_cnt`, and takes no order from a worker that
runs. -/
theorem Ordered.moved {p p' : Pool} (ordered : Ordered p) (stage : p'.stage = p.stage)
    (cnt : p'.workersCnt = p.workersCnt) (taken : p'.running + p.orders = p.running + p'.orders) :
    Ordered p' := by
  unfold Ordered at ordered ⊢
  rw [stage, cnt]
  cases here : p.stage with
  | running => trivial
  | resizing delta => trivial
  | stopping i =>
    rw [here] at ordered
    dsimp only at ordered ⊢
    omega
  | draining =>
    rw [here] at ordered
    dsimp only at ordered ⊢
    omega
  | stopped =>
    rw [here] at ordered
    exact ordered

/-- Nothing is asked for while the handler of a request goes through its loops. -/
theorem ordered_resize (p : Pool) (delta : Int) : Ordered (p.resize delta) := by
  have stage : (p.resize delta).stage = .running ∨ (p.resize delta).stage = .resizing delta := by
    unfold Pool.resize
    split
    next => exact .inl rfl
    next => exact .inr rfl
  unfold Ordered
  rcases stage with stage | stage
  · rw [stage]
    trivial
  · rw [stage]
    trivial

theorem Ordered.step {p p' : Pool} (ordered : Ordered p) (roster : Roster p) {action : PoolAction}
    {did : List PoolSighting} (transition : PoolTransition p action did p') : Ordered p' := by
  cases transition with
  | sent => exact ordered.moved rfl rfl rfl
  | exit later stage queue =>
    -- workers_cnt counts every worker that runs.
    have total := p.length_entries
    have counted := roster.cnt
    have same : ({ p with queue := later, stage := .stopping 0 } : Pool).running = p.running := rfl
    simp only [Ordered, same]
    omega
  | change => exact ordered_resize _ _
  | joined workerId later thread workerId' before after stage queue found threads =>
    rcases stage with stage | stage
    · simp [Ordered, stage]
    · -- A worker that has ended has taken its order.
      simp only [Ordered, stage] at ordered ⊢
      simpa [Pool.running, Pool.orders, threads] using ordered
  | unknown => exact ordered.moved rfl rfl rfl
  | jobs evt later count stage queue other =>
    refine ordered.moved rfl rfl ?_
    simp [Pool.running, Pool.orders, List.count_replicate]
  | started => exact ordered_resize _ _
  | ordered => exact ordered_resize _ _
  | stopOrdered i stage more =>
    simp only [Ordered, stage] at ordered
    simp only [Ordered, Pool.decreaseWorkers, Pool.running, Pool.orders, List.count_cons_self] at ordered ⊢
    omega
  | drains i stage all =>
    simp only [Ordered, stage] at ordered
    simp only [Ordered, Pool.running, Pool.orders] at ordered ⊢
    omega
  | left stage none =>
    have counted := roster.cnt
    simp only [Ordered]
    omega
  | tookExit i thread workerId before after later threads queue =>
    refine ordered.moved rfl rfl ?_
    simp [Pool.running, Pool.orders, List.countP_cons, threads, queue]
    omega
  | tookJob i thread workerId before after later threads queue =>
    refine ordered.moved rfl rfl ?_
    simp [Pool.running, Pool.orders, List.countP_cons, threads, queue]
  | finished i thread workerId before after threads =>
    refine ordered.moved rfl rfl ?_
    simp [Pool.running, Pool.orders, List.countP_cons, threads]
  | posted i thread workerId before after threads =>
    refine ordered.moved rfl rfl ?_
    simp [Pool.running, Pool.orders, threads]

theorem Ordered.of_ran {trace : List PoolSighting} {p : Pool}
    (ran : Ran poolStep FreshId .init trace p) : Ordered p := by
  induction ran with
  | start => trivial
  | step before _ taken ordered => exact ordered.step (.of_ran before) (poolStep_transition taken)

/-! ### Each worker once -/

/-- A thread is joined after it has sent WORKER_EXIT, and not again. -/
def JoinedOnce (trace : List PoolSighting) : Prop :=
  Follows (fun before sight => ∀ thread, sight = .joined thread →
    .posted thread ∈ before ∧ .joined thread ∉ before) trace

/-- What has been observed of the threads agrees with those that have not been joined. -/
structure Attendance (trace : List PoolSighting) (p : Pool) : Prop where
  once : JoinedOnce trace
  started : ∀ thread, .started thread ∈ trace ↔ thread < p.started
  joined : ∀ thread, .joined thread ∈ trace ↔ thread < p.started ∧ thread ∉ p.threads.map Worker.thread
  posted : ∀ w ∈ p.threads, w.phase = .ended → .posted w.thread ∈ trace

namespace Attendance

variable {trace did : List PoolSighting} {p p' : Pool}

theorem init : Attendance [] .init where
  once := follows_nil
  started thread := by simp [Pool.init]
  joined thread := by simp [Pool.init]
  posted := nofun

/-- No worker is started or joined. -/
theorem moved (seen : Attendance trace p) (starts : ∀ thread, .started thread ∉ did)
    (joins : ∀ thread, .joined thread ∉ did) (started : p'.started = p.started)
    (threads : p'.threads.map Worker.thread = p.threads.map Worker.thread)
    (ended : ∀ w ∈ p'.threads, w.phase = .ended → .posted w.thread ∈ trace ++ did) :
    Attendance (trace ++ did) p' where
  once := by
    apply seen.once.append
    rintro sight member before thread rfl
    exact absurd member (joins thread)
  started thread := by
    rw [List.mem_append, or_iff_left (starts thread), started]
    exact seen.started thread
  joined thread := by
    rw [List.mem_append, or_iff_left (joins thread), started, threads]
    exact seen.joined thread
  posted := ended

/-- The workers stay where they are. -/
theorem stays (seen : Attendance trace p) (starts : ∀ thread, .started thread ∉ did)
    (joins : ∀ thread, .joined thread ∉ did) (started : p'.started = p.started)
    (threads : p'.threads = p.threads) : Attendance (trace ++ did) p' := by
  apply seen.moved starts joins started (by rw [threads])
  rw [threads]
  exact fun w member ended => List.mem_append_left _ (seen.posted w member ended)

/-- A worker goes from one phase to another, and is observed if that is its end. -/
theorem rephased (seen : Attendance trace p) {thread : Nat} {workerId : Int32}
    {before after : List Worker} {phase phase' : WorkerPhase}
    (starts : ∀ thread, .started thread ∉ did) (joins : ∀ thread, .joined thread ∉ did)
    (started : p'.started = p.started)
    (threads : p.threads = before ++ ⟨thread, workerId, phase⟩ :: after)
    (threads' : p'.threads = before ++ ⟨thread, workerId, phase'⟩ :: after)
    (ends : phase' = .ended → .posted thread ∈ did) : Attendance (trace ++ did) p' := by
  apply seen.moved starts joins started (by simp [threads, threads'])
  rw [threads']
  intro w member ended
  rw [List.mem_append, List.mem_cons] at member
  rcases member with front | rfl | back
  · exact List.mem_append_left _ (seen.posted w (by simp [threads, front]) ended)
  · exact List.mem_append_right _ (ends ended)
  · exact List.mem_append_left _ (seen.posted w (by simp [threads, back]) ended)

theorem runWorker (seen : Attendance trace p) :
    Attendance (trace ++ [.started p.started]) p.runWorker where
  once := seen.once.append (by simp)
  started thread := by
    simp only [List.mem_append, List.mem_singleton, PoolSighting.started.injEq, seen.started, Pool.runWorker]
    omega
  joined thread := by
    simp only [List.mem_append, List.mem_singleton, reduceCtorEq, or_false, seen.joined, Pool.runWorker,
      List.map_append, List.map_cons, List.map_nil, not_or]
    constructor
    · rintro ⟨known, gone⟩
      exact ⟨Nat.lt_succ_of_lt known, gone, Nat.ne_of_lt known⟩
    · rintro ⟨known, gone, other⟩
      exact ⟨Nat.lt_of_le_of_ne (Nat.le_of_lt_succ known) other, gone⟩
  posted w member ended := by
    rw [Pool.runWorker, List.mem_append, List.mem_singleton] at member
    rcases member with old | rfl
    · exact List.mem_append_left _ (seen.posted w old ended)
    · cases ended

theorem step (seen : Attendance trace p) (roster : Roster p) {action : PoolAction}
    (transition : PoolTransition p action did p') : Attendance (trace ++ did) p' := by
  cases transition with
  | sent => exact seen.stays (by simp) (by simp) rfl rfl
  | exit => exact seen.stays (by simp) (by simp) rfl rfl
  | change => exact seen.stays (by simp) (by simp) rfl rfl
  | joined workerId later thread workerId' before after stage queue found threads =>
    have numbers : p.threads.map Worker.thread =
        before.map Worker.thread ++ thread :: after.map Worker.thread := by simp [threads]
    -- the thread that is joined is not among those that are left
    have different : (p.threads.map Worker.thread).Nodup := by
      have different := roster.numbers
      rwa [Pool.entries, List.map_map] at different
    have here : ⟨thread, workerId', .ended⟩ ∈ p.threads := by simp [threads]
    have known : thread < p.started :=
      roster.bounded (workerId', thread) (List.mem_map.mpr ⟨_, here, rfl⟩)
    rw [numbers, List.nodup_middle, List.nodup_cons, ← List.map_append] at different
    constructor
    · refine (follows_append_singleton trace _).mpr ⟨seen.once, ?_⟩
      rintro thread' ⟨⟩
      refine ⟨seen.posted _ here rfl, ?_⟩
      rw [seen.joined, numbers]
      simp
    · intro thread'
      simpa using seen.started thread'
    · intro thread'
      rw [List.mem_append, seen.joined, numbers, List.mem_singleton, PoolSighting.joined.injEq]
      dsimp only
      by_cases same : thread' = thread
      · rw [same]
        exact ⟨fun _ => ⟨known, different.1⟩, fun _ => .inr rfl⟩
      · simp [same]
    · intro w member ended
      refine List.mem_append_left _ (seen.posted w ?_ ended)
      rw [threads]
      rw [List.mem_append] at member
      rcases member with front | back
      · exact List.mem_append_left _ front
      · exact List.mem_append_right _ (List.mem_cons_of_mem _ back)
  | unknown => exact seen.stays (by simp) (by simp) rfl rfl
  | jobs => exact seen.stays (by simp) (by simp) rfl rfl
  | started delta =>
    have resized : Attendance ((trace ++ [.started p.started]) ++ []) (p.runWorker.resize (delta - 1)) :=
      seen.runWorker.stays (by simp) (by simp) rfl rfl
    rwa [List.append_nil] at resized
  | ordered => exact seen.stays (by simp) (by simp) rfl rfl
  | stopOrdered => exact seen.stays (by simp) (by simp) rfl rfl
  | drains => exact seen.stays (by simp) (by simp) rfl rfl
  | left => exact seen.stays (by simp) (by simp) rfl rfl
  | tookExit i thread workerId before after later threads =>
    exact seen.rephased (by simp) (by simp) rfl threads rfl (by simp)
  | tookJob i thread workerId before after later threads =>
    exact seen.rephased (by simp) (by simp) rfl threads rfl (by simp)
  | finished i thread workerId before after threads =>
    exact seen.rephased (by simp) (by simp) rfl threads rfl (by simp)
  | posted i thread workerId before after threads =>
    exact seen.rephased (by simp) (by simp) rfl threads rfl (by simp)

theorem of_ran (ran : Ran poolStep FreshId .init trace p) : Attendance trace p := by
  induction ran with
  | start => exact init
  | step before _ taken seen => exact seen.step (.of_ran before) (poolStep_transition taken)

end Attendance

/-! ### The pool empties -/

/-- A worker or the controller can take a step. -/
def Pool.Moves (p : Pool) : Prop :=
  ∃ action did p', (∀ evt, action ≠ .send evt) ∧ poolStep p action = some (did, some p')

theorem moves_of_idle {p : Pool} {before after : List Worker} {thread : Nat} {workerId : Int32}
    (threads : p.threads = before ++ ⟨thread, workerId, .idle⟩ :: after) (orders : 0 < p.orders) :
    p.Moves := by
  have there : p.threads[before.length]? = some ⟨thread, workerId, .idle⟩ := by simp [threads]
  have takes : ∃ did p', p.take before.length = some (did, some p') := by
    cases queue : p.workersQueue with
    | nil => simp [Pool.orders, queue] at orders
    | cons evt later =>
      simp only [Pool.take, there, queue]
      exact ⟨_, _, rfl⟩
  obtain ⟨did, p', takes⟩ := takes
  exact ⟨.take before.length, did, p', by simp, takes⟩

/-- The worker whose event is first in the queue can be joined, as it has ended. -/
theorem workerExit_joins {p : Pool} (roster : Roster p) {workerId : Int32} {later : List PoolEvent}
    (queue : p.queue = .workerExit workerId :: later) :
    ∃ did p', { p with queue := later }.workerExitEventHandler workerId = some (did, some p') := by
  obtain ⟨thread, inside, found⟩ := roster.found queue
  have first : p.threads.find? (fun w => w.thread = thread) = some ⟨thread, workerId, .ended⟩ := by
    cases search : p.threads.find? fun w => w.thread = thread with
    | none => simpa using List.find?_eq_none.mp search _ inside
    | some w =>
      have number : w.thread = thread := by simpa using List.find?_some search
      have different := roster.numbers
      rw [Pool.entries, List.map_map] at different
      exact congrArg some (List.inj_on_of_nodup_map different (List.mem_of_find?_eq_some search) inside number)
  simp only [Pool.workerExitEventHandler, found, first]
  exact ⟨_, _, rfl⟩

/-- While a worker is left, somebody can take a step. -/
theorem draining_moves {p : Pool} (roster : Roster p) (stage : p.stage = .draining)
    (ordered : p.running ≤ p.orders) (left : p.workersCnt > 0) : p.Moves := by
  cases queue : p.queue with
  | cons evt later =>
    have handles : ∃ did p', { p with queue := later }.handleDraining evt = some (did, some p') := by
      cases evt with
      | workerExit workerId => exact workerExit_joins roster queue
      | changeWorkerCnt | exit | inputMsg | broadcastMessage => exact ⟨_, _, rfl⟩
    obtain ⟨did, p', handles⟩ := handles
    refine ⟨.handleEvent, did, p', by simp, ?_⟩
    rw [stage] at handles
    simpa only [poolStep, Pool.handleEvent, stage, queue, left, ite_true] using handles
  | nil =>
    -- Without a WORKER_EXIT event no worker has ended.
    have pending := roster.pending
    have counted := roster.cnt
    cases threads : p.threads with
    | nil =>
      rw [Pool.entries, threads] at counted
      simp at counted
      omega
    | cons w others =>
      obtain ⟨thread, workerId, phase⟩ := w
      have there : p.threads[0]? = some ⟨thread, workerId, phase⟩ := by simp [threads]
      cases phase with
      | idle =>
        refine @moves_of_idle p [] others thread workerId threads ?_
        have runs : 0 < p.running := by simp [Pool.running, threads]
        omega
      | busy =>
        have finishes : ∃ did p', p.finish 0 = some (did, some p') := by
          simp only [Pool.finish, there]
          exact ⟨_, _, rfl⟩
        obtain ⟨did, p', finishes⟩ := finishes
        exact ⟨.finish 0, did, p', by simp, finishes⟩
      | exiting =>
        have posts : ∃ did p', p.post 0 = some (did, some p') := by
          simp only [Pool.post, there]
          exact ⟨_, _, rfl⟩
        obtain ⟨did, p', posts⟩ := posts
        exact ⟨.post 0, did, p', by simp, posts⟩
      | ended => simp [Pool.exits, Pool.endedIds, queue, threads] at pending

/-! ### Nobody is left behind -/

/-- The controller does not go back from closing, and starts no worker. -/
theorem closing_starts_none {p p' : Pool} {action : PoolAction} {did : List PoolSighting}
    (closing : p.stage.closing = true) (transition : PoolTransition p action did p') :
    p'.stage.closing = true ∧ ∀ thread, .started thread ∉ did := by
  cases transition with
  | sent | unknown | jobs | tookExit | tookJob | finished => exact ⟨closing, nofun⟩
  | joined | posted => exact ⟨closing, by simp⟩
  | exit | drains | left | stopOrdered => exact ⟨rfl, nofun⟩
  | change cnt later stage =>
    rw [stage] at closing
    cases closing
  | started delta stage =>
    rw [stage] at closing
    cases closing
  | ordered delta stage =>
    rw [stage] at closing
    cases closing

/-- What is true of every state once the controller has left `run_event_loop`. -/
structure StrandsNobody (trace : List PoolSighting) (p : Pool) : Prop where
  /-- In the drain loop there is an EXIT_EVT for every worker that has not taken one. -/
  ordered : p.stage = .draining → p.running ≤ p.orders
  /-- `workers_cnt` is the number of entries in `data->workers`. -/
  counted : p.workersCnt = p.workers.size
  /-- No worker is started any more. -/
  closed : ∀ action did p', poolStep p action = some (did, some p') →
    p'.stage.closing = true ∧ ∀ thread, .started thread ∉ did
  /-- A worker is joined once, after it has posted WORKER_EXIT. -/
  once : JoinedOnce trace
  /-- A worker has an entry until it is joined, and none after that. -/
  removed : ∀ thread, .started thread ∈ trace →
    (.joined thread ∈ trace ↔ ∀ key : UInt64, p.workers[key]? ≠ some (some thread))
  /-- At the end every worker has been joined. -/
  everyone : p.stage = .stopped → ∀ thread, .started thread ∈ trace → .joined thread ∈ trace
  /-- While a worker is left, a worker or the controller can take a step. -/
  progress : p.workersCnt > 0 → p.Moves

/-- A thread has an entry just as long as it has not been joined. -/
theorem Roster.entry_iff {p : Pool} (roster : Roster p) (thread : Nat) :
    (∃ key : UInt64, p.workers[key]? = some (some thread)) ↔ thread ∈ p.threads.map Worker.thread := by
  constructor
  · rintro ⟨key, there⟩
    obtain ⟨e, member, rfl⟩ := roster.keys key (by simp [ExtTreeMap.mem_iff_isSome_getElem?, there])
    rw [roster.listed e member, Option.some.injEq, Option.some.injEq] at there
    obtain ⟨w, inside, rfl⟩ := List.mem_map.mp member
    exact List.mem_map.mpr ⟨w, inside, there⟩
  · intro member
    obtain ⟨w, inside, rfl⟩ := List.mem_map.mp member
    exact ⟨wordOfInt w.workerId, roster.listed (w.workerId, w.thread) (List.mem_map.mpr ⟨w, inside, rfl⟩)⟩

/-- The controller goes on until it is in the drain loop. -/
theorem closing_moves {trace : List PoolSighting} {p : Pool} (ran : Ran poolStep FreshId .init trace p)
    (closing : p.stage.closing = true) (left : p.workersCnt > 0) : p.Moves := by
  have ordered := Ordered.of_ran ran
  cases stage : p.stage with
  | running | resizing =>
    rw [stage] at closing
    cases closing
  | stopping i =>
    have goes : ∃ did p', p.stopRound = some (did, some p') := by
      simp only [Pool.stopRound, stage]
      split
      next => exact ⟨_, _, rfl⟩
      next => exact ⟨_, _, rfl⟩
    obtain ⟨did, p', goes⟩ := goes
    exact ⟨.stopRound, did, p', by simp, goes⟩
  | draining =>
    simp only [Ordered, stage] at ordered
    exact draining_moves (.of_ran ran) stage ordered left
  | stopped =>
    simp only [Ordered, stage] at ordered
    omega

/-- In every run in which no id is given out twice, the controller leaves no worker behind
once it has left `run_event_loop`. -/
theorem strands_nobody {trace : List PoolSighting} {p : Pool} (ran : Ran poolStep FreshId .init trace p)
    (closing : p.stage.closing = true) : StrandsNobody trace p := by
  have roster := Roster.of_ran ran
  have seen := Attendance.of_ran ran
  have ordered := Ordered.of_ran ran
  constructor
  · intro stage
    simpa only [Ordered, stage] using ordered
  · rw [roster.cnt, roster.size]
  · exact fun action did p' taken => closing_starts_none closing (poolStep_transition taken)
  · exact seen.once
  · intro thread started
    rw [seen.joined, and_iff_right ((seen.started thread).mp started), ← roster.entry_iff, not_exists]
  · intro stage thread started
    have nobody : p.threads = [] := by
      have counted := roster.cnt
      simp only [Ordered, stage] at ordered
      rw [ordered, Pool.entries, List.length_map] at counted
      exact List.eq_nil_of_length_eq_zero (by omega)
    rw [seen.joined, nobody]
    exact ⟨(seen.started thread).mp started, List.not_mem_nil⟩
  · exact closing_moves ran closing

/-! ### Two more runs -/

/-- A worker takes an order, ends and is joined. -/
def exitOf (i : Nat) : List PoolAction := [.take i, .post i, .handleEvent]

/-- The controller is told to exit, with two workers, one of which has an order already. -/
def shutDown : List PoolAction :=
  request 2 2 ++ request 1 1 ++ [.send .exit, .handleEvent, .stopRound, .stopRound, .stopRound] ++
    exitOf 1 ++ exitOf 0 ++ [.leave]

theorem strands_nobody_shutDown : ∃ trace p, replay poolStep .init shutDown = some (trace, p) ∧
    p.stage = .stopped ∧ StrandsNobody trace p := by
  have ran : ∃ trace p, replay poolStep .init shutDown = some (trace, p) ∧ p.stage = .stopped :=
    ⟨_, _, rfl, rfl⟩
  obtain ⟨trace, p, replayed, stage⟩ := ran
  have meets : Meets poolStep FreshId .init shutDown := by
    refine ⟨trivial, trivial, ?_, ?_, trivial, trivial, ?_, trivial, trivial, trivial, trivial, trivial,
      trivial, trivial, trivial, trivial, trivial, trivial, trivial, trivial⟩
    all_goals
      rintro delta ⟨⟩ positive
      revert positive
      decide
  exact ⟨trace, p, replayed, stage, strands_nobody (ran_of_replay meets replayed) (by rw [stage]; rfl)⟩

/-- `workers_cnt` is one, for the worker that was started first, and `n` have been started. -/
def survivor (n : Nat) : Pool :=
  ⟨.running, [], [], (∅ : KeyMap Nat).insertIfNew 1 (some 0), 1, [⟨0, 1, .idle⟩], n⟩

/-- The five workers of the start are stopped one by one, but for the first. -/
def shrinkToOne : List PoolAction :=
  request 5 5 ++ (request 4 1 ++ exitOf 4) ++ (request 3 1 ++ exitOf 3) ++ (request 2 1 ++ exitOf 2) ++
    (request 1 1 ++ exitOf 1)

/-- The ids differ from the first one until they begin again. -/
theorem nextId_survivor {n : Nat} (below : n < 2 ^ 32) (positive : 0 < n) : (survivor n).nextId ≠ 1 := by
  intro same
  have number := congrArg Int32.toInt same
  simp only [Pool.nextId, Pool.uniqueId, intOfWord, survivor, UInt64.toInt64_ofNat', Int64.toInt32_ofNat',
    Int32.toInt_ofNat'] at number
  have one : (1 : Int32).toInt = 1 := rfl
  have size : Int32.size = 2 ^ 32 := rfl
  rw [one, Int.bmod_def, size] at number
  split at number
  next => omega
  next => omega

/-- The next worker has been started, and has ended again. -/
def leaving (n : Nat) : Pool :=
  ⟨.running, [.workerExit (survivor n).nextId], [],
    (survivor n).workers.insertIfNew (wordOfInt (survivor n).nextId) (some n), 2,
    [⟨0, 1, .idle⟩, ⟨n, (survivor n).nextId, .ended⟩], n + 1⟩

theorem replay_leaving (n : Nat) : ∃ trace,
    replay poolStep (survivor n) (request 2 1 ++ request 1 1 ++ [.take 1, .post 1]) =
      some (trace, leaving n) := ⟨_, rfl⟩

theorem leaving_joined {n : Nat} (positive : 0 < n) (fresh : (survivor n).nextId ≠ 1) :
    poolStep (leaving n) .handleEvent = some ([.joined n], some (survivor (n + 1))) := by
  have absent : wordOfInt (survivor n).nextId ∉ (survivor n).workers := by
    rw [survivor, ExtTreeMap.mem_insertIfNew, Std.compare_eq_iff_eq]
    rintro (same | other)
    · exact fresh (wordOfInt_inj.mp (same.symm.trans (by decide)))
    · simp at other
  have there : (leaving n).workers[wordOfInt (survivor n).nextId]? = some (some n) := by
    rw [leaving, ExtTreeMap.getElem?_insertIfNew, if_pos ⟨by simp, absent⟩]
  have gone : (leaving n).workers.erase (wordOfInt (survivor n).nextId) = (survivor n).workers := by
    apply ExtTreeMap.ext_getElem?
    intro key
    rw [leaving, ExtTreeMap.getElem?_erase, ExtTreeMap.getElem?_insertIfNew]
    by_cases same : key = wordOfInt (survivor n).nextId
    · subst same
      rw [if_pos (by simp), ExtTreeMap.getElem?_eq_none absent]
    · have other : compare (wordOfInt (survivor n).nextId) key ≠ .eq := by
        rw [ne_eq, Std.compare_eq_iff_eq]
        exact fun eq => same eq.symm
      rw [if_neg other, if_neg fun both => other both.1]
  have zero : (0 = n) = False := by
    simp only [eq_iff_iff, iff_false]
    omega
  have handled : poolStep (leaving n) .handleEvent =
      Pool.workerExitEventHandler { leaving n with queue := [] } (survivor n).nextId := rfl
  rw [handled]
  simp only [Pool.workerExitEventHandler, there, gone]
  simp [leaving, zero]
  rfl

/-- Workers can be started and stopped beside the first one until the ids begin again. -/
theorem survivor_ran {n : Nat} (atLeast : 5 ≤ n) (below : n ≤ 2 ^ 32) :
    ∃ trace, Ran poolStep (fun _ _ => True) .init trace (survivor n) := by
  induction n, atLeast using Nat.le_induction with
  | base =>
    have replayed : ∃ trace, replay poolStep .init shrinkToOne = some (trace, survivor 5) := ⟨_, rfl⟩
    obtain ⟨trace, replayed⟩ := replayed
    exact ⟨trace, ran_of_replay (meets_of_forall (fun _ _ => trivial) _ _) replayed⟩
  | succ n atLeast ih =>
    obtain ⟨trace, ran⟩ := ih (Nat.le_of_lt below)
    obtain ⟨later, replayed⟩ := replay_leaving n
    have left := ran.append_replay (meets_of_forall (fun _ _ => trivial) _ _) replayed
    have joined := leaving_joined (by omega) (nextId_survivor below (by omega))
    exact ⟨_, left.step trivial joined⟩

/-- The next worker gets the id of the first one; both are stopped, but only one is found. -/
def strand : List PoolAction :=
  request 2 1 ++ [.send .exit, .handleEvent, .stopRound, .stopRound, .stopRound] ++
    [.take 0, .post 0, .handleEvent, .take 0, .post 0, .handleEvent]

/-- A worker stays that is never joined, and the controller waits for its event. -/
theorem pool_strands_worker : ¬∀ (trace : List PoolSighting) (p : Pool),
    Ran poolStep (fun _ _ => True) .init trace p → p.stage.closing = true → StrandsNobody trace p := by
  intro claim
  obtain ⟨before, ran⟩ := survivor_ran (by decide) (Nat.le_refl (2 ^ 32))
  have replayed : ∃ trace, replay poolStep (survivor (2 ^ 32)) strand = some (trace,
      ⟨.draining, [], [], ∅, 1, [⟨2 ^ 32, 1, .ended⟩], 2 ^ 32 + 1⟩) := ⟨_, rfl⟩
  obtain ⟨trace, replayed⟩ := replayed
  have stuck := claim _ _ (ran.append_replay (meets_of_forall (fun _ _ => trivial) _ _) replayed) rfl
  obtain ⟨action, did, p', own, taken⟩ := stuck.progress (by decide)
  cases action with
  | send evt => exact own evt rfl
  | handleEvent | resizeRound | stopRound | leave => cases taken
  | take i | finish i | post i =>
    cases i with
    | zero => cases taken
    | succ i => cases taken

end AcosChat

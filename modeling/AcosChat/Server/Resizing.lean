import AcosChat.ConnMgr.Agreement
import AcosChat.Server.Pool

/-!
# The size of the pool

Every worker that has not been joined has one entry in `data->workers`, and every one that
has ended one WORKER_EXIT event, as long as no id is given out twice. A request is met up
to the orders to exit that were in flight when it was handled: `workers_cnt` counts the
workers that are to take them.
-/
namespace AcosChat

open Std Run

/-! ### Transitions -/

/-- The ways in which a step can leave a next state. -/
inductive PoolTransition (p : Pool) : PoolAction → List PoolSighting → Pool → Prop
  | sent (evt : PoolEvent) (other : ∀ workerId, evt ≠ .workerExit workerId) :
      PoolTransition p (.send evt) [] { p with queue := p.queue ++ [evt] }
  | exit (later : List PoolEvent) (stage : p.stage = .running) (queue : p.queue = .exit :: later) :
      PoolTransition p .handleEvent [] { p with queue := later, stage := .stopping 0 }
  | change (cnt : Int32) (later : List PoolEvent) (stage : p.stage = .running)
      (queue : p.queue = .changeWorkerCnt cnt :: later) :
      PoolTransition p .handleEvent [.handled cnt { p with queue := later }.inFlight]
        ({ p with queue := later }.resize (cnt.toInt - p.workersCnt))
  | joined (workerId : Int32) (later : List PoolEvent) (thread : Nat) (workerId' : Int32)
      (before after : List Worker) (stage : p.stage = .running ∨ p.stage = .draining)
      (queue : p.queue = .workerExit workerId :: later)
      (found : (p.workers[wordOfInt workerId]?).join = some thread)
      (threads : p.threads = before ++ ⟨thread, workerId', .ended⟩ :: after) :
      PoolTransition p .handleEvent [.joined thread] { p with
        queue := later
        workers := p.workers.erase (wordOfInt workerId)
        threads := before ++ after
        workersCnt := p.workersCnt - 1 }
  | unknown (workerId : Int32) (later : List PoolEvent) (queue : p.queue = .workerExit workerId :: later)
      (missing : (p.workers[wordOfInt workerId]?).join = none) :
      PoolTransition p .handleEvent [] { p with
        queue := later
        workers := p.workers.erase (wordOfInt workerId) }
  /-- The event is dropped, or sends jobs. -/
  | jobs (evt : PoolEvent) (later : List PoolEvent) (count : Nat)
      (stage : p.stage = .running ∨ p.stage = .draining) (queue : p.queue = evt :: later)
      (other : ∀ workerId, evt ≠ .workerExit workerId) :
      PoolTransition p .handleEvent [] { p with
        queue := later
        workersQueue := p.workersQueue ++ List.replicate count .job }
  | started (delta : Int) (stage : p.stage = .resizing delta) (positive : delta > 0) :
      PoolTransition p .resizeRound [.started p.started] (p.runWorker.resize (delta - 1))
  | ordered (delta : Int) (stage : p.stage = .resizing delta) (negative : ¬delta > 0) :
      PoolTransition p .resizeRound [] (p.decreaseWorkers.resize (delta + 1))
  | stopOrdered (i : Int) (stage : p.stage = .stopping i) (more : i < p.workersCnt) :
      PoolTransition p .stopRound [] { p.decreaseWorkers with stage := .stopping (i + 1) }
  | drains (i : Int) (stage : p.stage = .stopping i) (all : ¬i < p.workersCnt) :
      PoolTransition p .stopRound [] { p with stage := .draining }
  | left (stage : p.stage = .draining) (none : ¬p.workersCnt > 0) :
      PoolTransition p .leave [] { p with stage := .stopped }
  | tookExit (i thread : Nat) (workerId : Int32) (before after : List Worker) (later : List WorkersEvent)
      (threads : p.threads = before ++ ⟨thread, workerId, .idle⟩ :: after)
      (queue : p.workersQueue = .exit :: later) :
      PoolTransition p (.take i) [] { p with
        threads := before ++ ⟨thread, workerId, .exiting⟩ :: after
        workersQueue := later }
  | tookJob (i thread : Nat) (workerId : Int32) (before after : List Worker) (later : List WorkersEvent)
      (threads : p.threads = before ++ ⟨thread, workerId, .idle⟩ :: after)
      (queue : p.workersQueue = .job :: later) :
      PoolTransition p (.take i) [] { p with
        threads := before ++ ⟨thread, workerId, .busy⟩ :: after
        workersQueue := later }
  | finished (i thread : Nat) (workerId : Int32) (before after : List Worker)
      (threads : p.threads = before ++ ⟨thread, workerId, .busy⟩ :: after) :
      PoolTransition p (.finish i) [] { p with
        threads := before ++ ⟨thread, workerId, .idle⟩ :: after }
  | posted (i thread : Nat) (workerId : Int32) (before after : List Worker)
      (threads : p.threads = before ++ ⟨thread, workerId, .exiting⟩ :: after) :
      PoolTransition p (.post i) [.posted thread] { p with
        threads := before ++ ⟨thread, workerId, .ended⟩ :: after
        queue := p.queue ++ [.workerExit workerId] }

theorem workerExit_transition {p p' : Pool} {workerId : Int32} {later : List PoolEvent}
    {did : List PoolSighting} (stage : p.stage = .running ∨ p.stage = .draining)
    (queue : p.queue = .workerExit workerId :: later)
    (ran : { p with queue := later }.workerExitEventHandler workerId = some (did, some p')) :
    PoolTransition p .handleEvent did p' := by
  simp only [Pool.workerExitEventHandler] at ran
  split at ran
  next missing =>
    cases ran
    exact .unknown workerId later queue missing
  next thread found =>
    split at ran
    next thread' workerId' there =>
      cases ran
      -- The thread that is joined is the first one with the number.
      obtain ⟨matching, before, after, threads, others⟩ := List.find?_eq_some_iff_append.mp there
      have own : thread' = thread := by simpa using matching
      subst own
      have erased : (before ++ (⟨thread', workerId', .ended⟩ : Worker) :: after).eraseP
          (fun w => w.thread = thread') = before ++ after := by
        rw [List.eraseP_append_right _ fun w member => by simpa using others w member]
        simp
      simp only [threads, erased]
      exact .joined workerId later thread' workerId' before after stage queue found threads
    next => cases ran

theorem poolStep_transition {p p' : Pool} {action : PoolAction} {did : List PoolSighting}
    (taken : poolStep p action = some (did, some p')) : PoolTransition p action did p' := by
  cases action with
  | send evt =>
    cases evt with
    | workerExit => cases taken
    | changeWorkerCnt | exit | inputMsg | broadcastMessage =>
      cases taken
      exact .sent _ nofun
  | handleEvent =>
    simp only [poolStep, Pool.handleEvent] at taken
    split at taken
    next evt later stage queue =>
      cases evt with
      | changeWorkerCnt cnt =>
        cases taken
        exact .change cnt later stage queue
      | workerExit workerId => exact workerExit_transition (.inl stage) queue taken
      | exit =>
        cases taken
        exact .exit later stage queue
      | inputMsg unpacked =>
        cases taken
        -- A frame that is unpacked makes one job.
        cases unpacked with
        | true => exact .jobs _ later 1 (.inl stage) queue nofun
        | false => exact .jobs _ later 0 (.inl stage) queue nofun
      | broadcastMessage sids =>
        cases taken
        exact .jobs _ later sids (.inl stage) queue nofun
    next evt later stage queue =>
      split at taken
      next =>
        -- While the pool drains, every other event is dropped.
        have dropped (other : ∀ workerId, evt ≠ .workerExit workerId) :
            PoolTransition p .handleEvent [] { p with queue := later } := by
          have nothing := PoolTransition.jobs evt later 0 (.inr stage) queue other
          rwa [List.replicate_zero, List.append_nil] at nothing
        cases evt with
        | changeWorkerCnt | exit | inputMsg =>
          cases taken
          exact dropped nofun
        | workerExit workerId => exact workerExit_transition (.inr stage) queue taken
        | broadcastMessage sids =>
          cases taken
          exact .jobs _ later sids (.inr stage) queue nofun
      next => cases taken
    next => cases taken
  | resizeRound =>
    simp only [poolStep, Pool.resizeRound] at taken
    split at taken
    next delta stage =>
      split at taken
      next positive =>
        cases taken
        exact .started delta stage positive
      next negative =>
        cases taken
        exact .ordered delta stage negative
    next => cases taken
  | stopRound =>
    simp only [poolStep, Pool.stopRound] at taken
    split at taken
    next i stage =>
      split at taken
      next more =>
        cases taken
        exact .stopOrdered i stage more
      next all =>
        cases taken
        exact .drains i stage all
    next => cases taken
  | leave =>
    simp only [poolStep, Pool.leave] at taken
    split at taken
    next stage =>
      split at taken
      next => cases taken
      next none =>
        cases taken
        exact .left stage none
    next => cases taken
  | take i =>
    simp only [poolStep, Pool.take] at taken
    split at taken
    next thread workerId evt later there queue =>
      cases evt with
      | exit =>
        cases taken
        obtain ⟨before, after, threads, set⟩ := split_of_getElem? there ⟨thread, workerId, .exiting⟩
        simp only [set]
        exact .tookExit i thread workerId before after later threads queue
      | job =>
        cases taken
        obtain ⟨before, after, threads, set⟩ := split_of_getElem? there ⟨thread, workerId, .busy⟩
        simp only [set]
        exact .tookJob i thread workerId before after later threads queue
    next => cases taken
  | finish i =>
    simp only [poolStep, Pool.finish] at taken
    split at taken
    next thread workerId there =>
      cases taken
      obtain ⟨before, after, threads, set⟩ := split_of_getElem? there ⟨thread, workerId, .idle⟩
      simp only [set]
      exact .finished i thread workerId before after threads
    next => cases taken
  | post i =>
    simp only [poolStep, Pool.post] at taken
    split at taken
    next thread workerId there =>
      cases taken
      obtain ⟨before, after, threads, set⟩ := split_of_getElem? there ⟨thread, workerId, .ended⟩
      simp only [set]
      exact .posted i thread workerId before after threads
    next => cases taken

/-! ### The roster -/

namespace Pool

/-- The ids and the threads of the workers that have not been joined. -/
def entries (p : Pool) : List (Int32 × Nat) := p.threads.map fun w => (w.workerId, w.thread)

/-- The ids of the workers that have ended. -/
def endedIds (p : Pool) : List Int32 :=
  (p.threads.filter fun w => w.phase = .ended).map Worker.workerId

end Pool

/-- `data->workers` has an entry for every worker that has not been joined, and the queue a
WORKER_EXIT event for every one that has ended. -/
structure Roster (p : Pool) : Prop where
  ids : (p.entries.map Prod.fst).Nodup
  numbers : (p.entries.map Prod.snd).Nodup
  bounded : ∀ e ∈ p.entries, e.2 < p.started
  size : p.workers.size = p.entries.length
  listed : ∀ e ∈ p.entries, p.workers[wordOfInt e.1]? = some (some e.2)
  keys : ∀ key ∈ p.workers, ∃ e ∈ p.entries, wordOfInt e.1 = key
  cnt : p.workersCnt = p.entries.length
  pending : p.exits.Perm p.endedIds

namespace Roster

variable {p p' : Pool}

theorem init : Roster .init where
  ids := .nil
  numbers := .nil
  bounded := nofun
  size := rfl
  listed := nofun
  keys key inside := by simp [Pool.init] at inside
  cnt := rfl
  pending := .nil

/-- No worker is added or removed. -/
theorem moved (roster : Roster p) (entries : p'.entries = p.entries) (workers : p'.workers = p.workers)
    (cnt : p'.workersCnt = p.workersCnt) (started : p'.started = p.started)
    (pending : p'.exits.Perm p'.endedIds) : Roster p' where
  ids := entries ▸ roster.ids
  numbers := entries ▸ roster.numbers
  bounded := by
    rw [entries, started]
    exact roster.bounded
  size := by rw [entries, workers, roster.size]
  listed := by
    rw [entries, workers]
    exact roster.listed
  keys := by
    rw [entries, workers]
    exact roster.keys
  cnt := by rw [entries, cnt, roster.cnt]
  pending := pending

/-- The queue gets or loses an event other than WORKER_EXIT, and no worker ends. -/
theorem queued (roster : Roster p) (threads : p'.threads = p.threads) (workers : p'.workers = p.workers)
    (cnt : p'.workersCnt = p.workersCnt) (started : p'.started = p.started) (exits : p'.exits = p.exits) :
    Roster p' := by
  refine roster.moved ?_ workers cnt started ?_
  · rw [Pool.entries, threads, Pool.entries]
  · rw [exits, Pool.endedIds, threads]
    exact roster.pending

/-- A worker goes from one phase to another, and neither is its end. -/
theorem rephased (roster : Roster p) {thread : Nat} {workerId : Int32} {before after : List Worker}
    {phase phase' : WorkerPhase} (threads : p.threads = before ++ ⟨thread, workerId, phase⟩ :: after)
    (threads' : p'.threads = before ++ ⟨thread, workerId, phase'⟩ :: after) (goes : phase ≠ .ended)
    (on : phase' ≠ .ended) (workers : p'.workers = p.workers) (cnt : p'.workersCnt = p.workersCnt)
    (started : p'.started = p.started) (queue : p'.queue = p.queue) : Roster p' := by
  refine roster.moved ?_ workers cnt started ?_
  · simp [Pool.entries, threads, threads']
  · have pending := roster.pending
    simp only [Pool.endedIds, threads, threads', List.filter_append, List.filter_cons, goes, on,
      decide_false] at pending ⊢
    rw [Pool.exits, queue]
    exact pending

theorem runWorker (roster : Roster p) (fresh : wordOfInt p.nextId ∉ p.workers) : Roster p.runWorker := by
  have entries : p.runWorker.entries = p.entries ++ [(p.nextId, p.started)] := by
    simp [Pool.entries, Pool.runWorker]
  have absent : ∀ e ∈ p.entries, e.1 ≠ p.nextId := by
    rintro e member same
    apply fresh
    rw [← same, ExtTreeMap.mem_iff_isSome_getElem?, roster.listed e member]
    rfl
  constructor
  -- The ids are distinct, as the new one is fresh.
  · rw [entries, List.map_append, List.nodup_append]
    refine ⟨roster.ids, by simp, ?_⟩
    intro id there other here same
    obtain ⟨e, member, rfl⟩ := List.mem_map.mp there
    simp only [List.map_cons, List.map_nil, List.mem_singleton] at here
    exact absent e member (same.trans here)
  -- So are the numbers, which count the starts.
  · rw [entries, List.map_append, List.nodup_append]
    refine ⟨roster.numbers, by simp, ?_⟩
    intro thread there other here same
    obtain ⟨e, member, rfl⟩ := List.mem_map.mp there
    simp only [List.map_cons, List.map_nil, List.mem_singleton] at here
    have older := roster.bounded e member
    omega
  · rw [entries]
    intro e member
    rcases List.mem_append.mp member with old | new
    · exact Nat.lt_succ_of_lt (roster.bounded e old)
    · cases List.mem_singleton.mp new
      exact Nat.lt_succ_self _
  -- The map gets an entry, and it is that of the new worker.
  · rw [entries, Pool.runWorker, ExtTreeMap.size_insertIfNew, if_neg fresh, roster.size]
    simp
  · rw [entries]
    intro e member
    rw [Pool.runWorker, ExtTreeMap.getElem?_insertIfNew]
    rcases List.mem_append.mp member with old | new
    · rw [if_neg, roster.listed e old]
      rintro ⟨same, _⟩
      rw [Std.compare_eq_iff_eq, wordOfInt_inj] at same
      exact absent e old same.symm
    · cases List.mem_singleton.mp new
      rw [if_pos ⟨by simp, fresh⟩]
  · rw [entries]
    intro key inside
    rw [Pool.runWorker, ExtTreeMap.mem_insertIfNew] at inside
    rcases inside with same | old
    · exact ⟨(p.nextId, p.started), by simp, Std.compare_eq_iff_eq.mp same⟩
    · obtain ⟨e, member, same⟩ := roster.keys key old
      exact ⟨e, List.mem_append_left _ member, same⟩
  -- Nobody has ended, and no event is pushed.
  · rw [entries, Pool.runWorker, List.length_append]
    have cnt := roster.cnt
    simp
    omega
  · have pending := roster.pending
    simpa [Pool.exits, Pool.endedIds, Pool.runWorker, List.filter_append] using pending

/-- The worker of a WORKER_EXIT event has ended, and is the one that is found under its id. -/
theorem found (roster : Roster p) {workerId : Int32} {later : List PoolEvent}
    (queue : p.queue = .workerExit workerId :: later) :
    ∃ thread, ⟨thread, workerId, .ended⟩ ∈ p.threads ∧
      (p.workers[wordOfInt workerId]?).join = some thread := by
  have posted : workerId ∈ p.exits := by simp [Pool.exits, queue]
  obtain ⟨w, member, same⟩ := List.mem_map.mp (roster.pending.subset posted)
  obtain ⟨inside, ended⟩ := List.mem_filter.mp member
  obtain ⟨thread, workerId', phase⟩ := w
  simp only [decide_eq_true_eq] at ended same
  subst ended same
  refine ⟨thread, inside, ?_⟩
  rw [roster.listed (workerId', thread) (List.mem_map.mpr ⟨_, inside, rfl⟩)]
  rfl

/-- The worker that is joined is the one of the event. -/
theorem joins (roster : Roster p) {workerId workerId' : Int32} {later : List PoolEvent} {thread : Nat}
    {before after : List Worker} (queue : p.queue = .workerExit workerId :: later)
    (there : (p.workers[wordOfInt workerId]?).join = some thread)
    (threads : p.threads = before ++ ⟨thread, workerId', .ended⟩ :: after) : workerId' = workerId := by
  obtain ⟨thread', member, there'⟩ := roster.found queue
  rw [there, Option.some.injEq] at there'
  subst there'
  have one : (workerId', thread) ∈ p.entries := List.mem_map.mpr ⟨⟨thread, workerId', .ended⟩, by simp [threads], rfl⟩
  have other : (workerId, thread) ∈ p.entries := List.mem_map.mpr ⟨_, member, rfl⟩
  have same := List.inj_on_of_nodup_map roster.numbers one other rfl
  cases same
  rfl

theorem joined (roster : Roster p) {workerId : Int32} {later : List PoolEvent} {thread : Nat}
    {before after : List Worker} (queue : p.queue = .workerExit workerId :: later)
    (threads : p.threads = before ++ ⟨thread, workerId, .ended⟩ :: after) :
    Roster { p with
      queue := later
      workers := p.workers.erase (wordOfInt workerId)
      threads := before ++ after
      workersCnt := p.workersCnt - 1 } := by
  have split : p.entries = before.map (fun w => (w.workerId, w.thread)) ++
      (workerId, thread) :: after.map (fun w => (w.workerId, w.thread)) := by
    simp [Pool.entries, threads]
  obtain ⟨ids, numbers, bounded, size, listed, keys, cnt, pending⟩ := roster
  have there := listed (workerId, thread) (by simp [split])
  have inside : wordOfInt workerId ∈ p.workers := by
    rw [ExtTreeMap.mem_iff_isSome_getElem?, there]
    rfl
  rw [split] at ids numbers bounded size listed keys cnt
  rw [List.map_append, List.map_cons, List.nodup_middle, List.nodup_cons] at ids numbers
  -- No other worker has the id.
  have other : ∀ e ∈ before.map (fun w => (w.workerId, w.thread)) ++
      after.map (fun w => (w.workerId, w.thread)), e.1 ≠ workerId := by
    rintro e member same
    apply ids.1
    rw [← List.map_append]
    exact List.mem_map.mpr ⟨e, member, same⟩
  have rest : ∀ e ∈ before.map (fun w => (w.workerId, w.thread)) ++
      after.map (fun w => (w.workerId, w.thread)),
      e ∈ before.map (fun w => (w.workerId, w.thread)) ++
        (workerId, thread) :: after.map (fun w => (w.workerId, w.thread)) := by
    intro e member
    rcases List.mem_append.mp member with front | back
    · exact List.mem_append_left _ front
    · exact List.mem_append_right _ (List.mem_cons_of_mem _ back)
  have entries : Pool.entries { p with
      queue := later
      workers := p.workers.erase (wordOfInt workerId)
      threads := before ++ after
      workersCnt := p.workersCnt - 1 } =
      before.map (fun w => (w.workerId, w.thread)) ++ after.map (fun w => (w.workerId, w.thread)) :=
    List.map_append
  constructor
  · rw [entries, List.map_append]
    exact ids.2
  · rw [entries, List.map_append]
    exact numbers.2
  · rw [entries]
    exact fun e member => bounded e (rest e member)
  · have contained : p.workers.contains (wordOfInt workerId) = true := by
      rwa [ExtTreeMap.contains_iff_mem]
    rw [entries, ExtTreeMap.size_erase, if_pos contained, size]
    simp only [List.length_append, List.length_cons]
    omega
  · rw [entries]
    intro e member
    rw [ExtTreeMap.getElem?_erase, if_neg, listed e (rest e member)]
    rw [Std.compare_eq_iff_eq, wordOfInt_inj]
    exact fun same => other e member same.symm
  · rw [entries]
    intro key kept
    rw [ExtTreeMap.mem_erase] at kept
    obtain ⟨e, member, same⟩ := keys key kept.2
    refine ⟨e, ?_, same⟩
    rw [List.mem_append, List.mem_cons] at member
    rcases member with front | rfl | back
    · exact List.mem_append_left _ front
    · exact absurd (Std.compare_eq_iff_eq.mpr same) kept.1
    · exact List.mem_append_right _ back
  · rw [entries, cnt]
    simp only [List.length_append, List.length_cons]
    omega
  · simp only [Pool.exits, Pool.endedIds, queue, threads, List.filterMap_cons, List.filter_append,
      List.filter_cons, decide_true, ite_true, List.map_append, List.map_cons] at pending ⊢
    exact (pending.trans List.perm_middle).cons_inv

/-- Every step keeps it, if ids are fresh. -/
theorem step (roster : Roster p) {action : PoolAction} {did : List PoolSighting}
    (fresh : FreshId p action) (transition : PoolTransition p action did p') : Roster p' := by
  cases transition with
  | sent evt other =>
    refine roster.queued rfl rfl rfl rfl ?_
    cases evt with
    | workerExit workerId => exact absurd rfl (other workerId)
    | changeWorkerCnt | exit | inputMsg | broadcastMessage => simp [Pool.exits]
  | exit later stage queue =>
    exact roster.queued rfl rfl rfl rfl (by simp [Pool.exits, queue])
  | change cnt later stage queue =>
    exact roster.queued rfl rfl rfl rfl (by simp [Pool.exits, Pool.resize, queue])
  | joined workerId later thread workerId' before after stage queue found threads =>
    obtain rfl := roster.joins queue found threads
    exact roster.joined queue threads
  | unknown workerId later queue missing =>
    -- The worker of an event is in the map.
    obtain ⟨thread, _, there⟩ := roster.found queue
    rw [missing] at there
    cases there
  | jobs evt later count stage queue other =>
    refine roster.queued rfl rfl rfl rfl ?_
    cases evt with
    | workerExit workerId => exact absurd rfl (other workerId)
    | changeWorkerCnt | exit | inputMsg | broadcastMessage => simp [Pool.exits, queue]
  | started delta stage positive =>
    exact (roster.runWorker (fresh delta stage positive)).queued rfl rfl rfl rfl rfl
  | ordered => exact roster.queued rfl rfl rfl rfl rfl
  | stopOrdered => exact roster.queued rfl rfl rfl rfl rfl
  | drains => exact roster.queued rfl rfl rfl rfl rfl
  | left => exact roster.queued rfl rfl rfl rfl rfl
  | tookExit i thread workerId before after later threads queue =>
    exact roster.rephased threads rfl nofun nofun rfl rfl rfl rfl
  | tookJob i thread workerId before after later threads queue =>
    exact roster.rephased threads rfl nofun nofun rfl rfl rfl rfl
  | finished i thread workerId before after threads =>
    exact roster.rephased threads rfl nofun nofun rfl rfl rfl rfl
  | posted i thread workerId before after threads =>
    -- The worker ends, and its event is pushed.
    refine roster.moved ?_ rfl rfl rfl ?_
    · simp [Pool.entries, threads]
    · have pending := roster.pending
      simp only [Pool.exits, Pool.endedIds, threads, List.filter_append, List.filter_cons, List.map_append,
        List.filterMap_append, decide_true, ite_true, List.map_cons, reduceCtorEq, decide_false] at pending ⊢
      exact (List.perm_append_singleton _ _).trans ((pending.cons _).trans List.perm_middle.symm)

theorem of_ran {trace : List PoolSighting} (ran : Ran poolStep FreshId .init trace p) : Roster p := by
  induction ran with
  | start => exact init
  | step _ met taken roster => exact roster.step met (poolStep_transition taken)

end Roster

/-! ### What has been asked for -/

/-- The last request that was handled, with the orders in flight then. -/
def requested (trace : List PoolSighting) : Option (Int32 × Nat) :=
  (trace.filterMap fun
    | .handled cnt inFlight => some (cnt, inFlight)
    | _ => none).getLast?

/-- What the last request comes to. -/
def target (trace : List PoolSighting) : Int :=
  match requested trace with
  | none => 0
  | some (cnt, inFlight) => cnt.toInt - inFlight

/-- The workers that the handler of a request has still to run, or to stop if negative. -/
def ControllerStage.due : ControllerStage → Option Int
  | .running => some 0
  | .resizing delta => some delta
  | .stopping _ | .draining | .stopped => none

theorem requested_append_handled (trace : List PoolSighting) (cnt : Int32) (inFlight : Nat) :
    requested (trace ++ [.handled cnt inFlight]) = some (cnt, inFlight) := by
  simp [requested]

theorem requested_append_of_none {trace did : List PoolSighting}
    (none : ∀ cnt inFlight, .handled cnt inFlight ∉ did) : requested (trace ++ did) = requested trace := by
  have nothing : (did.filterMap fun
      | .handled cnt inFlight => some (cnt, inFlight)
      | _ => Option.none) = [] := by
    rw [List.filterMap_eq_nil_iff]
    intro sighting member
    cases sighting with
    | handled cnt inFlight => exact absurd member (none cnt inFlight)
    | started | posted | joined => rfl
  rw [requested, List.filterMap_append, nothing, List.append_nil, requested]

theorem Pool.due_resize (p : Pool) (delta : Int) : (p.resize delta).stage.due = some delta := by
  unfold Pool.resize
  split
  next zero => rw [zero, ControllerStage.due]
  next => rfl

/-- Every worker that has not been joined runs, is about to send WORKER_EXIT, or has ended. -/
theorem Pool.length_entries (p : Pool) :
    p.entries.length = p.running + p.exiting + p.endedIds.length := by
  simp only [Pool.entries, Pool.running, Pool.exiting, Pool.endedIds, List.length_map]
  induction p.threads with
  | nil => rfl
  | cons w threads ih =>
    simp only [List.length_cons, List.countP_cons, List.filter_cons]
    cases w.phase <;> simp <;> omega

/-- The workers that run, less the orders that wait for them, are what the last request comes
to, but for what its handler has still to do. -/
def Balanced (trace : List PoolSighting) (p : Pool) : Prop :=
  ∀ due, p.stage.due = some due → (p.running : Int) - p.orders + due = target trace

namespace Balanced

variable {trace did : List PoolSighting} {p p' : Pool}

/-- A step that leaves the difference, the stage and the requests as they are. -/
theorem moved (balanced : Balanced trace p) (none : ∀ cnt inFlight, .handled cnt inFlight ∉ did)
    (stage : p'.stage = p.stage) (difference : (p'.running : Int) - p'.orders = p.running - p.orders) :
    Balanced (trace ++ did) p' := by
  intro due here
  rw [stage] at here
  rw [difference, target, requested_append_of_none none]
  exact balanced due here

theorem step (balanced : Balanced trace p) (roster : Roster p) {action : PoolAction}
    (transition : PoolTransition p action did p') : Balanced (trace ++ did) p' := by
  cases transition with
  | sent => exact balanced.moved nofun rfl rfl
  | exit later stage queue => rintro due ⟨⟩
  | change cnt later stage queue =>
    intro due here
    rw [Pool.due_resize, Option.some.injEq] at here
    rw [target, requested_append_handled, ← here]
    -- workers_cnt counts also the workers that the orders in flight will stop.
    have total := p.length_entries
    have counted := roster.cnt
    have pending := roster.pending.length_eq
    have exits : ({ p with queue := later } : Pool).exits = p.exits := by simp [Pool.exits, queue]
    simp only [Pool.resize, Pool.inFlight, exits, Pool.running, Pool.orders, Pool.exiting] at *
    omega
  | joined workerId later thread workerId' before after stage queue found threads =>
    refine balanced.moved (by simp) rfl ?_
    simp [Pool.running, Pool.orders, threads]
  | unknown => exact balanced.moved nofun rfl rfl
  | jobs evt later count stage queue other =>
    refine balanced.moved nofun rfl ?_
    simp [Pool.running, Pool.orders, List.count_replicate]
  | started delta stage positive =>
    intro due here
    rw [Pool.due_resize, Option.some.injEq] at here
    have before := balanced delta (by rw [stage, ControllerStage.due])
    rw [target, requested_append_of_none (by simp), ← target, ← before, ← here]
    simp only [Pool.resize, Pool.runWorker, Pool.running, Pool.orders, List.countP_append]
    simp
    omega
  | ordered delta stage negative =>
    intro due here
    rw [Pool.due_resize, Option.some.injEq] at here
    have before := balanced delta (by rw [stage, ControllerStage.due])
    rw [List.append_nil, ← before, ← here]
    simp only [Pool.resize, Pool.decreaseWorkers, Pool.running, Pool.orders, List.count_cons_self]
    omega
  | stopOrdered | drains | left => rintro due ⟨⟩
  | tookExit i thread workerId before after later threads queue =>
    refine balanced.moved nofun rfl ?_
    simp [Pool.running, Pool.orders, List.countP_cons, threads, queue]
    omega
  | tookJob i thread workerId before after later threads queue =>
    refine balanced.moved nofun rfl ?_
    simp [Pool.running, Pool.orders, List.countP_cons, threads, queue]
  | finished i thread workerId before after threads =>
    refine balanced.moved nofun rfl ?_
    simp [Pool.running, Pool.orders, List.countP_cons, threads]
  | posted i thread workerId before after threads =>
    refine balanced.moved (by simp) rfl ?_
    simp [Pool.running, Pool.orders, threads]

theorem of_ran (ran : Ran poolStep FreshId .init trace p) : Balanced trace p := by
  induction ran with
  | start =>
    rintro due ⟨⟩
    rfl
  | step before met taken balanced =>
    exact balanced.step (.of_ran before) (poolStep_transition taken)

end Balanced

/-- No request is handled or pending, and nobody is on the way to its exit. -/
structure Pool.Quiescent (p : Pool) : Prop where
  stage : p.stage = .running
  requests : ∀ cnt, .changeWorkerCnt cnt ∉ p.queue
  exits : p.exits = []
  orders : p.orders = 0
  exiting : p.exiting = 0

/-- In a run in which no id is given out twice, the pool comes to rest with the number of
workers that was last asked for, just when no order to exit was in flight as that request
was handled; with a number from 1 on it is then not empty. -/
theorem resized_iff {trace : List PoolSighting} {p : Pool} (ran : Ran poolStep FreshId .init trace p)
    (quiet : p.Quiescent) {cnt : Int32} {inFlight : Nat} (last : requested trace = some (cnt, inFlight)) :
    ((p.running : Int) = cnt.toInt ↔ inFlight = 0) ∧
    (1 ≤ cnt.toInt → inFlight = 0 → 0 < p.running) := by
  have balanced := Balanced.of_ran ran 0 (by rw [quiet.stage, ControllerStage.due])
  rw [target, last, quiet.orders] at balanced
  dsimp only at balanced
  omega

/-! ### Two runs -/

/-- `cnt` is asked for, and the handler goes through its loops. -/
def request (cnt : Int32) (rounds : Nat) : List PoolAction :=
  [.send (.changeWorkerCnt cnt), .handleEvent] ++ List.replicate rounds .resizeRound

/-- The first worker takes an order, ends and is joined. -/
def exitFirst : List PoolAction := [.take 0, .post 0, .handleEvent]

theorem resized_iff_settled : ∃ trace p,
    replay poolStep .init (request 2 2 ++ request 1 1 ++ exitFirst) = some (trace, p) ∧
    (p.running : Int) = 1 := by
  have ran : ∃ trace p, replay poolStep .init (request 2 2 ++ request 1 1 ++ exitFirst) = some (trace, p) ∧
      requested trace = some (1, 0) ∧ p.stage = .running ∧ p.queue = [] ∧ p.orders = 0 ∧ p.exiting = 0 :=
    ⟨_, _, rfl, rfl, rfl, rfl, rfl, rfl⟩
  obtain ⟨trace, p, replayed, last, stage, queue, orders, exiting⟩ := ran
  have meets : Meets poolStep FreshId .init (request 2 2 ++ request 1 1 ++ exitFirst) := by
    refine ⟨trivial, trivial, ?_, ?_, trivial, trivial, ?_, trivial, trivial, trivial, trivial⟩
    all_goals
      rintro delta ⟨⟩ positive
      revert positive
      decide
  have quiet : p.Quiescent :=
    ⟨stage, by simp [queue], by simp [Pool.exits, queue], orders, exiting⟩
  exact ⟨trace, p, replayed, (resized_iff (ran_of_replay meets replayed) quiet last).1.mpr rfl⟩

/-- Three workers, then two, and one before the first has gone: the handler still counts three,
and stops two more. -/
def shrinkTwice : List PoolAction :=
  request 3 3 ++ request 2 1 ++ request 1 2 ++ exitFirst ++ exitFirst ++ exitFirst

/-- The pool comes to rest without a worker. -/
theorem pool_left_empty : ¬∀ (trace : List PoolSighting) (p : Pool),
    Ran poolStep (fun _ _ => True) .init trace p → p.Quiescent → ∀ cnt inFlight,
    requested trace = some (cnt, inFlight) → (p.running : Int) = cnt.toInt ∧ 0 < p.running := by
  intro claim
  have ran : ∃ trace p inFlight, replay poolStep .init shrinkTwice = some (trace, p) ∧
      requested trace = some (1, inFlight) ∧ p.stage = .running ∧ p.queue = [] ∧ p.orders = 0 ∧
      p.exiting = 0 ∧ p.running = 0 := ⟨_, _, _, rfl, rfl, rfl, rfl, rfl, rfl, rfl⟩
  obtain ⟨trace, p, inFlight, replayed, last, stage, queue, orders, exiting, none⟩ := ran
  have quiet : p.Quiescent :=
    ⟨stage, by simp [queue], by simp [Pool.exits, queue], orders, exiting⟩
  obtain ⟨_, positive⟩ := claim _ _ (ran_of_replay (meets_of_forall (fun _ _ => trivial) _ _) replayed)
    quiet _ _ last
  omega

end AcosChat

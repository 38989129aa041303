import AcosChat.Server.Invariant
import AcosChat.Server.Threads

/-!
# What a step of the threads can do

One case for each way in which a step can leave a next state, with what has been found out
on the way.
-/
namespace AcosChat

open Store Run Bytes

/-! ### What `process_connection` keeps -/

/-- The connection has been received into. -/
structure Continues (conn conn' : Connection) : Prop where
  sockid : conn'.sockid = conn.sockid
  inWorker : conn'.inWorker = conn.inWorker
  expected : conn.bytesExpected ≤ conn'.bytesExpected

/-- A connection that is left for the next turn has no complete frame. -/
def Received.Continues (conn : Connection) : Received → Prop
  | .blocked conn' => AcosChat.Continues conn conn'
  | .unfinished conn' _ => AcosChat.Continues conn conn' ∧
      ((msgHeaderSize : Int) ≤ conn.bytesExpected → conn'.bytesRead ≠ conn'.bytesExpected)
  | .complete conn' _ => AcosChat.Continues conn conn'
  | .lost .. | .fault => True

section Receive

variable {conn conn' : Connection}

theorem checkComplete_continues (wire : Wire) (before : Continues conn conn') :
    (checkComplete conn' wire).Continues conn := by
  unfold checkComplete
  split
  next => exact before
  next missing => exact ⟨before, fun _ => missing⟩

theorem receiveBody_continues (body : Block) (wire : Wire) (before : Continues conn conn') :
    (receiveBody conn' body wire).Continues conn := by
  unfold receiveBody
  split
  next => exact before
  next => trivial
  next =>
    split
    next => trivial
    next => exact checkComplete_continues _ ⟨before.sockid, before.inWorker, before.expected⟩

theorem receiveRest_continues (count : Nat) (wire : Wire) (before : Continues conn conn') :
    (receiveRest conn' count wire).Continues conn := by
  have added : Continues conn { conn' with bytesRead := conn'.bytesRead + count } :=
    ⟨before.sockid, before.inWorker, before.expected⟩
  unfold receiveRest
  dsimp only
  split
  next header =>
    refine ⟨added, fun five => ?_⟩
    have expected := before.expected
    dsimp only
    omega
  split
  next => trivial
  next bodySize _ =>
    split
    next => trivial
    split
    next => exact checkComplete_continues wire added
    next =>
      split
      next body _ => exact receiveBody_continues body wire added
      next =>
        split
        next => trivial
        split
        next => trivial
        next body _ _ =>
          refine receiveBody_continues body wire ⟨before.sockid, before.inWorker, ?_⟩
          have expected := before.expected
          dsimp only
          omega

theorem receiveHeader_continues (header : Block) (wire : Wire) (before : Continues conn conn') :
    (receiveHeader conn' header wire).Continues conn := by
  unfold receiveHeader
  split
  next => exact before
  next => trivial
  next =>
    split
    next => trivial
    next => exact receiveRest_continues _ _ ⟨before.sockid, before.inWorker, before.expected⟩

theorem receive_continues (conn : Connection) (wire : Wire) : (receive conn wire).Continues conn := by
  have start : Continues conn conn := ⟨rfl, rfl, le_refl _⟩
  unfold receive
  split
  next =>
    split
    next header _ => exact receiveHeader_continues header wire start
    next =>
      split
      next => trivial
      next header _ => exact receiveHeader_continues header wire ⟨rfl, rfl, le_refl _⟩
  next => exact receiveRest_continues 0 wire start

theorem processConnection_kept {wire wire' : Wire} (ran : processConnection conn wire = .kept conn' wire') :
    Continues conn conn' ∧
      ((msgHeaderSize : Int) ≤ conn.bytesExpected → conn'.bytesRead ≠ conn'.bytesExpected) := by
  have continues := receive_continues conn wire
  unfold processConnection at ran
  split at ran <;> cases ran
  next received => rwa [received] at continues

theorem processConnection_dispatched {wire wire' : Wire}
    (ran : processConnection conn wire = .dispatched conn' wire') :
    conn'.sockid = conn.sockid ∧ conn'.inWorker = true ∧ conn.bytesExpected ≤ conn'.bytesExpected := by
  have continues := receive_continues conn wire
  unfold processConnection at ran
  split at ran <;> cases ran
  next received =>
    rw [received] at continues
    exact ⟨continues.sockid, rfl, continues.expected⟩

end Receive

/-! ### Transitions -/

/-- `close_connection` has deleted the connection that had the socket. -/
inductive Closes (s : ServerState) (sockid : Int32) (requested : Option Nat) :
    List Sighting → ServerState → Prop
  | intro (c : Nat) (conns : Store Connection) (events : List Broadcast)
      (found : s.core.client sockid = some c) (freed : s.core.conns.free c = some conns) :
      Closes s sockid requested [.closed sockid requested (some c)] { s with
        core := ⟨conns, s.core.clients.erase (wordOfInt sockid), s.core.mgr.delSid sockid, s.core.db⟩
        controllerQueue := s.controllerQueue ++ events.map .broadcast }

/-- The ways in which a step can leave a next state. -/
inductive Transition (md5hex : Block → Block) (s : ServerState) :
    ThreadAction → List Sighting → ServerState → Prop
  | skipped (c : Nat) (todo : List Nat) (polled : List PollFd)
      (phase : s.listener = .collecting (c :: todo) polled) :
      Transition md5hex s .pushBackConn [] { s with listener := .collecting todo polled }
  | pushed (c : Nat) (conn : Connection) (todo : List Nat) (polled : List PollFd)
      (phase : s.listener = .collecting (c :: todo) polled) (there : s.core.conns.read c = some conn)
      (idle : conn.inWorker = false) :
      Transition md5hex s .pushBackConn [.polled c]
        { s with listener := .collecting todo (polled ++ [⟨c, conn.sockid⟩]) }
  | pollFailed : Transition md5hex s (.poll none) [] { s with listener := .stopped }
  | polled (polled : List PollFd) (accept : Bool) (revents : List Revents)
      (phase : s.listener = .collecting [] polled) (all : revents.length = polled.length) :
      Transition md5hex s (.poll (some (accept, revents))) []
        { s with listener := .serving accept (polled.zip revents) }
  | accepted (sockid : Int32) (todo : List (PollFd × Revents)) (phase : s.listener = .serving true todo)
      (unused : sockid ∉ s.core.openSockets) :
      Transition md5hex s (.acceptConnection sockid) []
        { s with core := s.core.acceptConnection sockid, listener := .serving false todo }
  | passed (wire : Wire) (env : Env) (fd : PollFd) (todo : List (PollFd × Revents))
      (phase : s.listener = .serving false ((fd, .none) :: todo)) :
      Transition md5hex s (.serve wire env) [] { s with listener := .serving false todo }
  | hungUp (wire : Wire) (env : Env) (fd : PollFd) (todo : List (PollFd × Revents))
      {seen : List Sighting} {s' : ServerState}
      (phase : s.listener = .serving false ((fd, .hangup) :: todo))
      (closes : Closes { s with listener := .serving false todo } fd.fd (some fd.conn) seen s') :
      Transition md5hex s (.serve wire env) seen s'
  | kept (wire wire' : Wire) (env : Env) (fd : PollFd) (todo : List (PollFd × Revents)) (c : Nat)
      (conn conn' : Connection) (conns : Store Connection)
      (phase : s.listener = .serving false ((fd, .readable) :: todo))
      (found : s.core.client fd.fd = some c) (there : s.core.conns.read c = some conn)
      (received : processConnection conn wire = .kept conn' wire')
      (written : s.core.conns.modify c (fun _ => conn') = some conns) :
      Transition md5hex s (.serve wire env) [.received c conn]
        { s with core := { s.core with conns := conns }, listener := .serving false todo }
  | dispatched (wire wire' : Wire) (env : Env) (fd : PollFd) (todo : List (PollFd × Revents)) (c : Nat)
      (conn conn' : Connection) (conns : Store Connection)
      (phase : s.listener = .serving false ((fd, .readable) :: todo))
      (found : s.core.client fd.fd = some c) (there : s.core.conns.read c = some conn)
      (received : processConnection conn wire = .dispatched conn' wire')
      (written : s.core.conns.modify c (fun _ => conn') = some conns) :
      Transition md5hex s (.serve wire env) [.received c conn]
        { s with
          core := { s.core with conns := conns }
          listener := .serving false todo
          controllerQueue := s.controllerQueue ++ [.inputMsg c conn'] }
  | lost (wire : Wire) (env : Env) (fd : PollFd) (todo : List (PollFd × Revents)) (c : Nat)
      (conn : Connection) (why : Loss) {seen : List Sighting} {s' : ServerState}
      (phase : s.listener = .serving false ((fd, .readable) :: todo))
      (found : s.core.client fd.fd = some c) (there : s.core.conns.read c = some conn)
      (received : processConnection conn wire = .closed why)
      (closes : Closes { s with listener := .serving false todo } fd.fd (some fd.conn) seen s') :
      Transition md5hex s (.serve wire env) (.received c conn :: seen) s'
  | noEvent (env : Env) (phase : s.listener = .serving false []) (queue : s.listenerQueue = []) :
      Transition md5hex s (.eventLoopIteration env) [] { s with listener := .turn s.core }
  | closeEvent (env : Env) (request : CloseRequest) (later : List CloseRequest)
      {seen : List Sighting} {s' : ServerState} (phase : s.listener = .serving false [])
      (queue : s.listenerQueue = request :: later)
      (closes : Closes { s with listenerQueue := later } request.sockid request.requested seen s') :
      Transition md5hex s (.eventLoopIteration env) seen { s' with listener := .turn s'.core }
  | refused (env : Env) (c : Nat) (frame conn : Connection) (later : List ControllerEvent)
      (conns : Store Connection) (idle : s.controller = none)
      (queue : s.controllerQueue = .inputMsg c frame :: later)
      (there : s.core.conns.read c = some conn)
      (corrupt : unpackMessage2 (conn.header.getD []) (conn.body.getD []) = .done none)
      (written : s.core.conns.modify c (fun conn => { conn with inWorker := false }) = some conns) :
      Transition md5hex s (.handleEvent env) []
        { s with
          core := { s.core with conns := conns }
          controllerQueue := later
          controller := some (c, frame) }
  | unpacked (env : Env) (c : Nat) (frame conn : Connection) (msg : Message)
      (later : List ControllerEvent) (idle : s.controller = none)
      (queue : s.controllerQueue = .inputMsg c frame :: later)
      (there : s.core.conns.read c = some conn)
      (unpacked : unpackMessage2 (conn.header.getD []) (conn.body.getD []) = .done (some msg)) :
      Transition md5hex s (.handleEvent env) []
        { s with
          controllerQueue := later
          workersQueue := s.workersQueue ++ [.processMessage c msg]
          controller := some (c, frame) }
  | broadcast (env : Env) (evt : Broadcast) (later : List ControllerEvent) (db : Db) (sids : List Int32)
      (queue : s.controllerQueue = .broadcast evt :: later) :
      Transition md5hex s (.handleEvent env) []
        { s with
          core := { s.core with db := db }
          controllerQueue := later
          workersQueue := s.workersQueue ++ sids.map (.sendMessage · evt) }
  | reset (c : Nat) (conn frame : Connection) (conns : Store Connection)
      (handled : s.controller = some (c, frame)) (there : s.core.conns.read c = some conn)
      (written : s.core.conns.modify c resetConnection = some conns) :
      Transition md5hex s .inputMsgEventDeleter [.reset c conn frame]
        { s with core := { s.core with conns := conns }, controller := none }
  | sent (env : Env) (sid : Int32) (evt : Broadcast) (later : List Job)
      (queue : s.workersQueue = .sendMessage sid evt :: later) :
      Transition md5hex s (.handleJob env) [] { s with workersQueue := later }
  | processed (env : Env) (c : Nat) (conn : Connection) (msg : Message) (later : List Job)
      (effects : List Effect) (mgr : ConnMgr) (db : Db)
      (queue : s.workersQueue = .processMessage c msg :: later)
      (there : s.core.conns.read c = some conn)
      (handled : s.core.handleJob md5hex env conn msg = some (effects, { s.core with mgr := mgr, db := db }))
      (outcome : Outcome env conn.sockid s.core.mgr s.core.db msg.msgType effects mgr db) :
      Transition md5hex s (.handleJob env) []
        ({ s with
          core := { s.core with mgr := mgr, db := db }
          workersQueue := later
          workers := s.workers ++ [c] }.emit effects)
  | deleted (i c : Nat) (conns : Store Connection) (handled : s.workers[i]? = some c)
      (written : s.core.conns.modify c (fun conn => { conn with inWorker := false }) = some conns) :
      Transition md5hex s (.processMessageJobDeleter i) []
        { s with core := { s.core with conns := conns }, workers := s.workers.eraseIdx i }

variable {md5hex : Block → Block} {s s' : ServerState} {seen : List Sighting}

theorem access_eq_some {c : Nat} {f : Connection → Connection} {did : List Sighting}
    {next : ServerState → ServerState} (ran : s.access c f did next = some (seen, some s')) :
    ∃ conns, s.core.conns.modify c f = some conns ∧ seen = did ∧
      s' = next { s with core := { s.core with conns := conns } } := by
  unfold ServerState.access at ran
  split at ran
  next => cases ran
  next conns written =>
    cases ran
    exact ⟨conns, written, rfl, rfl⟩

theorem logoutEvents_eq {env : Env} {uid sessions : Int32} {db : Db} {effects : List Effect}
    (announced : Core.logoutEvents env uid sessions db = some effects) :
    ∃ events : List Broadcast, effects = events.map .broadcast := by
  unfold Core.logoutEvents at announced
  split at announced
  · simp only [Option.bind_eq_bind, Option.bind_eq_some_iff] at announced
    obtain ⟨_, _, announced⟩ := announced
    cases announced
    exact ⟨[_], rfl⟩
  · cases announced
    exact ⟨[], rfl⟩

theorem closeConnection_closes {env : Env} {sockid : Int32} {requested : Option Nat}
    (ran : s.closeConnection env sockid requested = some (seen, some s')) :
    Closes s sockid requested seen s' := by
  obtain ⟨⟨effects, rest⟩, closed, same⟩ := Option.map_eq_some_iff.mp ran
  unfold Core.closeConnection at closed
  dsimp only at closed
  split at closed
  next =>
    cases closed
    cases same
  next conns freed =>
    obtain ⟨c, found, freed⟩ := Option.bind_eq_some_iff.mp freed
    simp only [Option.bind_eq_bind, Option.bind_eq_some_iff] at closed
    obtain ⟨_, announced, closed⟩ := closed
    obtain ⟨events, rfl⟩ := logoutEvents_eq announced
    cases closed
    -- all that a close emits before its sighting is the announcement, an event and no request
    have events_ : (events.map Effect.broadcast).filterMap Effect.event =
        events.map ControllerEvent.broadcast := by
      rw [List.filterMap_map, ← List.filterMap_eq_map]
      rfl
    have requests (core : Core) : (events.map Effect.broadcast).filterMap (Effect.request core) = [] := by
      rw [List.filterMap_map, List.filterMap_eq_nil_iff]
      exact fun _ _ => rfl
    have sightings : (events.map Effect.broadcast).filterMap (Effect.sighting sockid requested) = [] := by
      rw [List.filterMap_map, List.filterMap_eq_nil_iff]
      exact fun _ _ => rfl
    simp only [Option.map_some, Prod.mk.injEq, Option.some.injEq, ServerState.emit,
      List.filterMap_cons, Effect.event, Effect.request, Effect.sighting, events_, requests, sightings,
      List.append_nil, found] at same
    obtain ⟨rfl, rfl⟩ := same
    exact .intro c conns events found freed

theorem processConnection_transition {wire : Wire} {env : Env} {fd : PollFd}
    {todo : List (PollFd × Revents)} (phase : s.listener = .serving false ((fd, .readable) :: todo))
    (ran : ServerState.processConnection { s with listener := .serving false todo } wire env fd =
      some (seen, some s')) : Transition md5hex s (.serve wire env) seen s' := by
  unfold ServerState.processConnection at ran
  dsimp only at ran
  split at ran
  next => cases ran
  next c found =>
    split at ran
    next => cases ran
    next conn there =>
      split at ran
      next => cases ran
      next => cases ran
      next conn' wire' received =>
        obtain ⟨conns, written, rfl, rfl⟩ := access_eq_some ran
        exact .kept wire wire' env fd todo c conn conn' conns phase found there received written
      next conn' wire' received =>
        obtain ⟨conns, written, rfl, rfl⟩ := access_eq_some ran
        exact .dispatched wire wire' env fd todo c conn conn' conns phase found there received written
      next why received =>
        obtain ⟨⟨did, rest⟩, closed, same⟩ := Option.map_eq_some_iff.mp ran
        cases same
        exact .lost wire env fd todo c conn why phase found there received (closeConnection_closes closed)

theorem handleEvent_transition {env : Env} (ran : s.handleEvent env = some (seen, some s')) :
    Transition md5hex s (.handleEvent env) seen s' := by
  unfold ServerState.handleEvent at ran
  split at ran
  next c frame later idle queue =>
    unfold ServerState.inputMsgEventHandler at ran
    dsimp only at ran
    split at ran
    next => cases ran
    next conn there =>
      split at ran
      next corrupt =>
        obtain ⟨conns, written, rfl, rfl⟩ := access_eq_some ran
        exact .refused env c frame conn later conns idle queue there corrupt written
      next msg unpacked =>
        cases ran
        exact .unpacked env c frame conn msg later idle queue there unpacked
      next => cases ran
      next => cases ran
  next evt later idle queue =>
    unfold ServerState.broadcastMessageEventHandler at ran
    simp only [Option.bind_eq_bind, Option.bind_eq_some_iff] at ran
    obtain ⟨db, _, ran⟩ := ran
    cases ran
    convert Transition.broadcast env evt later db (s.core.mgr.sidToUid.keys.map intOfWord) queue using 2
    rw [List.map_map]
    rfl
  next => cases ran

theorem handleJob_transition {env : Env} (ran : s.handleJob md5hex env = some (seen, some s')) :
    Transition md5hex s (.handleJob env) seen s' := by
  unfold ServerState.handleJob at ran
  split at ran
  next => cases ran
  next sid evt later queue =>
    cases ran
    exact .sent env sid evt later queue
  next c msg later queue =>
    split at ran
    next => cases ran
    next conn there =>
      simp only [Option.bind_eq_bind, Option.bind_eq_some_iff, Prod.exists] at ran
      obtain ⟨effects, core, handled, ran⟩ := ran
      have whole := handled
      simp only [Core.handleJob, Option.bind_eq_bind, Option.bind_eq_some_iff, Prod.exists] at handled
      obtain ⟨effects', mgr, db, handled, same⟩ := handled
      cases same
      cases ran
      exact .processed env c conn msg later effects mgr db queue there whole
        (processMessageJobHandler_outcome handled)

theorem threadStep_transition {action : ThreadAction}
    (taken : threadStep md5hex s action = some (seen, some s')) :
    Transition md5hex s action seen s' := by
  cases action with
  | pushBackConn =>
    simp only [threadStep, ServerState.pushBackConn] at taken
    split at taken
    next c todo polled phase =>
      split at taken
      next => cases taken
      next conn there =>
        split at taken
        next =>
          cases taken
          exact .skipped c todo polled phase
        next idle =>
          -- only a connection that no worker has is polled
          cases taken
          exact .pushed c conn todo polled phase there (by simpa using idle)
    next => cases taken
  | poll result =>
    simp only [threadStep, ServerState.poll] at taken
    split at taken
    next =>
      cases taken
      exact .pollFailed
    next polled accept revents phase =>
      split at taken
      next all =>
        cases taken
        exact .polled polled accept revents phase all
      next => cases taken
    next => cases taken
  | acceptConnection sockid =>
    simp only [threadStep, ServerState.acceptConnection] at taken
    split at taken
    next todo phase =>
      split at taken
      next => cases taken
      next unused =>
        cases taken
        exact .accepted sockid todo phase unused
    next => cases taken
  | serve wire env =>
    simp only [threadStep, ServerState.serve] at taken
    split at taken
    next fd revents todo phase =>
      cases revents with
      | none =>
        cases taken
        exact .passed wire env fd todo phase
      -- a hangup closes at once, before anything that is left to read
      | hangup => exact .hungUp wire env fd todo phase (closeConnection_closes taken)
      | readable => exact processConnection_transition phase taken
    next => cases taken
  | eventLoopIteration env =>
    simp only [threadStep, ServerState.eventLoopIteration] at taken
    split at taken
    next phase queue =>
      cases taken
      exact .noEvent env phase queue
    next request later phase queue =>
      obtain ⟨⟨did, rest⟩, ran, same⟩ := Option.map_eq_some_iff.mp taken
      simp only [Prod.mk.injEq, Option.map_eq_some_iff] at same
      obtain ⟨rfl, core, rfl, rfl⟩ := same
      exact .closeEvent env request later phase queue (closeConnection_closes ran)
    next => cases taken
  | handleEvent env => exact handleEvent_transition taken
  | inputMsgEventDeleter =>
    simp only [threadStep, ServerState.inputMsgEventDeleter] at taken
    split at taken
    next => cases taken
    next c frame handled =>
      split at taken
      next => cases taken
      next conn there =>
        obtain ⟨conns, written, rfl, rfl⟩ := access_eq_some taken
        exact .reset c conn frame conns handled there written
  | handleJob env => exact handleJob_transition taken
  | processMessageJobDeleter i =>
    simp only [threadStep, ServerState.processMessageJobDeleter] at taken
    split at taken
    next => cases taken
    next c handled =>
      obtain ⟨conns, written, rfl, rfl⟩ := access_eq_some taken
      exact .deleted i c conns handled written

/-! ### Sightings -/

/-- The connection of an event. -/
def ControllerEvent.holds : ControllerEvent → Option Nat
  | .inputMsg c _ => some c
  | .broadcast _ => none

/-- The connection of a job. -/
def Job.holds : Job → Option Nat
  | .processMessage c _ => some c
  | .sendMessage .. => none

/-- The connections that events and jobs hold, once for each. -/
def ServerState.held (s : ServerState) : List Nat :=
  s.controllerQueue.filterMap ControllerEvent.holds ++ s.workersQueue.filterMap Job.holds ++ s.workers

/-- What is known where something is seen. -/
inductive Shows (s : ServerState) : Sighting → Prop
  | polled (c : Nat) (conn : Connection) (there : s.core.conns.read c = some conn)
      (idle : conn.inWorker = false) : Shows s (.polled c)
  | received (c : Nat) (conn : Connection) (fd : PollFd) (revents : Revents)
      (todo : List (PollFd × Revents)) (phase : s.listener = .serving false ((fd, revents) :: todo))
      (found : s.core.client fd.fd = some c) (there : s.core.conns.read c = some conn) :
      Shows s (.received c conn)
  | reset (c : Nat) (conn frame : Connection) (handled : s.controller = some (c, frame))
      (there : s.core.conns.read c = some conn) : Shows s (.reset c conn frame)
  | served (fd : PollFd) (revents : Revents) (todo : List (PollFd × Revents))
      (phase : s.listener = .serving false ((fd, revents) :: todo)) :
      Shows s (.closed fd.fd (some fd.conn) (s.core.client fd.fd))
  | requested (request : CloseRequest) (queued : request ∈ s.listenerQueue) :
      Shows s (.closed request.sockid request.requested (s.core.client request.sockid))
  | dangling (c : Nat) (gone : s.core.conns.read c = none)
      (used : (∃ todo polled, s.listener = .collecting (c :: todo) polled) ∨
        (∃ sockid, s.core.client sockid = some c) ∨
        c ∈ s.held ∨ ∃ frame, s.controller = some (c, frame)) :
      Shows s (.dangling c)

variable {rest : Option ServerState}

theorem access_shows {c : Nat} {f : Connection → Connection} {did : List Sighting}
    {next : ServerState → ServerState} (ran : s.access c f did next = some (seen, rest)) :
    seen = did ∨ (seen = [.dangling c] ∧ s.core.conns.read c = none) := by
  unfold ServerState.access at ran
  split at ran
  next gone =>
    cases ran
    exact .inr ⟨rfl, Option.map_eq_none_iff.mp gone⟩
  next =>
    cases ran
    exact .inl rfl

theorem closeConnection_seen {env : Env} {sockid : Int32} {requested : Option Nat}
    (ran : s.closeConnection env sockid requested = some (seen, rest)) :
    seen = [.closed sockid requested (s.core.client sockid)] := by
  obtain ⟨⟨effects, core⟩, closed, same⟩ := Option.map_eq_some_iff.mp ran
  cases same
  unfold Core.closeConnection at closed
  dsimp only at closed
  split at closed
  next =>
    cases closed
    rfl
  next =>
    simp only [Option.bind_eq_bind, Option.bind_eq_some_iff] at closed
    obtain ⟨_, announced, closed⟩ := closed
    obtain ⟨events, rfl⟩ := logoutEvents_eq announced
    cases closed
    have nothing : (events.map Effect.broadcast).filterMap (Effect.sighting sockid requested) = [] := by
      rw [List.filterMap_map, List.filterMap_eq_nil_iff]
      exact fun _ _ => rfl
    simp only [List.filterMap_cons, Effect.sighting, nothing]

theorem serve_shows {wire : Wire} {env : Env} (ran : s.serve wire env = some (seen, rest)) :
    ∀ sighting ∈ seen, Shows s sighting := by
  unfold ServerState.serve at ran
  split at ran
  next fd revents todo phase =>
    -- a close shows the connection of the `pollfd` that is served, on either way to it
    have served : ∀ seen' rest', ServerState.closeConnection { s with listener := .serving false todo }
        env fd.fd (some fd.conn) = some (seen', rest') → ∀ sighting ∈ seen', Shows s sighting := by
      intro seen' rest' closed sighting member
      rw [closeConnection_seen closed, List.mem_singleton] at member
      exact member ▸ .served fd revents todo phase
    cases revents with
    | none =>
      cases ran
      simp
    | hangup => exact served seen rest ran
    | readable =>
      unfold ServerState.processConnection at ran
      dsimp only at ran
      split at ran
      next =>
        cases ran
        simp
      next c found =>
        split at ran
        next gone =>
          -- the map has a pointer that has been freed
          cases ran
          intro sighting member
          rw [List.mem_singleton.mp member]
          exact .dangling c gone (.inr (.inl ⟨fd.fd, found⟩))
        next conn there =>
          have received : Shows s (.received c conn) := .received c conn fd _ todo phase found there
          have written : ∀ f next, ServerState.access { s with listener := .serving false todo } c f
              [.received c conn] next = some (seen, rest) → ∀ sighting ∈ seen, Shows s sighting := by
            intro f next accessed sighting member
            rcases access_shows accessed with rfl | ⟨rfl, gone⟩
            · exact List.mem_singleton.mp member ▸ received
            · rw [there] at gone
              cases gone
          split at ran
          next => cases ran
          next => cases ran
          next => exact written _ _ ran
          next => exact written _ _ ran
          next =>
            obtain ⟨⟨did, _⟩, closed, same⟩ := Option.map_eq_some_iff.mp ran
            cases same
            intro sighting member
            rcases List.mem_cons.mp member with rfl | member
            · exact received
            · exact served did _ closed sighting member
  next => cases ran

theorem handleEvent_shows {env : Env} (ran : s.handleEvent env = some (seen, rest)) :
    ∀ sighting ∈ seen, Shows s sighting := by
  unfold ServerState.handleEvent at ran
  split at ran
  next c frame later idle queue =>
    unfold ServerState.inputMsgEventHandler at ran
    dsimp only at ran
    have held : c ∈ s.held := by simp [ServerState.held, queue, ControllerEvent.holds]
    split at ran
    next gone =>
      cases ran
      intro sighting member
      rw [List.mem_singleton.mp member]
      exact .dangling c gone (.inr (.inr (.inl held)))
    next conn there =>
      split at ran
      next =>
        rcases access_shows ran with rfl | ⟨rfl, gone⟩
        · simp
        · rw [there] at gone
          cases gone
      next =>
        cases ran
        simp
      next => cases ran
      next => cases ran
  next =>
    unfold ServerState.broadcastMessageEventHandler at ran
    simp only [Option.bind_eq_bind, Option.bind_eq_some_iff] at ran
    obtain ⟨_, _, ran⟩ := ran
    cases ran
    simp
  next => cases ran

theorem handleJob_shows {env : Env} (ran : s.handleJob md5hex env = some (seen, rest)) :
    ∀ sighting ∈ seen, Shows s sighting := by
  unfold ServerState.handleJob at ran
  split at ran
  next => cases ran
  next =>
    cases ran
    simp
  next c msg later queue =>
    split at ran
    next gone =>
      cases ran
      intro sighting member
      rw [List.mem_singleton.mp member]
      refine .dangling c gone (.inr (.inr (.inl ?_)))
      simp [ServerState.held, queue, Job.holds]
    next =>
      simp only [Option.bind_eq_bind, Option.bind_eq_some_iff, Prod.exists] at ran
      obtain ⟨_, _, _, ran⟩ := ran
      cases ran
      simp

/-- Whatever a step shows, also the last one. -/
theorem threadStep_shows {action : ThreadAction}
    (taken : threadStep md5hex s action = some (seen, rest)) :
    ∀ sighting ∈ seen, Shows s sighting := by
  cases action with
  | pushBackConn =>
    simp only [threadStep, ServerState.pushBackConn] at taken
    split at taken
    next c todo polled phase =>
      split at taken
      next gone =>
        cases taken
        intro sighting member
        rw [List.mem_singleton.mp member]
        exact .dangling c gone (.inl ⟨todo, polled, phase⟩)
      next conn there =>
        split at taken <;> cases taken
        · simp
        next idle =>
          intro sighting member
          rw [List.mem_singleton.mp member]
          exact .polled c conn there (by simpa using idle)
    next => cases taken
  | poll result =>
    simp only [threadStep, ServerState.poll] at taken
    split at taken
    next =>
      cases taken
      simp
    next =>
      split at taken <;> cases taken
      simp
    next => cases taken
  | acceptConnection sockid =>
    simp only [threadStep, ServerState.acceptConnection] at taken
    split at taken
    next =>
      split at taken <;> cases taken
      simp
    next => cases taken
  | serve wire env => exact serve_shows taken
  | eventLoopIteration env =>
    simp only [threadStep, ServerState.eventLoopIteration] at taken
    split at taken
    next =>
      cases taken
      simp
    next request later phase queue =>
      obtain ⟨⟨did, _⟩, ran, same⟩ := Option.map_eq_some_iff.mp taken
      cases same
      intro sighting member
      rw [closeConnection_seen ran, List.mem_singleton] at member
      exact member ▸ .requested request (by simp [queue])
    next => cases taken
  | handleEvent env => exact handleEvent_shows taken
  | inputMsgEventDeleter =>
    simp only [threadStep, ServerState.inputMsgEventDeleter] at taken
    split at taken
    next => cases taken
    next c frame handled =>
      intro sighting member
      split at taken
      next gone =>
        cases taken
        rw [List.mem_singleton.mp member]
        exact .dangling c gone (.inr (.inr (.inr ⟨frame, handled⟩)))
      next conn there =>
        rcases access_shows taken with rfl | ⟨rfl, gone⟩
        · exact List.mem_singleton.mp member ▸ .reset c conn frame handled there
        · rw [there] at gone
          cases gone
  | handleJob env => exact handleJob_shows taken
  | processMessageJobDeleter i =>
    simp only [threadStep, ServerState.processMessageJobDeleter] at taken
    split at taken
    next => cases taken
    next c handled =>
      rcases access_shows taken with rfl | ⟨rfl, gone⟩
      · simp
      · intro sighting member
        rw [List.mem_singleton.mp member]
        refine .dangling c gone (.inr (.inr (.inl ?_)))
        simp [ServerState.held, List.mem_of_getElem? handled]

end AcosChat

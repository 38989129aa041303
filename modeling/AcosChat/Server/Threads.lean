import AcosChat.Lib.Run
import AcosChat.Server.Core
import AcosChat.Server.SendMessage

/-!
# The threads of the server

The listener, the controller and any number of workers, with the queues between them. The
listener's turn is `push_back_conn` for one client after the other, `poll`, the sockets
that it reports, and one `event_loop_iteration`. The handler and the deleter of an event
are two steps where both use a connection. A close takes effect at its `conn_mgr_del_sid`:
what the workers do while `close_connection` runs comes before it, and the CLOSE_CONNECTION
event that is being handled counts as queued until then. A step that reaches a deleted
connection, or closes a socket that is not open, is the last. Shutdown and the resizing of the
pool of workers are left out; SEND_MESSAGE jobs hold no connection, so what they send is, too.
-/
namespace AcosChat

open Std Store Bytes Run

/-! ### The state -/

/-- A CLOSE_CONNECTION event: the socket, and whose it was when the event was sent. -/
structure CloseRequest where
  sockid : Int32
  requested : Option Nat
deriving DecidableEq, Repr

/-- An event of the controller. An INPUT_MSG event has the connection as it was when its
frame was complete. -/
inductive ControllerEvent where
  | inputMsg (conn : Nat) (frame : Connection)
  | broadcast (evt : Broadcast)
deriving DecidableEq, Repr

inductive Job where
  | processMessage (conn : Nat) (msg : Message)
  | sendMessage (sid : Int32) (evt : Broadcast)
deriving DecidableEq, Repr

/-- A `struct pollfd`, and whose socket it is. -/
structure PollFd where
  conn : Nat
  fd : Int32
deriving DecidableEq, Repr

inductive Revents where
  | none
  /-- `POLLHUP` or `POLLERR` -/
  | hangup
  | readable
deriving DecidableEq, Repr

/-- Where `listener_thread` is in its turn. -/
inductive ListenerPhase where
  /-- In `ts_map_forall`: the connections still to come, and `polling_conns`. -/
  | collecting (todo : List Nat) (polled : List PollFd)
  /-- After `poll`: whether the server's own socket is to be accepted from, and the rest. -/
  | serving (accept : Bool) (todo : List (PollFd × Revents))
  | stopped
deriving DecidableEq, Repr

/-- The start of a turn of the listener. -/
def ListenerPhase.turn (core : Core) : ListenerPhase :=
  .collecting (core.clients.toList.filterMap Prod.snd) []

structure ServerState where
  core : Core
  listener : ListenerPhase
  listenerQueue : List CloseRequest
  controllerQueue : List ControllerEvent
  workersQueue : List Job
  /-- The INPUT_MSG event whose handler has run and whose deleter has not. -/
  controller : Option (Nat × Connection)
  /-- The connections of the jobs whose handlers have run and whose deleters have not. -/
  workers : List Nat

/-- What is observed: of every close, the socket, whose close was asked for and what
`connection_deleter` got; and of connections, who polls, reads or resets them. -/
inductive Sighting where
  | closed (sockid : Int32) (requested deleted : Option Nat)
  | polled (conn : Nat)
  /-- `process_connection` runs on a connection in this state. -/
  | received (conn : Nat) (before : Connection)
  /-- `input_msg_event_deleter` resets a connection in this state, after this frame. -/
  | reset (conn : Nat) (before frame : Connection)
  /-- A deleted connection is used. -/
  | dangling (conn : Nat)
deriving DecidableEq, Repr

/-- What `send_event` puts into the controller's queue. -/
def Effect.event : Effect → Option ControllerEvent
  | .broadcast evt => some (.broadcast evt)
  | _ => none

/-- What `send_event` puts into the listener's queue. -/
def Effect.request (core : Core) : Effect → Option CloseRequest
  | .closeEvent sockid => some ⟨sockid, core.client sockid⟩
  | _ => none

/-- What is observed of a close. -/
def Effect.sighting (sockid : Int32) (requested : Option Nat) : Effect → Option Sighting
  | .deleted conn => some (.closed sockid requested conn)
  | _ => none

namespace ServerState

def init (db : Db) : ServerState := ⟨.init db, .turn (.init db), [], [], [], none, []⟩

/-- What a step leaves: what is observed, and the next state unless it is the last. -/
abbrev Result := Option (List Sighting × Option ServerState)

/-- A write to a connection, with what else changes. -/
def access (s : ServerState) (c : Nat) (f : Connection → Connection) (seen : List Sighting)
    (next : ServerState → ServerState) : Result :=
  match s.core.conns.modify c f with
  | none => some ([.dangling c], none)
  | some conns => some (seen, some (next { s with core := { s.core with conns := conns } }))

/-- The events among the effects of a handler. -/
def emit (s : ServerState) (effects : List Effect) : ServerState :=
  { s with
    controllerQueue := s.controllerQueue ++ effects.filterMap Effect.event
    listenerQueue := s.listenerQueue ++ effects.filterMap (Effect.request s.core) }

/-! ### The listener -/

/-- `push_back_conn` for the next client. -/
def pushBackConn (s : ServerState) : Result :=
  match s.listener with
  | .collecting (c :: todo) polled =>
    match s.core.conns.read c with
    | none => some ([.dangling c], none)
    | some conn =>
      -- A connection that is in a worker is not polled.
      if conn.inWorker then some ([], some { s with listener := .collecting todo polled })
      else
        some ([.polled c], some { s with listener := .collecting todo (polled ++ [⟨c, conn.sockid⟩]) })
  | _ => none

/-- `poll`: -1, or whether the server's socket is readable, and the other `revents`. -/
def poll (s : ServerState) (result : Option (Bool × List Revents)) : Result :=
  match s.listener, result with
  -- The loop of the thread ends.
  | .collecting [] _, none => some ([], some { s with listener := .stopped })
  | .collecting [] polled, some (accept, revents) =>
    -- poll answers for every entry, in order.
    if revents.length = polled.length then
      some ([], some { s with listener := .serving accept (polled.zip revents) })
    else none
  | _, _ => none

/-- `accept_connection`; `accept` returns a number that no open socket has. -/
def acceptConnection (s : ServerState) (sockid : Int32) : Result :=
  match s.listener with
  | .serving true todo =>
    -- The kernel reuses a number once its socket is closed.
    if sockid ∈ s.core.openSockets then none
    else some ([], some { s with core := s.core.acceptConnection sockid, listener := .serving false todo })
  | _ => none

/-- `close_connection` -/
def closeConnection (s : ServerState) (env : Env) (sockid : Int32) (requested : Option Nat) : Result :=
  (s.core.closeConnection env sockid).map fun (effects, rest) =>
    (effects.filterMap (Effect.sighting sockid requested),
      rest.map fun core => { s with core := core }.emit effects)

/-- `process_connection` -/
def processConnection (s : ServerState) (wire : Wire) (env : Env) (fd : PollFd) : Result :=
  -- The connection is looked up again, by the number that was polled.
  match s.core.client fd.fd with
  | none => some ([], none)
  | some c =>
    match s.core.conns.read c with
    | none => some ([.dangling c], none)
    | some conn =>
      match AcosChat.processConnection conn wire with
      -- recv waits, and the step is taken once something has come; past INT_MAX nothing is defined.
      | .blocked _ | .fault => none
      | .kept conn' _ => s.access c (fun _ => conn') [.received c conn] id
      | .dispatched conn' _ =>
        s.access c (fun _ => conn') [.received c conn] fun s =>
          { s with controllerQueue := s.controllerQueue ++ [.inputMsg c conn'] }
      | .closed _ =>
        (s.closeConnection env fd.fd (some fd.conn)).map fun (seen, rest) =>
          (.received c conn :: seen, rest)

/-- The next round of the loop over `polling_conns`. -/
def serve (s : ServerState) (wire : Wire) (env : Env) : Result :=
  match s.listener with
  | .serving false ((fd, revents) :: todo) =>
    let s := { s with listener := .serving false todo }
    match revents with
    | .none => some ([], some s)
    -- POLLHUP and POLLERR come before POLLIN, so what was received is not read.
    | .hangup => s.closeConnection env fd.fd (some fd.conn)
    | .readable => s.processConnection wire env fd
  | _ => none

/-- `event_loop_iteration` of the listener, after which its next turn starts. -/
def eventLoopIteration (s : ServerState) (env : Env) : Result :=
  match s.listener, s.listenerQueue with
  | .serving false [], [] => some ([], some { s with listener := .turn s.core })
  | .serving false [], request :: later =>
    let s := { s with listenerQueue := later }
    -- One event a turn, and close_connection is given the number alone.
    (s.closeConnection env request.sockid request.requested).map fun (seen, rest) =>
      (seen, rest.map fun s => { s with listener := .turn s.core })
  | _, _ => none

/-! ### The controller -/

/-- `input_msg_event_handler` -/
def inputMsgEventHandler (s : ServerState) (c : Nat) (frame : Connection) : Result :=
  let s := { s with controller := some (c, frame) }
  match s.core.conns.read c with
  | none => some ([.dangling c], none)
  | some conn =>
    match unpackMessage2 (conn.header.getD []) (conn.body.getD []) with
    -- The listener may poll the connection from here on, before the deleter.
    | .done none => s.access c (fun conn => { conn with inWorker := false }) [] id
    | .done (some msg) =>
      some ([], some { s with workersQueue := s.workersQueue ++ [.processMessage c msg] })
    -- An access outside the body: what follows is not defined.
    | .fault | .running => none

/-- `broadcast_message_event_handler`; its deleter does not use a connection. -/
def broadcastMessageEventHandler (s : ServerState) (evt : Broadcast) (env : Env) : Result := do
  let db ← storeBroadcast (env.script 0) evt s.core.db
  -- broadcast_message_callback: a job for every socket, logged in or not
  let jobs := s.core.mgr.sidToUid.keys.map fun key => .sendMessage (intOfWord key) evt
  some ([], some { s with core := { s.core with db := db }, workersQueue := s.workersQueue ++ jobs })

/-- `event_loop_iteration` of the controller, up to the deleter. -/
def handleEvent (s : ServerState) (env : Env) : Result :=
  match s.controller, s.controllerQueue with
  | none, .inputMsg c frame :: later =>
    { s with controllerQueue := later }.inputMsgEventHandler c frame
  | none, .broadcast evt :: later =>
    { s with controllerQueue := later }.broadcastMessageEventHandler evt env
  | _, _ => none

/-- `input_msg_event_deleter` -/
def inputMsgEventDeleter (s : ServerState) : Result :=
  match s.controller with
  | none => none
  | some (c, frame) =>
    match s.core.conns.read c with
    | none => some ([.dangling c], none)
    | some conn =>
      s.access c resetConnection [.reset c conn frame] fun s => { s with controller := none }

/-! ### The workers -/

/-- A worker takes a job and runs its handler. -/
def handleJob (md5hex : Block → Block) (s : ServerState) (env : Env) : Result :=
  match s.workersQueue with
  | [] => none
  -- It sends to a socket and touches no connection.
  | .sendMessage _ _ :: later => some ([], some { s with workersQueue := later })
  | .processMessage c msg :: later =>
    match s.core.conns.read c with
    | none => some ([.dangling c], none)
    | some conn => do
      let (effects, core) ← s.core.handleJob md5hex env conn msg
      some ([], some ({ s with
        core := core, workersQueue := later, workers := s.workers ++ [c] }.emit effects))

/-- `process_message_job_deleter` of one of the workers. -/
def processMessageJobDeleter (s : ServerState) (i : Nat) : Result :=
  match s.workers[i]? with
  | none => none
  | some c =>
    s.access c (fun conn => { conn with inWorker := false }) [] fun s =>
      { s with workers := s.workers.eraseIdx i }

end ServerState

/-! ### Steps -/

inductive ThreadAction where
  | pushBackConn
  | poll (result : Option (Bool × List Revents))
  | acceptConnection (sockid : Int32)
  | serve (wire : Wire) (env : Env)
  | eventLoopIteration (env : Env)
  | handleEvent (env : Env)
  | inputMsgEventDeleter
  | handleJob (env : Env)
  | processMessageJobDeleter (worker : Nat)

def threadStep (md5hex : Block → Block) : Step ServerState ThreadAction Sighting
  | s, .pushBackConn => s.pushBackConn
  | s, .poll result => s.poll result
  | s, .acceptConnection sockid => s.acceptConnection sockid
  | s, .serve wire env => s.serve wire env
  | s, .eventLoopIteration env => s.eventLoopIteration env
  | s, .handleEvent env => s.handleEvent env
  | s, .inputMsgEventDeleter => s.inputMsgEventDeleter
  | s, .handleJob env => s.handleJob md5hex env
  | s, .processMessageJobDeleter worker => s.processMessageJobDeleter worker

end AcosChat

import AcosChat.Connection.Model
import AcosChat.Lib.Run
import AcosChat.Server.Jobs

/-!
# The client's listener when its connection is lost

A turn of `client_listener_thread`, and the client's `process_connection` beside that of
the server on the same input. Both hold the same bytes and deliver the same frames. Where
the server then closes the connection the client returns: its HANGUP events come from
`poll` alone, and no later turn moves the connection.
-/
namespace AcosChat

open Bytes Run

/-! ### The listener's turn -/

/-- What `poll` reports of the client's socket. -/
inductive ClientPoll where
  | failed
  | none
  /-- `POLLHUP` or `POLLERR` -/
  | hangup
  | readable
deriving DecidableEq, Repr

/-- What the client's listener sends. -/
inductive ListenerSent where
  | event (evt : ClientEvent)
  | hangup
  /-- A text for the user, of type `MESSAGE_CLIENT_INTERNAL`. -/
  | internal (text : Block)
deriving DecidableEq, Repr

/-- A turn of `client_listener_thread` with a connected socket, up to `event_loop_iteration`. -/
def clientListenerTurn : Step Connection (ClientPoll × Wire) ListenerSent
  | _, (.failed, _) => some ([.hangup, .internal (ascii "Cannot poll(), please restart client")], none)
  | conn, (.none, _) => some ([], some conn)
  -- The only loss that is reported.
  | _, (.hangup, _) => some ([.hangup, .internal (ascii "Connection lost, please restart client")], none)
  | conn, (.readable, wire) =>
    match clientProcessConnection conn wire with
    | .blocked _ => none
    | .kept conn _ => some ([], some conn)
    | .delivered _ _ (some (events, conn, _)) => some (events.map .event, some conn)
    -- The client has crashed.
    | .delivered _ _ none | .fault => none

/-- `client_listener_init` -/
def clientListenerInit : Connection := newConnection (-1)

/-! ### The two sides -/

/-- The server's and the client's connection. -/
structure Peers where
  server : Connection
  client : Connection

/-- The header and the body that the two have unpacked. -/
structure Delivery where
  server : Block × Block
  client : Block × Block
deriving DecidableEq, Repr

/-- Both are called on the same input. A frame of the server's is handled, and its connection
reset, before the next call. -/
def peersStep : Step Peers Wire Delivery := fun peers wire =>
  match processConnection peers.server wire, clientProcessConnection peers.client wire with
  | .kept server _, .kept client _ => some ([], some ⟨server, client⟩)
  | .dispatched server _, .delivered header body (some (_, client, _)) =>
    some ([⟨(server.header.getD [], server.body.getD []), (header, body)⟩],
      some ⟨{ resetConnection server with inWorker := false }, client⟩)
  | _, _ => none

def Peers.init (sockid : Int32) : Peers := ⟨newConnection sockid, clientListenerInit⟩

/-! ### What the two share -/

/-- The connection under another number. -/
def Connection.relabel (conn : Connection) (sockid : Int32) (inWorker : Bool) : Connection :=
  { conn with sockid := sockid, inWorker := inWorker }

def Received.relabel (received : Received) (sockid : Int32) (inWorker : Bool) : Received :=
  match received with
  | .blocked conn => .blocked (conn.relabel sockid inWorker)
  | .unfinished conn wire => .unfinished (conn.relabel sockid inWorker) wire
  | .complete conn wire => .complete (conn.relabel sockid inWorker) wire
  | .lost conn wire why => .lost (conn.relabel sockid inWorker) wire why
  | .fault => .fault

section Relabel

variable (conn : Connection) (sockid : Int32) (inWorker : Bool)

theorem checkComplete_relabel (wire : Wire) :
    checkComplete (conn.relabel sockid inWorker) wire =
      (checkComplete conn wire).relabel sockid inWorker := by
  obtain ⟨sockid', header, block, read, expected, inWorker'⟩ := conn
  dsimp only [Connection.relabel]
  simp only [checkComplete]
  by_cases complete : read = expected
  · simp only [if_pos complete]
    rfl
  · simp only [if_neg complete]
    rfl

theorem receiveBody_relabel (body : Block) (wire : Wire) :
    receiveBody (conn.relabel sockid inWorker) body wire =
      (receiveBody conn body wire).relabel sockid inWorker := by
  obtain ⟨sockid', header, block, read, expected, inWorker'⟩ := conn
  dsimp only [Connection.relabel]
  simp only [receiveBody]
  cases recv (expected - read) wire with
  | blocks => rfl
  | failed => rfl
  | data bytes wire =>
    dsimp only
    cases store body (read - msgHeaderSize) bytes with
    | none => rfl
    | some body =>
      exact checkComplete_relabel ⟨sockid', header, some body, read + bytes.length, expected, inWorker'⟩
        sockid inWorker wire

theorem receiveRest_relabel (count : Nat) (wire : Wire) :
    receiveRest (conn.relabel sockid inWorker) count wire =
      (receiveRest conn count wire).relabel sockid inWorker := by
  obtain ⟨sockid', header, block, read, expected, inWorker'⟩ := conn
  dsimp only [Connection.relabel]
  simp only [receiveRest]
  by_cases short : read + count < (msgHeaderSize : Int)
  · simp only [if_pos short]
    rfl
  simp only [if_neg short]
  cases header.bind announcedLength with
  | none => rfl
  | some bodySize =>
    dsimp only
    by_cases negative : bodySize < 0
    · simp only [if_pos negative]
      rfl
    by_cases empty : bodySize = 0
    · simp only [if_neg negative, if_pos empty]
      exact checkComplete_relabel ⟨sockid', header, block, read + count, expected, inWorker'⟩
        sockid inWorker wire
    simp only [if_neg negative, if_neg empty]
    cases block with
    | some body =>
      exact receiveBody_relabel ⟨sockid', header, some body, read + count, expected, inWorker'⟩
        sockid inWorker body wire
    | none =>
      cases malloc wire bodySize.toNat with
      | none => rfl
      | some body =>
        dsimp only
        by_cases past : 2147483647 < expected + bodySize
        · simp only [if_pos past]
          rfl
        · simp only [if_neg past]
          exact receiveBody_relabel
            ⟨sockid', header, some body, read + count, expected + bodySize, inWorker'⟩
            sockid inWorker body wire

theorem receiveHeader_relabel (header : Block) (wire : Wire) :
    receiveHeader (conn.relabel sockid inWorker) header wire =
      (receiveHeader conn header wire).relabel sockid inWorker := by
  obtain ⟨sockid', block, body, read, expected, inWorker'⟩ := conn
  dsimp only [Connection.relabel]
  simp only [receiveHeader]
  cases recv (expected - read) wire with
  | blocks => rfl
  | failed => rfl
  | data bytes wire =>
    dsimp only
    cases store header read bytes with
    | none => rfl
    | some header =>
      exact receiveRest_relabel ⟨sockid', some header, body, read, expected, inWorker'⟩
        sockid inWorker bytes.length wire

/-- Nothing depends on whose connection it is. -/
theorem receive_relabel (wire : Wire) :
    receive (conn.relabel sockid inWorker) wire = (receive conn wire).relabel sockid inWorker := by
  obtain ⟨sockid', header, body, read, expected, inWorker'⟩ := conn
  dsimp only [Connection.relabel]
  simp only [receive]
  by_cases short : read < (msgHeaderSize : Int)
  · simp only [if_pos short]
    cases header with
    | some header =>
      exact receiveHeader_relabel ⟨sockid', some header, body, read, expected, inWorker'⟩
        sockid inWorker header wire
    | none =>
      dsimp only
      cases malloc wire msgHeaderSize with
      | none => rfl
      | some header =>
        exact receiveHeader_relabel ⟨sockid', some header, body, read, expected, inWorker'⟩
          sockid inWorker header wire
  · simp only [if_neg short]
    exact receiveRest_relabel ⟨sockid', header, body, read, expected, inWorker'⟩ sockid inWorker 0 wire

end Relabel

/-! ### Two sides of one stream -/

/-- The two connections hold the same bytes. -/
def Peers.Alike (peers : Peers) : Prop :=
  ∃ sockid inWorker, peers.server = peers.client.relabel sockid inWorker

theorem Peers.alike_init (sockid : Int32) : (Peers.init sockid).Alike := ⟨sockid, false, rfl⟩

/-- One call on each side: both go on, or both have a frame complete, which is the same. -/
theorem Peers.Alike.step {peers peers' : Peers} (alike : peers.Alike) {wire : Wire}
    {did : List Delivery} (taken : peersStep peers wire = some (did, some peers')) :
    peers'.Alike ∧ ∀ delivery ∈ did, delivery.server = delivery.client := by
  obtain ⟨sockid, inWorker, same⟩ := alike
  have received := receive_relabel peers.client sockid inWorker wire
  rw [← same] at received
  simp only [peersStep, processConnection, clientProcessConnection, received] at taken
  cases ending : receive peers.client wire with
  | blocked conn =>
    rw [ending] at taken
    cases taken
  | unfinished conn wire =>
    rw [ending] at taken
    cases taken
    exact ⟨⟨sockid, inWorker, rfl⟩, nofun⟩
  | complete conn wire =>
    -- the frame does not depend on the socket or the flag, in which the two may differ
    rw [ending] at taken
    dsimp only [Received.relabel] at taken
    cases events : deliverMessage (conn.header.getD []) (conn.body.getD []) with
    | none =>
      rw [events] at taken
      cases taken
    | some events' =>
      rw [events] at taken
      cases taken
      refine ⟨⟨sockid, false, rfl⟩, ?_⟩
      intro delivery member
      cases List.mem_singleton.mp member
      rfl
  | lost conn wire why =>
    rw [ending] at taken
    cases why <;> cases taken
  | fault =>
    rw [ending] at taken
    cases taken

theorem peers_alike {sockid : Int32} {trace : List Delivery} {peers : Peers}
    (ran : Ran peersStep (fun _ _ => True) (.init sockid) trace peers) :
    peers.Alike ∧ ∀ delivery ∈ trace, delivery.server = delivery.client := by
  induction ran with
  | start => exact ⟨Peers.alike_init sockid, nofun⟩
  | step _ _ taken before =>
    obtain ⟨alike, frames⟩ := before
    obtain ⟨alike', same⟩ := alike.step taken
    refine ⟨alike', fun delivery member => ?_⟩
    rcases List.mem_append.mp member with old | new
    · exact frames delivery old
    · exact same delivery new

/-! ### Lost connections -/

/-- The peer has closed the stream, or there is an error, and nothing is left to read. -/
def Ended (wire : Wire) : Prop := wire.pending = [] ∧ wire.ending ≠ .quiet

theorem recv_ended {wire : Wire} (ended : Ended wire) (len : Int) : recv len wire = .failed := by
  unfold recv
  split
  next => rfl
  rw [if_pos ended.1]
  cases ending : wire.ending with
  | quiet => exact absurd ending ended.2
  | eof => rfl
  | error => rfl

/-- Where a connection is that has not been received into. -/
inductive Stuck (conn : Connection) : Loss → Prop
  | header (header : Block) (there : conn.header = some header)
      (short : conn.bytesRead < (msgHeaderSize : Int)) : Stuck conn .badCount
  | body (bodySize : Int) (body : Block) (complete : ¬conn.bytesRead < (msgHeaderSize : Int))
      (announced : conn.header.bind announcedLength = some bodySize) (positive : 0 < bodySize)
      (there : conn.body = some body) : Stuck conn .badCount
  | negative (bodySize : Int) (complete : ¬conn.bytesRead < (msgHeaderSize : Int))
      (announced : conn.header.bind announcedLength = some bodySize) (negative : bodySize < 0) :
      Stuck conn .corrupted

theorem stuck_of_receiveBody {conn conn' : Connection} {body : Block} {wire wire' : Wire} {why : Loss}
    {bodySize : Int} (lost : receiveBody conn body wire = .lost conn' wire' why)
    (complete : ¬conn.bytesRead < (msgHeaderSize : Int))
    (announced : conn.header.bind announcedLength = some bodySize) (positive : 0 < bodySize)
    (there : conn.body = some body) : Stuck conn' why := by
  unfold receiveBody at lost
  split at lost
  next => cases lost
  next =>
    cases lost
    exact .body bodySize body complete announced positive there
  next =>
    split at lost
    next => cases lost
    next =>
      unfold checkComplete at lost
      split at lost <;> cases lost

theorem stuck_of_receiveRest {conn conn' : Connection} {count : Nat} {wire wire' : Wire} {why : Loss}
    (lost : receiveRest conn count wire = .lost conn' wire' why) (received : why ≠ .badMalloc) :
    Stuck conn' why := by
  simp only [receiveRest] at lost
  by_cases short : conn.bytesRead + count < (msgHeaderSize : Int)
  · rw [if_pos short] at lost
    cases lost
  rw [if_neg short] at lost
  split at lost
  next => cases lost
  next bodySize announced =>
    by_cases negative : bodySize < 0
    · rw [if_pos negative] at lost
      cases lost
      exact .negative bodySize short announced negative
    by_cases empty : bodySize = 0
    · rw [if_neg negative, if_pos empty, checkComplete] at lost
      split at lost <;> cases lost
    rw [if_neg negative, if_neg empty] at lost
    have positive : 0 < bodySize := by omega
    split at lost
    next body there => exact stuck_of_receiveBody lost short announced positive there
    next =>
      split at lost
      next =>
        cases lost
        exact absurd rfl received
      next body _ =>
        split at lost
        next => cases lost
        next => exact stuck_of_receiveBody lost short announced positive rfl

theorem stuck_of_receiveHeader {conn conn' : Connection} {header : Block} {wire wire' : Wire}
    {why : Loss} (lost : receiveHeader conn header wire = .lost conn' wire' why)
    (there : conn.header = some header) (short : conn.bytesRead < (msgHeaderSize : Int))
    (received : why ≠ .badMalloc) :
    Stuck conn' why := by
  unfold receiveHeader at lost
  split at lost
  next => cases lost
  next =>
    cases lost
    exact .header header there short
  next =>
    split at lost
    next => cases lost
    next => exact stuck_of_receiveRest lost received

/-- The connection that the client keeps is in the middle of a frame, or behind a header
with a negative length. -/
theorem stuck_of_receive {conn conn' : Connection} {wire wire' : Wire} {why : Loss}
    (lost : receive conn wire = .lost conn' wire' why) (received : why ≠ .badMalloc) :
    Stuck conn' why := by
  unfold receive at lost
  split at lost
  next short =>
    split at lost
    next header there => exact stuck_of_receiveHeader lost there short received
    next =>
      split at lost
      next =>
        cases lost
        exact absurd rfl received
      next header _ => exact stuck_of_receiveHeader lost rfl short received
  next => exact stuck_of_receiveRest lost received

/-- A later call on it changes nothing. -/
theorem Stuck.receive_eq {conn : Connection} {why : Loss} (stuck : Stuck conn why) {later : Wire}
    (hopeless : why = .corrupted ∨ Ended later) : receive conn later = .lost conn later why := by
  cases stuck with
  | header header there short =>
    have ended := hopeless.resolve_left nofun
    simp only [receive, if_pos short, there, receiveHeader, recv_ended ended]
  | body bodySize body complete announced positive there =>
    have ended := hopeless.resolve_left nofun
    have counted : conn.bytesRead + (0 : Nat) = conn.bytesRead := by omega
    simp only [receive, if_neg complete, receiveRest, counted, announced,
      if_neg (show ¬bodySize < 0 by omega), if_neg (show ¬bodySize = 0 by omega), there, receiveBody,
      recv_ended ended]
    rw [← there]
  | negative bodySize complete announced negative =>
    have counted : conn.bytesRead + (0 : Nat) = conn.bytesRead := by omega
    simp only [receive, if_neg complete, receiveRest, counted, announced, if_pos negative]

/-- Such turns send nothing and leave the connection as it is. -/
theorem Stuck.replay_eq {conn : Connection} {why : Loss} (stuck : Stuck conn why)
    (turns : List (ClientPoll × Wire)) (hopeless : ∀ turn ∈ turns,
      (turn.1 = .none ∨ turn.1 = .readable) ∧ (why = .corrupted ∨ Ended turn.2)) :
    replay clientListenerTurn conn turns = some ([], conn) := by
  induction turns with
  | nil => rfl
  | cons turn turns ih =>
    obtain ⟨polled, wire⟩ := turn
    obtain ⟨result, never⟩ := hopeless (polled, wire) (by simp)
    have rest := ih fun turn member => hopeless turn (List.mem_cons_of_mem _ member)
    have taken : clientListenerTurn conn (polled, wire) = some ([], some conn) := by
      rcases result with none | readable
      · dsimp only at none
        rw [none, clientListenerTurn]
      · dsimp only at readable
        have received : why ≠ .badMalloc := by
          rintro rfl
          cases stuck
        rw [readable, clientListenerTurn, clientProcessConnection, stuck.receive_eq never]
        cases why with
        | badMalloc => exact absurd rfl received
        | badCount | corrupted => rfl
    rw [replay, taken]
    dsimp only
    rw [rest]
    rfl

/-- Where the server closes the connection, after the same frames, the client's turn sends no
HANGUP event and keeps the connection; while `poll` reports the socket as before, no later
turn moves it, whatever comes after a negative length, and as long as nothing comes
otherwise. -/
theorem client_keeps_lost (sockid : Int32) {trace : List Delivery} {peers : Peers}
    (ran : Ran peersStep (fun _ _ => True) (.init sockid) trace peers) {wire : Wire} {why : Loss}
    (closed : processConnection peers.server wire = .closed why) (received : why ≠ .badMalloc) :
    (∀ delivery ∈ trace, delivery.server = delivery.client) ∧
    ∃ conn, clientListenerTurn peers.client (.readable, wire) = some ([], some conn) ∧
      ∀ turns : List (ClientPoll × Wire), (∀ turn ∈ turns,
        (turn.1 = .none ∨ turn.1 = .readable) ∧ (why = .corrupted ∨ Ended turn.2)) →
      replay clientListenerTurn conn turns = some ([], conn) := by
  obtain ⟨⟨sockid', inWorker, same⟩, frames⟩ := peers_alike ran
  refine ⟨frames, ?_⟩
  -- The client's call is lost in the same way as the server's.
  have alike := receive_relabel peers.client sockid' inWorker wire
  rw [← same] at alike
  unfold processConnection at closed
  cases ending : receive peers.client wire with
  | blocked | unfinished | complete | fault =>
    rw [alike, ending] at closed
    cases closed
  | lost conn wire' why' =>
    rw [alike, ending] at closed
    cases closed
    refine ⟨conn, ?_, (stuck_of_receive ending received).replay_eq⟩
    rw [clientListenerTurn, clientProcessConnection, ending]
    cases why with
    | badMalloc => exact absurd rfl received
    | badCount | corrupted => rfl

/-- The peer closes the stream. -/
def closedStream : Wire := ⟨[], [], .eof, fun _ => true⟩

/-- A STATUS frame arrives, and two bytes of the next one. -/
def statusThenPart : List Wire :=
  [wireOf [115, 0, 0, 0, 8, 0, 0, 0, 4, 0, 0, 0, 0], wireOf [114, 0]]

/-- The stream ends within the second frame: both have delivered the first, and the client stays. -/
theorem client_keeps_lost_eof : ∃ trace peers,
    replay peersStep (.init 5) statusThenPart = some (trace, peers) ∧ trace.length = 1 ∧
    (∀ delivery ∈ trace, delivery.server = delivery.client) ∧
    processConnection peers.server closedStream = .closed .badCount ∧
    ∃ conn, clientListenerTurn peers.client (.readable, closedStream) = some ([], some conn) ∧
      replay clientListenerTurn conn [(.readable, closedStream)] = some ([], conn) := by
  have ran : ∃ trace peers, replay peersStep (.init 5) statusThenPart = some (trace, peers) ∧
      trace.length = 1 ∧ processConnection peers.server closedStream = .closed .badCount :=
    ⟨_, _, rfl, rfl, rfl⟩
  obtain ⟨trace, peers, replayed, one, closed⟩ := ran
  obtain ⟨same, conn, turn, later⟩ := client_keeps_lost 5
    (ran_of_replay (meets_of_forall (fun _ _ => trivial) _ _) replayed) closed (by decide)
  refine ⟨trace, peers, replayed, one, same, closed, conn, turn, later _ ?_⟩
  intro turn member
  rw [List.mem_singleton.mp member]
  exact ⟨.inr rfl, .inr ⟨rfl, by decide⟩⟩

/-- At the end of the stream, before the first byte of a frame, the client reports nothing. -/
theorem client_ignores_eof : ¬∀ (sockid : Int32) (trace : List Delivery) (peers : Peers),
    Ran peersStep (fun _ _ => True) (.init sockid) trace peers →
    ∀ wire why, processConnection peers.server wire = .closed why → why ≠ .badMalloc →
    ∃ sent, clientListenerTurn peers.client (.readable, wire) = some (sent, none) ∧ .hangup ∈ sent := by
  intro claim
  obtain ⟨sent, turn, _⟩ := claim 5 [] (.init 5) .start closedStream .badCount rfl (by decide)
  cases turn

end AcosChat

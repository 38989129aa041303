import AcosChat.Client.Steps
import AcosChat.Server.Secrecy

/-!
# The server and its clients

Any number of clients and the server, with the sockets between them. The bytes that the server
writes to a client wait on their way, and the client's listener reads them in pieces of any size;
when the server has closed the connection and all is read, it finds their end. Of what a client
writes the server takes one whole frame after the other, unless its length is more than an `int`
can count: the listener polls a connection again when the event and the job of its last frame are
deleted, and no deleter is overtaken. Others that are no such clients may connect, too, and send
what frames they like. The network loses nothing, and there is memory for every frame.
-/
namespace AcosChat

open Store Run Bytes

/-! ### The state -/

structure Peer where
  /-- Nothing is left of a client that has crashed. -/
  client : Option Client
  /-- Its connection at the server, when that has accepted it. -/
  conn : Option Nat
  /-- What the client has written and the server not taken, one package after the other. -/
  up : List Block
  /-- What the server has written and the client not read. -/
  down : Block

structure Talk where
  server : Chat
  peers : List Peer

inductive TalkSighting where
  | client (i : Nat) (sight : ClientSighting)
  | server (sight : ChatSighting)
  /-- The server has accepted the connection of a client. -/
  | accepted (i c : Nat)
  /-- The server takes a package of a client. -/
  | taken (i : Nat) (package : Block)
deriving DecidableEq, Repr

inductive TalkAction where
  /-- A step of a client that reads nothing. -/
  | client (i : Nat) (action : ClientAction)
  /-- The client's listener finds the socket readable: so many bytes are there, and `recv` returns
  them in such pieces. -/
  | read (i count : Nat) (cuts : List Nat) (tstamp : UInt64)
  /-- It finds the end of what the server has sent before it closed the connection. -/
  | eof (i : Nat) (tstamp : UInt64)
  /-- `accept_connection` for a client. -/
  | accept (i : Nat) (sockid : Int32)
  /-- A worker handles the next message of a client. -/
  | handle (i : Nat) (env : Env)
  /-- `accept_connection` for somebody else. -/
  | acceptOther (sockid : Int32)
  /-- A worker handles a frame of somebody else, whatever message is in it; one that is not unpacked
  only brings its sender a status. -/
  | handleOther (c : Nat) (package : Block) (env : Env)
  | close (sockid : Int32) (env : Env)
  | broadcast (k : Nat) (noise : List Noise)
  | send (k : Nat)

/-! ### What is on its way -/

/-- The bytes that a client writes. -/
def ClientSighting.package : ClientSighting → Option Block
  | .wrote _ msg => packMessage msg
  | .closed _ buf => some buf
  | _ => none

/-- The frame that these bytes are, if its length is one that the server can count. -/
def asFrame (package : Block) : Option Frame :=
  let frame : Frame := ⟨package.headD 0, package.drop msgHeaderSize⟩
  if package = frame.bytes ∧ frame.Countable then some frame else none

/-- `unpack_message_2(header, body)` in `input_msg_event_handler`, unless it returns NULL. -/
def unpackPackage (package : Block) : Option Message := do
  let frame ← asFrame package
  match unpackMessage2 frame.header frame.body with
  | .done msg => msg
  | .fault | .running => none

/-- What a frame adds to the bytes for its client. -/
def frameBytes (msg : Message) : Block := (packMessage msg).getD []

/-- What the server has sent reaches those that it is for. -/
def Peer.hear (did : List ChatSighting) (peer : Peer) : Peer :=
  match peer.conn with
  | none => peer
  | some c => { peer with down := peer.down ++ (framesTo did c).flatMap frameBytes }

/-- A socket on which these bytes are pending, and nothing fails. -/
def quietWire (pending : Block) (cuts : List Nat) : Wire := ⟨pending, cuts, .quiet, fun _ => true⟩

/-- A socket that the other side has closed, with all read. -/
def endedWire : Wire := ⟨[], [], .eof, fun _ => true⟩

/-- What `process_connection` leaves of the pending bytes. -/
def unread (conn : Connection) (wire : Wire) : Block :=
  match clientProcessConnection conn wire with
  | .kept _ rest | .delivered _ _ (some (_, _, rest)) => rest.pending
  | .delivered _ _ none | .blocked _ | .fault => wire.pending

/-! ### The steps -/

/-- Reading is a step of its own. -/
def ClientAction.reads : ClientAction → Bool
  | .listen .readable _ _ => true
  | _ => false

namespace Talk

variable (md5hex : Block → Block)

/-- There is the server with its table, and none of the clients has connected. -/
def init (db : Db) (clients : Nat) : Talk :=
  ⟨Chat.init db, List.replicate clients ⟨some Client.init, none, [], []⟩⟩

/-- A step of the server, and what it sends. -/
def serve (w : Talk) (action : ChatAction) (peers : List Peer) : Option (List TalkSighting × Option Talk) :=
  (chatStep md5hex w.server action).map fun (did, rest) =>
    (did.map .server, rest.map fun server => ⟨server, peers.map (Peer.hear did)⟩)

/-- A step of a client, and what it writes. -/
def act (w : Talk) (i : Nat) (peer : Peer) (client : Client) (action : ClientAction) (down : Block) :
    Option (List TalkSighting × Option Talk) :=
  (Client.step client action).map fun (did, rest) =>
    let up := peer.up ++ did.filterMap ClientSighting.package
    (did.map (.client i), some ⟨w.server, w.peers.set i ⟨rest, peer.conn, up, down⟩⟩)

def step : Step Talk TalkAction TalkSighting
  | w, .client i action => do
    let peer ← w.peers[i]?
    let client ← peer.client
    if action.reads then none else w.act i peer client action peer.down
  | w, .read i count cuts tstamp => do
    let peer ← w.peers[i]?
    let client ← peer.client
    let wire := quietWire (peer.down.take count) cuts
    -- poll reports what can be read, of a socket that is there.
    if wire.pending = [] ∨ client.sockid = -1 then none
    else w.act i peer client (.listen .readable wire tstamp) (unread client.conn wire ++ peer.down.drop count)
  | w, .eof i tstamp => do
    let peer ← w.peers[i]?
    let client ← peer.client
    let c ← peer.conn
    if peer.down ≠ [] ∨ w.server.core.conns.read c ≠ none ∨ client.sockid = -1 then none
    else w.act i peer client (.listen .readable endedWire tstamp) []
  | w, .accept i sockid => do
    let peer ← w.peers[i]?
    let client ← peer.client
    if client.sockid = -1 ∨ peer.conn ≠ none ∨ ¬sockid > 0 then none
    else
      let c := w.server.core.conns.next
      let (did, rest) ← w.serve md5hex (.session (.accept sockid)) (w.peers.set i { peer with conn := some c })
      some (.accepted i c :: did, rest)
  | w, .handle i env => do
    let peer ← w.peers[i]?
    let c ← peer.conn
    match peer.up with
    | [] => none
    | package :: up => do
      let msg ← unpackPackage package
      let (did, rest) ← w.serve md5hex (.session (.handle c msg env)) (w.peers.set i { peer with up := up })
      some (.taken i package :: did, rest)
  | w, .acceptOther sockid => w.serve md5hex (.session (.accept sockid)) w.peers
  | w, .handleOther c package env => do
    let msg ← unpackPackage package
    if ∃ peer ∈ w.peers, peer.conn = some c then none
    else w.serve md5hex (.session (.handle c msg env)) w.peers
  | w, .close sockid env => w.serve md5hex (.session (.close sockid env)) w.peers
  | w, .broadcast k noise => w.serve md5hex (.broadcast k noise) w.peers
  | w, .send k => w.serve md5hex (.send k) w.peers

end Talk

/-! ### What is seen of each -/

def serverTrace (trace : List TalkSighting) : List ChatSighting :=
  trace.filterMap fun
    | .server sight => some sight
    | _ => none

def clientTrace (i : Nat) (trace : List TalkSighting) : List ClientSighting :=
  trace.filterMap fun
    | .client j sight => if j = i then some sight else none
    | _ => none

/-- The packages that the server has taken of a client. -/
def takenFrom (i : Nat) (trace : List TalkSighting) : List Block :=
  trace.filterMap fun
    | .taken j package => if j = i then some package else none
    | _ => none

/-! ### Sizes -/

/-- The length of the frame is one that an `int` can count. -/
def Message.Short (msg : Message) : Prop := msgHeaderSize + bodyLength msg.tokens < 2147483648

instance (msg : Message) : Decidable msg.Short :=
  inferInstanceAs (Decidable (msgHeaderSize + bodyLength msg.tokens < 2147483648))

/-- What the two sides send can be counted. -/
def TalkSighting.Short : TalkSighting → Prop
  | .client _ (.wrote _ msg) | .server (.frame _ msg) => msg.Short
  | _ => True

instance : DecidablePred TalkSighting.Short
  | .client _ (.wrote _ msg) | .server (.frame _ msg) => inferInstanceAs (Decidable msg.Short)
  | .client _ (.typed _) | .client _ (.received _) | .client _ (.took _) | .client _ (.refused _)
  | .client _ (.unsent _) | .client _ (.asked _ _) | .client _ (.printed _ _ _ _) | .client _ (.closed _ _)
  | .client _ .crashed | .server (.observed _) | .accepted _ _ | .taken _ _ => .isTrue trivial

end AcosChat

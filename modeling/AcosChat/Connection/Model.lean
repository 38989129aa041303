import AcosChat.Message.Model

/-!
# Connections and the reassembly of frames

`common/connection.c` and the two `process_connection` functions, that of
`server/listener.c` and that of `client/listener.c`. The kernel and the allocator are
a `Wire`: what `recv` still has to deliver, in which pieces, and which sizes `malloc`
can serve.
-/
namespace AcosChat

open Bytes

/-- `connection_t`; a null buffer is `none`. -/
structure Connection where
  sockid : Int32
  header : Option Block
  body : Option Block
  bytesRead : Int
  bytesExpected : Int
  inWorker : Bool
deriving DecidableEq, Repr

/-- `new_connection` -/
def newConnection (sockid : Int32) : Connection :=
  ⟨sockid, none, none, 0, msgHeaderSize, false⟩

/-- The reset that `input_msg_event_deleter` makes after it freed both buffers. -/
def resetConnection (conn : Connection) : Connection :=
  { conn with header := none, body := none, bytesRead := 0, bytesExpected := msgHeaderSize }

/-! ### The environment -/

/-- What `recv` reports once every pending byte has been received. -/
inductive Ending where
  | quiet
  | eof
  | error
deriving DecidableEq, Repr

structure Wire where
  pending : Block
  /-- The most bytes that the next calls of `recv` return; all there are afterwards. -/
  cuts : List Nat
  ending : Ending
  mallocOk : Nat → Bool

/-- These bytes are there, and nothing else happens. -/
def wireOf (bytes : Block) : Wire := ⟨bytes, [], .quiet, fun _ => true⟩

inductive RecvResult where
  | data (bytes : Block) (wire : Wire)
  /-- A result of 0 or -1. -/
  | failed
  | blocks

/-- `recv(sockid, buf, len, 0)`: between one and `len` bytes while any are pending. -/
def recv (len : Int) (wire : Wire) : RecvResult :=
  -- A `recv` of no bytes returns 0, which reads as an end of file.
  if len = 0 then .failed
  else if wire.pending = [] then
    match wire.ending with
    | .quiet => .blocks
    | .eof | .error => .failed
  else
    let most := min (sizeOfInt len) wire.pending.length
    -- A cut of 0 would be an end of file, so at least one byte is returned.
    let count := match wire.cuts with
      | [] => most
      | cut :: _ => min most (max 1 cut)
    .data (wire.pending.take count)
      { wire with pending := wire.pending.drop count, cuts := wire.cuts.tail }

/-- Zeros stand for the unspecified bytes of a fresh block. -/
def malloc (wire : Wire) (size : Nat) : Option Block :=
  if wire.mallocOk size then some (List.replicate size 0) else none

/-! ### Receiving -/

/-- Why a connection is given up. -/
inductive Loss where
  /-- `recv` returned 0 or -1. -/
  | badCount
  | badMalloc
  /-- The header announces a negative length. -/
  | corrupted
deriving DecidableEq, Repr

/-- How the receiving part of `process_connection` ends. -/
inductive Received where
  /-- The thread sits in `recv`. -/
  | blocked (conn : Connection)
  /-- The frame is not complete yet. -/
  | unfinished (conn : Connection) (wire : Wire)
  | complete (conn : Connection) (wire : Wire)
  | lost (conn : Connection) (wire : Wire) (why : Loss)
  | fault

def checkComplete (conn : Connection) (wire : Wire) : Received :=
  if conn.bytesRead = conn.bytesExpected then .complete conn wire else .unfinished conn wire

/-- `recv` into the body, of which `bytes_read - MSG_HEADER_SIZE` bytes are there. -/
def receiveBody (conn : Connection) (body : Block) (wire : Wire) : Received :=
  match recv (conn.bytesExpected - conn.bytesRead) wire with
  | .blocks => .blocked conn
  | .failed => .lost conn wire .badCount
  | .data bytes wire =>
    match store body (conn.bytesRead - msgHeaderSize) bytes with
    | none => .fault
    | some body =>
      checkComplete { conn with body := some body, bytesRead := conn.bytesRead + bytes.length } wire

/-- From `bytes_read += count` on; a sum beyond `INT_MAX` is undefined. -/
def receiveRest (conn : Connection) (count : Nat) (wire : Wire) : Received :=
  let conn := { conn with bytesRead := conn.bytesRead + count }
  -- The header may come in pieces, over several calls.
  if conn.bytesRead < (msgHeaderSize : Int) then .unfinished conn wire
  else match conn.header.bind announcedLength with
    | none => .fault
    | some bodySize =>
      if bodySize < 0 then .lost conn wire .corrupted
      -- A frame without a body is complete with its header: there is no second recv.
      else if bodySize = 0 then checkComplete conn wire
      else match conn.body with
        -- The block of an earlier call; bytes_expected counts the body already.
        | some body => receiveBody conn body wire
        | none =>
          match malloc wire bodySize.toNat with
          | none => .lost conn wire .badMalloc
          | some body =>
            -- bytes_expected += body_size
            if 2147483647 < conn.bytesExpected + bodySize then .fault
            else
              receiveBody { conn with body := some body,
                                      bytesExpected := conn.bytesExpected + bodySize } body wire

/-- `recv` into the header, then the rest of the function. -/
def receiveHeader (conn : Connection) (header : Block) (wire : Wire) : Received :=
  match recv (conn.bytesExpected - conn.bytesRead) wire with
  | .blocks => .blocked conn
  | .failed => .lost conn wire .badCount
  | .data bytes wire =>
    match store header conn.bytesRead bytes with
    | none => .fault
    | some header => receiveRest { conn with header := some header } bytes.length wire

/-- What the two `process_connection` functions share: everything up to the comparison of
`bytes_read` with `bytes_expected`. -/
def receive (conn : Connection) (wire : Wire) : Received :=
  if conn.bytesRead < msgHeaderSize then
    match conn.header with
    | some header => receiveHeader conn header wire
    | none =>
      match malloc wire msgHeaderSize with
      | none => .lost conn wire .badMalloc
      | some header => receiveHeader { conn with header := some header } header wire
  else receiveRest conn 0 wire

/-! ### The server -/

inductive Processed where
  | blocked (conn : Connection)
  | kept (conn : Connection) (wire : Wire)
  /-- `in_worker` is set and an INPUT_MSG event is sent. -/
  | dispatched (conn : Connection) (wire : Wire)
  /-- `close_connection` is called. -/
  | closed (why : Loss)
  | fault

/-- `process_connection` of `server/listener.c`, on a connection it has found. -/
def processConnection (conn : Connection) (wire : Wire) : Processed :=
  match receive conn wire with
  | .blocked conn => .blocked conn
  | .unfinished conn wire => .kept conn wire
  -- From here on push_back_conn passes the connection over.
  | .complete conn wire => .dispatched { conn with inWorker := true } wire
  | .lost _ _ why => .closed why
  | .fault => .fault

/-! ### The client -/

/-- The events that the client's listener sends. -/
inductive ClientEvent where
  | displayParsedMessage (type : UInt8) (author : Option Block) (text : Block) (tstamp : Nat)
  | kick (reason : Block)
  | list (msg : Message)
  | status (status : Nat)
deriving DecidableEq, Repr

/-- `tokens[i].data.p_str`; there is nothing to read from `tokens->size` on. -/
def tokenPStr (tokens : List Token) (i : Nat) : Option Block :=
  match tokens[i]? with
  | some (.pStr mem) => some mem
  | _ => none

/-- The `switch` of the client's `process_connection`. -/
def interpretMessage (msg : Message) : Option (List ClientEvent) :=
  if msg.msgType = messageServerRegular ∨ msg.msgType = messageServerHistory ∨
      msg.msgType = messageServerMeta then do
    let tstamp ← tokenPStr msg.tokens 0
    let isMeta := msg.msgType = messageServerMeta
    let author ← if isMeta then some none else (do
      let login ← tokenPStr msg.tokens 1
      let author ← pStrToCStr login
      some (some author))
    -- META has no login, so its text comes one token earlier.
    let text ← tokenPStr msg.tokens (if isMeta then 1 else 2)
    let text ← pStrToCStr text
    let word ← load tstamp 4 8
    some [.displayParsedMessage msg.msgType author text (swapBytes 8 (ofLeBytes word))]
  else if msg.msgType = messageServerKick then do
    let reason ← tokenPStr msg.tokens 0
    let reason ← pStrToCStr reason
    some [.kick reason]
  else if msg.msgType = messageServerList then some [.list msg]
  -- A STATUS without a token counts as status 0.
  else if msg.msgType = messageServerStatus then
    if msg.tokens.length > 0 then do
      let status ← tokenPStr msg.tokens 0
      let word ← load status 4 4
      some [.status (swapBytes 4 (ofLeBytes word))]
    else some [.status 0]
  else some []

/-- From `unpack_message_2` on; a null message is dereferenced. -/
def deliverMessage (header body : Block) : Option (List ClientEvent) :=
  match unpackMessage2 header body with
  | .done (some msg) => interpretMessage msg
  | .done none | .fault | .running => none

inductive ClientProcessed where
  | blocked (conn : Connection)
  | kept (conn : Connection) (wire : Wire)
  /-- `unpack_message_2` was called on the two buffers; `none` if the client does not
  survive that, else the events sent and the connection after the reset. -/
  | delivered (header body : Block) (rest : Option (List ClientEvent × Connection × Wire))
  | fault

/-- `process_connection` of `client/listener.c`. It does not check `malloc`, and it
returns where the server closes the connection. -/
def clientProcessConnection (conn : Connection) (wire : Wire) : ClientProcessed :=
  match receive conn wire with
  | .blocked conn => .blocked conn
  | .unfinished conn wire => .kept conn wire
  | .complete conn wire =>
    let header := conn.header.getD []
    let body := conn.body.getD []
    .delivered header body
      ((deliverMessage header body).map fun events => (events, resetConnection conn, wire))
  -- recv writes through the null pointer.
  | .lost _ _ .badMalloc => .fault
  | .lost conn wire _ => .kept conn wire
  | .fault => .fault

end AcosChat

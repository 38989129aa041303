import AcosChat.Connection.Model
import AcosChat.ConnMgr.Model
import AcosChat.Db.Model

/-!
# The handler of a client's message

`process_message_job_handler` of `server/events/process_message_job.c` with the callbacks
that it passes on. What it sends is a list of effects. It is `none` where the handler does
not return: a statement that is never finished, or a crash on a null string.
-/
namespace AcosChat

open Bytes

def ascii (s : String) : Block := s.toList.map fun c => UInt8.ofNat c.toNat

/-- What a handler takes from its environment: `get_tstamp()` and SQLite. -/
structure Env where
  tstamp : UInt64
  script : Script

/-- SQLite answers at once. -/
def Env.calm : Env := ⟨0, fun _ => []⟩

/-- `broadcast_message_event_t` -/
structure Broadcast where
  tstamp : UInt64
  type : UInt8
  login : Option Block
  msg : Block
  uid : Int32
deriving DecidableEq, Repr

/-- What a handler does beyond its own data. -/
inductive Effect where
  /-- `send_message` or `send_status_code` -/
  | sent (sockid : Int32) (msg : Message)
  /-- A LOGIN for which `login_or_register` returned this uid. -/
  | loggedIn (login : Block) (uid : Int32)
  /-- An event for the controller. -/
  | broadcast (evt : Broadcast)
  /-- A CLOSE_CONNECTION event for the listener. -/
  | closeEvent (sockid : Int32)
  /-- `connection_deleter`, on the null pointer if `none`. -/
  | deleted (conn : Option Nat)
deriving DecidableEq, Repr

/-- `send_status_code` -/
def sendStatusCode (sockid : Int32) (status : Nat) : Effect :=
  .sent sockid ⟨messageServerStatus, [.int32 (UInt32.ofNat status)]⟩

/-- A `META` event of the server itself. -/
def metaEvent (tstamp : UInt64) (msg : Block) : Effect :=
  .broadcast ⟨tstamp, messageServerMeta, none, msg, nullUid⟩

/-- `%s`; the C library prints a null string as `(null)`. -/
def showLogin (login : Option Block) : Block := login.getD (ascii "(null)")

/-- `ntohl(*(int *)(p_str->data))` -/
def pStrInt (mem : Block) : Option Int32 := do
  let word ← load mem 4 4
  some (UInt32.ofNat (swapBytes 4 (ofLeBytes word))).toInt32

/-- A C string in memory. -/
def cStr (text : Block) : Token := .cStr (text ++ [0])

/-! ### The callbacks -/

/-- `browse_history_callback` -/
def browseHistoryCallback (noise : List Noise) (sockid : Int32) (db : Db) (row : StoredMessage) :
    Option Effect := do
  let login ← getLoginByUid noise row.uid db
  let login ← login
  some (.sent sockid ⟨messageServerHistory, [.int64 row.tstamp.toUInt64, cStr login, cStr row.msg]⟩)

/-- The two tokens of LIST for a uid. -/
def userTokens (noise : List Noise) (db : Db) (uid : Int32) : Option (List Token) := do
  let login ← getLoginByUid noise uid db
  let login ← login
  some [.int32 uid.toUInt32, cStr login]

/-- `kick_callback` -/
def kickCallback (reason : Block) (key : UInt64) (effects : List Effect) : List Effect :=
  let sockid := intOfWord key
  effects ++ [.sent sockid ⟨messageServerKick, [.pStr reason]⟩, .closeEvent sockid]

/-- `%.*s` of a pascal string; a negative precision reads on to the next NUL, wherever it is. -/
def showReason (reason : Block) : Option Block := do
  let length ← pascalLength reason 0
  if asInt32 length < 0 then none else strndup (reason.drop 4) length

/-! ### The handler -/

/-- What a handler leaves: its effects, the connection manager and the database. -/
abbrev Handled := List Effect × ConnMgr × Db

variable (md5hex : Block → Block) (env : Env) (sockid : Int32) (tokens : List Token)
  (mgr : ConnMgr) (db : Db)

def handleLogin : Option Handled :=
  if tokens.length < 2 then some ([sendStatusCode sockid msgStatusInvalidMsg], mgr, db)
  else do
    let login ← pStrToCStr (← tokenPStr tokens 0)
    let passwd ← pStrToCStr (← tokenPStr tokens 1)
    let (uid, db) ← loginOrRegister md5hex env.script login passwd db
    -- The status is what login_or_register has negated.
    if uid < 0 then some ([sendStatusCode sockid (-uid).toUInt32.toNat], mgr, db)
    else
      -- The sessions are counted before the socket is one of them.
      let sessions := mgr.getNumberOfSessions uid
      let mgr := mgr.addUid uid
      let mgr := mgr.connectSidUid sockid uid
      let announced :=
        if sessions = 0 then
          [metaEvent env.tstamp (ascii "User '" ++ login ++ ascii "' has logged in")]
        else []
      some ([.loggedIn login uid, sendStatusCode sockid msgStatusOk] ++ announced, mgr, db)

def handleRegular : Option Handled :=
  let uid := mgr.getUid sockid
  if uid = nullUid then some ([sendStatusCode sockid msgStatusUnauthorized], mgr, db)
  else if tokens.length < 1 then some ([sendStatusCode sockid msgStatusInvalidMsg], mgr, db)
  else do
    let login ← getLoginByUid (env.script 0) uid db
    let msg ← pStrToCStr (← tokenPStr tokens 0)
    some ([.broadcast ⟨env.tstamp, messageServerRegular, login, msg, uid⟩], mgr, db)

/-- `tokens->size < least || tokens[0].data.p_str->length != 4` -/
def notAnInt (least : Nat) : Option Bool :=
  if tokens.length < least then some true
  else do
    let length ← pascalLength (← tokenPStr tokens 0) 0
    some (length ≠ 4)

def handleHistory : Option Handled := do
  if ← notAnInt tokens 1 then
    some ([sendStatusCode sockid msgStatusInvalidMsg], mgr, db)
  else
    let cnt ← pStrInt (← tokenPStr tokens 0)
    let rows ← browseHistory (env.script 0) cnt.toInt db
    -- The callback sends each row by itself; statement 0 was the query.
    let sent ← (rows.zipIdx 1).mapM fun (row, i) =>
      browseHistoryCallback (env.script i) sockid db row
    some (sent, mgr, db)

def handleList : Option Handled := do
  let users ← userList mgr
  let tokens ← users.zipIdx.mapM fun (uid, i) => userTokens (env.script i) db uid
  some ([.sent sockid ⟨messageServerList, tokens.flatten⟩], mgr, db)

def handleKick : Option Handled :=
  if mgr.getUid sockid ≠ rootUid then some ([sendStatusCode sockid msgStatusAccessError], mgr, db)
  else do
    if ← notAnInt tokens 2 then
      some ([sendStatusCode sockid msgStatusInvalidMsg], mgr, db)
    else
      let kuid ← pStrInt (← tokenPStr tokens 0)
      if mgr.getNumberOfSessions kuid ≤ 0 then
        some ([sendStatusCode sockid msgStatusUnauthorized], mgr, db)
      else
        let reason ← tokenPStr tokens 1
        -- Every session gets a KICK frame and a CLOSE_CONNECTION event of its own.
        let kicked := mgr.forallUid kuid (kickCallback reason) []
        let login ← getLoginByUid (env.script 0) kuid db
        let shown ← showReason reason
        some (kicked ++ [metaEvent env.tstamp
          (ascii "User '" ++ showLogin login ++ ascii "' was kicked, reason: " ++ shown)], mgr, db)

/-- `process_message_job_handler`; of the connection it reads the socket only. -/
def processMessageJobHandler (msg : Message) : Option Handled :=
  if msg.msgType = messageClientLogin then handleLogin md5hex env sockid msg.tokens mgr db
  else if msg.msgType = messageClientLogout then some ([.closeEvent sockid], mgr, db)
  else if msg.msgType = messageClientRegular then handleRegular env sockid msg.tokens mgr db
  else if msg.msgType = messageClientHistory then handleHistory env sockid msg.tokens mgr db
  else if msg.msgType = messageClientList then handleList env sockid mgr db
  else if msg.msgType = messageClientKick then handleKick env sockid msg.tokens mgr db
  else some ([sendStatusCode sockid msgStatusInvalidType], mgr, db)

end AcosChat

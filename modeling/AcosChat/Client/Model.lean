import AcosChat.Client.Listener
import AcosChat.Client.Messages
import AcosChat.Client.StrStrip
import AcosChat.Lib.Flow
import AcosChat.Lib.Store

/-!
# The client

The threads of the client: the GUI of `client/gui.c` with its dialogs, the controller of
`client/controller.c`, the listener, and `main`. A step is a call that a handler makes, or what a
thread does up to the first of these calls; between two steps of a thread the others may run. The
three event loops are queues.
-/
namespace AcosChat

open Store Run Bytes

/-! ### The C library -/

/-- `isspace` -/
def isSpace (byte : UInt8) : Bool := byte = 32 ∨ (9 ≤ byte ∧ byte ≤ 13)

def isDigit (byte : UInt8) : Bool := 48 ≤ byte ∧ byte ≤ 57

/-- `(int) strtol(str, NULL, 10)`, with a `long` of 64 bits. -/
def atoi (str : Block) : Int32 :=
  let (negative, rest) := match str.dropWhile isSpace with
    | 45 :: rest => (true, rest)
    | 43 :: rest => (false, rest)
    | rest => (false, rest)
  let value : Nat := (rest.takeWhile isDigit).foldl (fun value digit => 10 * value + (digit.toNat - 48)) 0
  Int32.ofInt (max (-9223372036854775808) (min 9223372036854775807 (if negative then -value else value)))

/-- What the network answers. -/
structure Network where
  socket : Int32
  gethostbyname : Block → Option UInt32
  /-- `connect` to this address and port returns 0. -/
  connect : UInt32 → UInt16 → Bool

/-! ### Events -/

/-- A `readinput_event_t`, by the callbacks that it names, with the pair that is its `env`. -/
inductive Dialog where
  | serverAddr
  | username (env : Nat)
  | password (env : Nat)
  | kickUid
  | kickReason (env : Nat)
deriving DecidableEq, Repr

def Dialog.prompt : Dialog → Block
  | .serverAddr => ascii "Enter server address (specify port if it's not 1337):"
  | .username _ => ascii "Enter username:"
  | .password _ => ascii "Enter password:"
  | .kickUid => ascii "Enter UID:"
  | .kickReason _ => ascii "Enter kicking reason:"

def Dialog.passwd : Dialog → Bool
  | .password _ => true
  | _ => false

/-- The events of the GUI's loop. -/
inductive GuiEvent where
  | displayParsedMessage (type : UInt8) (author : Option Block) (text : Block) (tstamp : Nat)
  | readinput (dialog : Dialog)
deriving DecidableEq, Repr

/-- The events of the controller's loop. -/
inductive ControlEvent where
  | exit
  | sendMessageToServer (text : Block)
  | hangup
  | kick (reason : Block)
  | list (msg : Message)
  | status (status : Int32)
deriving DecidableEq, Repr

/-- The calls of the handlers. -/
inductive ClientEffect where
  /-- `send_event` to the controller. -/
  | toController (evt : ControlEvent)
  /-- `send_urgent_event` of `EXIT_EVT` to the controller. -/
  | exitController
  /-- `send_event` to the GUI. -/
  | toGui (evt : GuiEvent)
  /-- `send_message` to the controller's socket. -/
  | write (msg : Message)
deriving DecidableEq, Repr

/-- A text of the client itself. -/
def internalMessage (text : Block) (tstamp : UInt64) : ClientEffect :=
  .toGui (.displayParsedMessage messageClientInternal none text tstamp.toNat)

/-! ### The pairs of the dialogs -/

/-- The second component of each `pair_t`; the first is always the data of the client. -/
abbrev Pairs := Store (Option Block)

/-- What a callback leaves: its calls, `sockid` and the pairs. -/
abbrev CalledBack := List ClientEffect × Int32 × Pairs

section Callbacks

variable (net : Network) (tstamp : UInt64) (str : Block) (env : Nat) (sockid : Int32) (pairs : Pairs)

/-- `connect_to_server` -/
def connectToServer (name : Block) (port : Int32) : Option Int32 :=
  if net.socket < 0 then none
  else match net.gethostbyname name with
    | none => none
    | some addr => if net.connect addr port.toUInt32.toUInt16 then some net.socket else none

/-- `get_server_addr_callback_failure` -/
def getServerAddrCallbackFailure : List ClientEffect :=
  [internalMessage (ascii "Cannot connect to server, please restart client") tstamp, .exitController]

/-- The name and the port of an address. -/
def splitAddr (str : Block) : Block × Int32 :=
  match str.dropWhile (· ≠ 58) with
  | [] => (str, 1337)
  | _ :: port => (str.takeWhile (· ≠ 58), atoi port)

/-- `get_server_addr_callback_success` -/
def getServerAddrCallbackSuccess : CalledBack :=
  let (name, port) := splitAddr str
  match connectToServer net name port with
  | none => (getServerAddrCallbackFailure tstamp, sockid, pairs)
  | some sockid =>
    let (p, pairs) := pairs.alloc none
    ([.toGui (.readinput (.username p))], sockid, pairs)

/-- `login_callback_failure` -/
def loginCallbackFailure : Option (List ClientEffect × Pairs) :=
  (pairs.free env).map fun pairs =>
    ([internalMessage (ascii "Cannot login, please restart client") tstamp, .exitController], pairs)

/-- `get_username_callback_success` -/
def getUsernameCallbackSuccess : Option (List ClientEffect × Pairs) :=
  (pairs.modify env fun _ => some str).map fun pairs => ([.toGui (.readinput (.password env))], pairs)

/-- `login_callback_success`; a null login is packed. -/
def passwordCallbackSuccess : Option (List ClientEffect × Pairs) := do
  let login ← ← pairs.read env
  let pairs ← pairs.free env
  some ([.write (loginCallbackSuccess login str)], pairs)

/-- `get_kick_uid_callback` -/
def getKickUidCallback : List ClientEffect × Pairs :=
  let (p, pairs) := pairs.alloc (some str)
  ([.toGui (.readinput (.kickReason p))], pairs)

/-- `get_kick_reason_success` -/
def kickReasonCallbackSuccess : Option (List ClientEffect × Pairs) := do
  let uidStr ← ← pairs.read env
  let pairs ← pairs.free env
  some ([.write (getKickReasonSuccess (atoi uidStr) str)], pairs)

/-- `get_kick_reason_failure` -/
def getKickReasonFailure : Option (List ClientEffect × Pairs) :=
  (pairs.free env).map fun pairs => ([], pairs)

/-- `callback_success` -/
def Dialog.success : Dialog → Option CalledBack
  | .serverAddr => some (getServerAddrCallbackSuccess net tstamp str sockid pairs)
  | .username env => do
    let (todo, pairs) ← getUsernameCallbackSuccess str env pairs
    some (todo, sockid, pairs)
  | .password env => do
    let (todo, pairs) ← passwordCallbackSuccess str env pairs
    some (todo, sockid, pairs)
  | .kickUid =>
    let (todo, pairs) := getKickUidCallback str pairs
    some (todo, sockid, pairs)
  | .kickReason env => do
    let (todo, pairs) ← kickReasonCallbackSuccess str env pairs
    some (todo, sockid, pairs)

/-- `callback_error`; that of the uid is the null pointer and not called. -/
def Dialog.failure : Dialog → Option (List ClientEffect × Pairs)
  | .serverAddr => some (getServerAddrCallbackFailure tstamp, pairs)
  | .username env | .password env => loginCallbackFailure tstamp env pairs
  | .kickUid => some ([], pairs)
  | .kickReason env => getKickReasonFailure env pairs

end Callbacks

/-! ### The controller's handlers -/

/-- `status_str` -/
def statusStr (status : Int32) : Block :=
  if status = Int32.ofNat msgStatusOk then ascii "OK"
  else if status = Int32.ofNat msgStatusInvalidType then ascii "INVALID TYPE"
  else if status = Int32.ofNat msgStatusUnauthorized then ascii "UNAUTHORIZED"
  else if status = Int32.ofNat msgStatusAuthError then ascii "AUTH_ERROR"
  else if status = Int32.ofNat msgStatusRegError then ascii "REG ERROR"
  else if status = Int32.ofNat msgStatusAccessError then ascii "ACCESS ERROR"
  else if status = Int32.ofNat msgStatusInvalidMsg then ascii "INVALID MSG"
  else ascii "UNKNOWN STATUS"

/-- What a handler of the controller leaves: its calls, `logged_in` and the pairs. -/
abbrev Controlled := List ClientEffect × Bool × Pairs

section Controller

variable (tstamp : Nat → UInt64) (sockid : Int32) (loggedIn : Bool) (pairs : Pairs)

/-- `send_message_to_server_job_handler` -/
def sendMessageToServerJobHandler (text : Block) : List ClientEffect :=
  if sockid = -1 ∨ loggedIn = false then
    [internalMessage (ascii "Cannot send message: no connection") (tstamp 0)]
  else [.write (sendMessageToServerJob text)]

/-- `hangup_event_handler` -/
def hangupEventHandler : List ClientEffect :=
  [internalMessage (ascii "Server has been disconnected, please restart client.") (tstamp 0), .exitController]

/-- `kick_event_handler` -/
def kickEventHandler (reason : Block) : List ClientEffect :=
  [internalMessage (ascii "You have been kicked, reason: \"" ++ reason ++ ascii "\"") (tstamp 0), .exitController]

/-- `status_event_handler` -/
def statusEventHandler (status : Int32) : Option Controlled :=
  if loggedIn = false then
    if status = Int32.ofNat msgStatusOk then some ([.write askForHistory], true, pairs)
    else
      let (p, pairs) := pairs.alloc none
      (loginCallbackFailure (tstamp 0) p pairs).map fun (todo, pairs) => (todo, false, pairs)
  else
    some ([internalMessage (ascii "Recieved status code " ++ showInt status ++ ascii " (" ++
      statusStr status ++ ascii ")") (tstamp 0)], true, pairs)

/-- The events of `list_event_handler` for the GUI. -/
def ClientEvent.shown : ClientEvent → Option ClientEffect
  | .displayParsedMessage type author text tstamp =>
    some (.toGui (.displayParsedMessage type author text tstamp))
  | _ => none

/-- The handler of an event; EXIT has none. -/
def controllerHandler : ControlEvent → Option Controlled
  | .exit => some ([], loggedIn, pairs)
  | .sendMessageToServer text => some (sendMessageToServerJobHandler tstamp sockid loggedIn text, loggedIn, pairs)
  | .hangup => some (hangupEventHandler tstamp, loggedIn, pairs)
  | .kick reason => some (kickEventHandler tstamp reason, loggedIn, pairs)
  | .list msg => (listEventHandler tstamp msg).map fun lines =>
    (lines.filterMap ClientEvent.shown, loggedIn, pairs)
  | .status status => statusEventHandler tstamp loggedIn pairs status

end Controller

/-! ### The listener's events -/

/-- Where the listener sends an event. -/
def ClientEvent.effect : ClientEvent → ClientEffect
  | .displayParsedMessage type author text tstamp => .toGui (.displayParsedMessage type author text tstamp)
  | .kick reason => .toController (.kick reason)
  | .list msg => .toController (.list msg)
  | .status code => .toController (.status (UInt32.ofNat code).toInt32)

def ListenerSent.effect (tstamp : UInt64) : ListenerSent → ClientEffect
  | .event evt => evt.effect
  | .hangup => .toController .hangup
  | .internal text => internalMessage text tstamp

/-! ### The GUI -/

/-- What `wgetch` returns, as far as the loop of `gui_thread` sends something for it. -/
inductive Key where
  /-- `KEY_CLOSE_APP` -/
  | closeApp
  /-- Enter, with the buffer of the input field. -/
  | enter (field : Block)
  /-- `KEY_ESCAPE` or `KEY_PRINT_HELP` -/
  | printHelp
  | listUsers
  | kickUsers
  /-- Keys for the input field and the window, and `ERR`. -/
  | other
deriving DecidableEq, Repr

/-- How a dialog ends. -/
inductive DialogEnd where
  | enter (field : Block)
  | closeApp
deriving DecidableEq, Repr

def helpMsg : Block :=
  ascii "Press F1 to read this help;\n" ++
  ascii "Press F5 to see list of users;\n" ++
  ascii "Press F2 to kick user (you can do it only if you're root);\n" ++
  ascii "Press F10 to quit;\n" ++
  ascii "Press Enter to send message.\n" ++
  ascii "Warning! If you see '[[A' when you press <F1>, check your terminal settings.\n" ++
  ascii "It's possible that this client cannot recognize escape key sequences.\n" ++
  ascii "More info: https://stackoverflow.com/questions/21843395"

/-- `str_strip(field_buffer(..))` -/
def stripField (field : Block) : Option Block := (strStrip (field ++ [0])).map cString

/-- The calls for a key. -/
def Key.calls (tstamp : UInt64) : Key → Option (List ClientEffect)
  | .closeApp | .other => some []
  | .enter field => (stripField field).map fun s => [.toController (.sendMessageToServer s)]
  | .printHelp => some [internalMessage helpMsg tstamp]
  | .listUsers => some [.write askForUserlist]
  | .kickUsers => some [.toGui (.readinput .kickUid)]

/-- A message on the screen, with the time that `ctime` is given. -/
structure Printed where
  author : Option Block
  tvSec : Nat
  text : Block
deriving DecidableEq, Repr

/-- `gui_print_message` -/
def guiPrintMessage (type : UInt8) (author : Option Block) (text : Block) (tstamp : Nat) : Printed :=
  let author :=
    if type = messageServerRegular ∨ type = messageServerHistory then author
    else if type = messageServerMeta then some (ascii "<SERVER>")
    else if type = messageClientInternal then some (ascii "<INTERNAL>")
    else if type = messageServerList then some (ascii "<USERLIST>")
    else none
  ⟨author, tstamp >>> 32, text⟩

end AcosChat

import AcosChat.Connection.Delivery
import AcosChat.Server.Jobs

/-!
# The messages of the client

The messages that `client/controller.c`, `client/misc.c`, `client/gui.c` and
`client/events/send_message_to_server_job.c` build, and `list_event_handler` of
`client/events/list_event.c`.
-/
namespace AcosChat

open Bytes

/-! ### What the client sends -/

/-- `login_callback_success` -/
def loginCallbackSuccess (login password : Block) : Message :=
  ⟨messageClientLogin, [cStr login, cStr password]⟩

/-- `send_message_to_server_job_handler` -/
def sendMessageToServerJob (text : Block) : Message := ⟨messageClientRegular, [cStr text]⟩

/-- The message of `ask_for_history`, for any count. -/
def historyRequest (cnt : Int32) : Message := ⟨messageClientHistory, [.int32 cnt.toUInt32]⟩

/-- `ask_for_history` -/
def askForHistory : Message := historyRequest (Int32.ofInt maxHistoryLength)

/-- `ask_for_userlist` -/
def askForUserlist : Message := ⟨messageClientList, []⟩

/-- `get_kick_reason_success`, with the uid that `atoi` returns. -/
def getKickReasonSuccess (uid : Int32) (reason : Block) : Message :=
  ⟨messageClientKick, [.int32 uid.toUInt32, cStr reason]⟩

/-- The buffer of `client_controller_destroy`. -/
def logoutBuffer : Block := [messageClientLogout, 0, 0, 0, 0]

/-! ### What the client makes of LIST -/

/-- The loop of `list_event_handler`: the id and the login of each user. -/
def listEntries : List Token → Option (List (UInt32 × Block))
  | [] => some []
  | id :: user :: rest => do
    let user ← tokenPStr [user] 0
    let user ← pStrToCStr user
    let id ← tokenPStr [id] 0
    let word ← load id 4 4
    let entries ← listEntries rest
    some ((UInt32.ofNat (swapBytes 4 (ofLeBytes word)), user) :: entries)
  -- tokens[i + 1] is read past the end.
  | [_] => none

/-- `%d` -/
def showInt (i : Int32) : Block := ascii (toString i.toInt)

/-- The line for a user. -/
def listLine (entry : UInt32 × Block) : Block :=
  ascii "User \"" ++ entry.2 ++ ascii "\", id = " ++ showInt entry.1.toInt32

/-- `list_event_handler`, with what `get_tstamp` returns for each line. -/
def listEventHandler (tstamp : Nat → UInt64) (msg : Message) : Option (List ClientEvent) := do
  let entries ← listEntries msg.tokens
  some (entries.zipIdx.map fun (entry, i) =>
    .displayParsedMessage messageServerList none (listLine entry) (tstamp i).toNat)

/-- The listener hands a LIST on as it is. -/
theorem interpretMessage_list (tokens : List Token) :
    interpretMessage ⟨messageServerList, tokens⟩ = some [.list ⟨messageServerList, tokens⟩] := by
  have other : ¬(messageServerList = messageServerRegular ∨ messageServerList = messageServerHistory ∨
      messageServerList = messageServerMeta) ∧ ¬messageServerList = messageServerKick := by decide
  rw [interpretMessage, if_neg other.1, if_neg other.2, if_pos rfl]

/-- A message becomes one event at most, of its own type if it is for the screen. -/
theorem interpretMessage_cases {msg : Message} {events : List ClientEvent}
    (interpreted : interpretMessage msg = some events) :
    (∃ author text tstamp, events = [.displayParsedMessage msg.msgType author text tstamp]) ∨
      (∃ reason, events = [.kick reason]) ∨ (msg.msgType = messageServerList ∧ events = [.list msg]) ∨
      (∃ status, events = [.status status]) ∨ events = [] := by
  unfold interpretMessage at interpreted
  split at interpreted
  · simp only [Option.bind_eq_bind, Option.bind_eq_some_iff] at interpreted
    obtain ⟨_, _, interpreted⟩ := interpreted
    split at interpreted
    · simp only [Option.bind_some, Option.bind_eq_some_iff] at interpreted
      obtain ⟨text, _, _, _, word, _, interpreted⟩ := interpreted
      cases interpreted
      exact .inl ⟨_, _, _, rfl⟩
    · simp only [Option.bind_assoc, Option.bind_some, Option.bind_eq_some_iff] at interpreted
      obtain ⟨_, _, _, _, _, _, _, _, _, _, interpreted⟩ := interpreted
      cases interpreted
      exact .inl ⟨_, _, _, rfl⟩
  split at interpreted
  · simp only [Option.bind_eq_bind, Option.bind_eq_some_iff] at interpreted
    obtain ⟨_, _, reason, _, interpreted⟩ := interpreted
    cases interpreted
    exact .inr (.inl ⟨reason, rfl⟩)
  split at interpreted
  next type =>
    cases interpreted
    exact .inr (.inr (.inl ⟨type, rfl⟩))
  split at interpreted
  · split at interpreted
    · simp only [Option.bind_eq_bind, Option.bind_eq_some_iff] at interpreted
      obtain ⟨_, _, _, _, interpreted⟩ := interpreted
      cases interpreted
      exact .inr (.inr (.inr (.inl ⟨_, rfl⟩)))
    · cases interpreted
      exact .inr (.inr (.inr (.inl ⟨_, rfl⟩)))
  · cases interpreted
    exact .inr (.inr (.inr (.inr rfl)))

/-! ### From one side to the other -/

/-- A string without a NUL byte. -/
def NulFree (text : Block) : Prop := 0 ∉ text

theorem takeWhile_of_nulFree {text : Block} (nulFree : NulFree text) : text.takeWhile (· ≠ 0) = text := by
  rw [List.takeWhile_eq_self_iff]
  intro byte member
  have other : byte ≠ 0 := fun same => nulFree (same ▸ member)
  simpa using other

theorem payload_cStr {text : Block} (nulFree : NulFree text) : (cStr text).payload = text := by
  rw [cStr, Token.payload, List.takeWhile_append, takeWhile_of_nulFree nulFree]
  simp

theorem pStrToCStr_of_nulFree {text : Block} (nulFree : NulFree text) (small : text.length < 2147483648) :
    pStrToCStr (pascalBlock text) = some text := by
  rw [pStrToCStr_pascalBlock text small, takeWhile_of_nulFree nulFree]

@[simp] theorem wellFormed_cStr (text : Block) : (cStr text).WellFormed := by
  simp [cStr, Token.WellFormed]

@[simp] theorem wellFormed_int32 (value : UInt32) : (Token.int32 value).WellFormed := trivial

@[simp] theorem wellFormed_int64 (value : UInt64) : (Token.int64 value).WellFormed := trivial

/-- The frame that a message is packed into. -/
def frameOf (msg : Message) : Frame := ⟨msg.msgType, wireBody (msg.tokens.map Token.payload)⟩

theorem length_frameOf (msg : Message) : (frameOf msg).body.length = bodyLength msg.tokens :=
  length_wireBody msg.tokens

/-- What one side packs the other unpacks, with the strings and the integers as pascal strings. -/
theorem unpackMessage2_packMessage (msg : Message) (wf : ∀ t ∈ msg.tokens, t.WellFormed)
    (small : bodyLength msg.tokens < 2147483648) :
    packMessage msg = some (frameOf msg).bytes ∧ unpackMessage2 (frameOf msg).header (frameOf msg).body =
      .done (some ⟨msg.msgType, msg.tokens.map fun t => .pStr (pascalBlock t.payload)⟩) := by
  have bodySize := length_frameOf msg
  constructor
  · rw [packMessage_eq msg wf small, Frame.bytes, Frame.header, bodySize]
    rfl
  · refine (unpackMessage2_iff _ _ _ (by rw [bodySize]; exact small)).mpr ⟨msg.tokens.map Token.payload, ?_, ?_⟩
    · apply delimits_wireBody _
      intro payload member
      obtain ⟨t, here, rfl⟩ := List.mem_map.mp member
      have inside := payload_le_bodyLength msg.tokens t here
      omega
    · rw [List.map_map]
      rfl

end AcosChat

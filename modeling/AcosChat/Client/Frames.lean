import AcosChat.Client.Messages

/-!
# Frames that the client survives

`process_connection` of `client/listener.c` and the handler of the LIST event that it may send.
Neither checks what `unpack_message_2` returns, how many tokens there are or how long they
are; the server checks all three.
-/
namespace AcosChat

open Bytes

/-- The loop of `list_event_handler` finds pairs, each with four bytes of an id. -/
def InPairs : List Block → Prop
  | [] => True
  | [_] => False
  | id :: _ :: rest => 4 ≤ id.length ∧ InPairs rest

/-- Whatever the client makes of the frame, and of a LIST event for it, is there to be read. -/
def Digestible (f : Frame) : Prop :=
  ∃ payloads, Delimits f.body payloads false ∧ TokensFit f.msgType payloads ∧
    (f.msgType = messageServerList → InPairs payloads)

/-- `process_connection` returns with the state of the connection reset, and the handler of every
LIST event that it has sent returns. -/
def Survives (tstamp : Nat → UInt64) (conn : Connection) (wire : Wire) (processed : ClientProcessed) : Prop :=
  ∃ header body events, processed = .delivered header body (some (events, resetConnection conn, wire)) ∧
    ∀ msg, .list msg ∈ events → (listEventHandler tstamp msg).isSome = true

/-! ### The LIST event -/

theorem listEntries_isSome (payloads : List Block)
    (signed : ∀ payload ∈ payloads, payload.length < 2147483648) :
    (listEntries (payloads.map fun payload => .pStr (pascalBlock payload))).isSome = true ↔ InPairs payloads := by
  induction payloads using InPairs.induct with
  | case1 => simp [listEntries, InPairs]
  | case2 => simp [listEntries, InPairs]
  | case3 id user rest ih =>
    have name := pStrToCStr_pascalBlock user (signed user (by simp))
    have later := ih fun payload member => signed payload (by simp [member])
    have word := load_pascalBlock_isSome id 4
    rw [InPairs, ← later, ← word]
    simp only [List.map_cons, listEntries, tokenPStr, List.getElem?_cons_zero, Option.bind_eq_bind, Option.bind_some,
      name]
    cases load (pascalBlock id) 4 4 with
    | none => simp
    | some bytes => cases listEntries (rest.map fun payload => .pStr (pascalBlock payload)) <;> simp

theorem listEventHandler_isSome (tstamp : Nat → UInt64) (msg : Message) :
    (listEventHandler tstamp msg).isSome = (listEntries msg.tokens).isSome := by
  rw [listEventHandler]
  cases listEntries msg.tokens <;> rfl

/-- Messages of the other types do not become a LIST event. -/
theorem interpretMessage_not_list {msg msg' : Message} {events : List ClientEvent}
    (other : msg.msgType ≠ messageServerList) (interpreted : interpretMessage msg = some events) :
    .list msg' ∉ events := by
  rcases interpretMessage_cases interpreted with ⟨_, _, _, rfl⟩ | ⟨_, rfl⟩ | ⟨type, _⟩ | ⟨_, rfl⟩ | rfl
  · simp
  · simp
  · exact absurd type other
  · simp
  · simp

/-! ### Complete frames -/

/-- What the client does with a frame that it has received is to survive it, with its connection
reset for the next one, if and only if the frame can be unpacked, has the tokens that are read for
its type, and these have the 8 or 4 bytes that are read of them. -/
theorem client_survives_iff (tstamp : Nat → UInt64) (f : Frame) (small : f.body.length < 2147483648)
    {conn conn' : Connection} {wire wire' : Wire} (complete : receive conn wire = .complete conn' wire')
    (header : conn'.header = some f.header) (body : conn'.body.getD [] = f.body) :
    Survives tstamp conn' wire' (clientProcessConnection conn wire) ↔ Digestible f := by
  have processed : clientProcessConnection conn wire = .delivered f.header f.body
      ((deliverMessage f.header f.body).map fun events => (events, resetConnection conn', wire')) := by
    rw [clientProcessConnection, complete]
    simp only [header, body, Option.getD_some]
  have signed : ∀ payloads, Delimits f.body payloads false →
      ∀ payload ∈ payloads, payload.length < 2147483648 := by
    intro payloads cut payload member
    have inside := cut.payload_le payload member
    omega
  -- What is unpacked has the type of the frame and one token for each payload.
  have delivered {payloads : List Block} (cut : Delimits f.body payloads false) :
      deliverMessage f.header f.body =
        interpretMessage ⟨f.msgType, payloads.map fun payload => .pStr (pascalBlock payload)⟩ := by
    have returned := (unpackMessage2_iff f.msgType f.body _ small).mpr ⟨payloads, cut, rfl⟩
    rw [deliverMessage, Frame.header, returned]
  rw [processed]
  constructor
  · rintro ⟨_, _, events, same, handled⟩
    simp only [ClientProcessed.delivered.injEq] at same
    obtain ⟨_, _, mapped⟩ := same
    obtain ⟨events', delivers, same⟩ := Option.map_eq_some_iff.mp mapped
    cases same
    obtain ⟨payloads, cut, fit⟩ := (deliverMessage_isSome_iff f small).mp (Option.isSome_iff_exists.mpr ⟨_, delivers⟩)
    refine ⟨payloads, cut, fit, ?_⟩
    intro list
    rw [delivered cut, list, interpretMessage_list] at delivers
    cases delivers
    have handler := handled _ (List.mem_singleton.mpr rfl)
    rw [listEventHandler_isSome] at handler
    exact (listEntries_isSome payloads (signed payloads cut)).mp handler
  · rintro ⟨payloads, cut, fit, pairs⟩
    obtain ⟨events, interpreted⟩ :=
      Option.isSome_iff_exists.mp ((interpretMessage_isSome f.msgType payloads (signed payloads cut)).mpr fit)
    refine ⟨f.header, f.body, events, by rw [delivered cut, interpreted]; rfl, ?_⟩
    intro msg event
    by_cases list : f.msgType = messageServerList
    · rw [list, interpretMessage_list] at interpreted
      cases interpreted
      cases List.mem_singleton.mp event
      rw [listEventHandler_isSome]
      exact (listEntries_isSome payloads (signed payloads cut)).mpr (pairs list)
    · exact absurd event (interpretMessage_not_list list interpreted)

/-- A socket on which a whole frame is pending. -/
def arrivedFrame (f : Frame) : Wire := wireOf f.bytes

/-- A LIST of one user. -/
def listFrame : Frame := ⟨messageServerList, [0, 0, 0, 4, 0, 0, 0, 1, 0, 0, 0, 4, 114, 111, 111, 116]⟩

theorem client_survives_iff_list : ∃ conn' wire',
    receive (newConnection 5) (arrivedFrame listFrame) = .complete conn' wire' ∧
    Survives (fun _ => 0) conn' wire' (clientProcessConnection (newConnection 5) (arrivedFrame listFrame)) := by
  have complete : ∃ conn' wire', receive (newConnection 5) (arrivedFrame listFrame) = .complete conn' wire' ∧
      conn'.header = some listFrame.header ∧ conn'.body.getD [] = listFrame.body := ⟨_, _, rfl, rfl, rfl⟩
  obtain ⟨conn', wire', complete, header, body⟩ := complete
  refine ⟨conn', wire', complete,
    (client_survives_iff (fun _ => 0) listFrame (by decide) complete header body).mpr ?_⟩
  have cut := delimits_wireBody [[0, 0, 0, 1], [114, 111, 111, 116]] (by decide)
  exact ⟨_, cut, trivial, fun _ => ⟨by decide, trivial⟩⟩

/-- The server kicks the client without a reason: there is no first token. -/
theorem client_dies_of_empty_kick : ¬∀ (tstamp : Nat → UInt64) (f : Frame), f.body.length < 2147483648 →
    ∀ (conn conn' : Connection) (wire wire' : Wire), receive conn wire = .complete conn' wire' →
      conn'.header = some f.header → conn'.body.getD [] = f.body →
      Survives tstamp conn' wire' (clientProcessConnection conn wire) := by
  intro claim
  obtain ⟨_, _, _, same, _⟩ := claim (fun _ => 0) ⟨messageServerKick, []⟩ (by decide) (newConnection 5) _
    (arrivedFrame ⟨messageServerKick, []⟩) _ rfl rfl rfl
  have dies : ∃ header body, clientProcessConnection (newConnection 5) (arrivedFrame ⟨messageServerKick, []⟩) =
      .delivered header body none := ⟨_, _, rfl⟩
  obtain ⟨_, _, dies⟩ := dies
  rw [dies] at same
  cases same

end AcosChat

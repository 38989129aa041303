import AcosChat.Message.Image
import AcosChat.Server.Meaning

/-!
# The size of a relayed message

A REGULAR frame that the listener accepts becomes a REGULAR frame for every socket, with a
timestamp, the login and two more length fields. Its size passes through the `uint32_t` of
`pack_message`, the `int` of `send_message` and the `int` of the receiver.
-/
namespace AcosChat

open Bytes

/-- `pack_len` in `send_message`: a sum in `uint32_t`, converted to `int`. -/
def packLen (package : Block) : Option Int :=
  (load package 1 4).map fun word =>
    asInt32 ((swapBytes 4 (ofLeBytes word) + msgHeaderSize) % 4294967296)

/-- The sizes on the way of a message are what they stand for: `size` in `pack_message` does not
wrap, `send` is called with a positive length, and the receiver reads a length that is not negative. -/
structure Conveyable (msg : Message) : Prop where
  short : bodyLength msg.tokens < 2147483648
  size : packSize msgHeaderSize msg.tokens = some (msgHeaderSize + bodyLength msg.tokens)
  sent : ∃ package length bodySize, packMessage msg = some package ∧ packLen package = some length ∧
    0 < length ∧ announcedLength package = some bodySize ∧ ¬bodySize < 0

/-- A REGULAR frame that passes the check of the listener, with the message that the job for some
socket sends on, where the sender has this login. -/
inductive Relays (md5hex : Block → Block) (header body login : Block) (out : Message) : Prop
  | intro {env : Env} {sockid sid : Int32} {mgr mgr' : ConnMgr} {db db' : Db} {msg : Message}
      {effects : List Effect} {evt : Broadcast} {key : UInt64}
      (five : header.length = msgHeaderSize) (regular : header.head? = some messageClientRegular)
      (announced : announcedLength header = some (body.length : Int))
      (unpacked : unpackMessage2 header body = .done (some msg))
      (handled : processMessageJobHandler md5hex env sockid mgr db msg = some (effects, mgr', db'))
      (sent : .broadcast evt ∈ effects) (sender : evt.login = some login)
      (packed : sendMessageJobHandler (broadcastMessageCallback evt key) = some (.sent sid out))

/-- The first token of a body, up to its first NUL. -/
def frameText (body : Block) : Block :=
  ((body.drop 4).take (ofBeBytes (body.take 4))).takeWhile (· ≠ 0)

/-! ### The sizes -/

theorem packLen_wireHeader (msgType : UInt8) (length : Nat) (after : Block)
    (signed : length < 2147483648) :
    packLen (wireHeader msgType length ++ after) = some (asInt32 (length + msgHeaderSize)) := by
  have read := load_append [msgType] (beBytes 4 length) after 1 rfl
  have swapped := swapBytes_ofLeBytes (beBytes 4 length)
  rw [length_beBytes] at read swapped
  rw [ofBeBytes_beBytes 4 length (by omega)] at swapped
  have small : (length + msgHeaderSize) % 4294967296 = length + msgHeaderSize := by
    apply Nat.mod_eq_of_lt
    simp only [msgHeaderSize]
    omega
  rw [packLen, wireHeader, ← List.singleton_append, read, Option.map_some, swapped, small]

/-- The `int` that counts the header too is the first to overflow. -/
theorem conveyable_iff {msg : Message} (wf : ∀ t ∈ msg.tokens, t.WellFormed) :
    Conveyable msg ↔ msgHeaderSize + bodyLength msg.tokens < 2147483648 := by
  constructor
  · rintro ⟨short, _, package, length, _, packed, counted, positive, _⟩
    rw [packMessage_eq msg wf short, Option.some.injEq] at packed
    rw [← packed, packLen_wireHeader _ _ _ short, Option.some.injEq] at counted
    by_contra large
    rw [asInt32, if_neg (by omega)] at counted
    simp only [msgHeaderSize] at counted
    omega
  · intro small
    have short : bodyLength msg.tokens < 2147483648 := by
      simp only [msgHeaderSize] at small
      omega
    refine ⟨short, packSize_eq msg.tokens wf msgHeaderSize (by omega), _, _, _,
      packMessage_eq msg wf short, packLen_wireHeader _ _ _ short, ?_,
      announcedLength_wireHeader _ _ _ short, by omega⟩
    rw [asInt32_of_lt _ (by omega)]
    simp only [msgHeaderSize]
    omega

/-! ### The way of a frame -/

theorem frameText_wireBody (payload : Block) (payloads : List Block) (small : payload.length < 2147483648) :
    frameText (wireBody (payload :: payloads)) = payload.takeWhile (· ≠ 0) := by
  have split : wireBody (payload :: payloads) = beBytes 4 payload.length ++ (payload ++ wireBody payloads) := by
    simp [wireBody, wireToken]
  have field : (beBytes 4 payload.length).length = 4 := length_beBytes 4 _
  rw [frameText, split, List.take_left' field, List.drop_left' field,
    ofBeBytes_beBytes 4 _ (by omega), List.take_left]

/-- The only event that a REGULAR message leads to is the broadcast of its text. -/
theorem handled_regular {md5hex : Block → Block} {env : Env} {sockid : Int32} {mgr mgr' : ConnMgr}
    {db db' : Db} {tokens : List Token} {effects : List Effect} {evt : Broadcast}
    (handled : processMessageJobHandler md5hex env sockid mgr db ⟨messageClientRegular, tokens⟩ =
      some (effects, mgr', db'))
    (sent : .broadcast evt ∈ effects) : ∃ mem, tokenPStr tokens 0 = some mem ∧
      pStrToCStr mem = some evt.msg ∧ evt.type = messageServerRegular := by
  have other : ¬messageClientRegular = messageClientLogin ∧
    ¬messageClientRegular = messageClientLogout := by decide
  rw [processMessageJobHandler, if_neg other.1, if_neg other.2, if_pos rfl, handleRegular] at handled
  split at handled
  · cases handled
    simp [sendStatusCode] at sent
  split at handled
  · cases handled
    simp [sendStatusCode] at sent
  simp only [Option.bind_eq_bind, Option.bind_eq_some_iff, Option.some.injEq, Prod.mk.injEq] at handled
  obtain ⟨login, _, mem, first, msg, copied, rfl, _, _⟩ := handled
  rw [List.mem_singleton, Effect.broadcast.injEq] at sent
  subst sent
  exact ⟨mem, first, copied, rfl⟩

theorem nulFree_takeWhile (mem : Block) : NulFree (mem.takeWhile (· ≠ 0)) := by
  intro member
  have nonzero := List.mem_takeWhile_imp member
  simp at nonzero

/-- What is sent on is the timestamp, the login and the text of the frame. -/
theorem Relays.out_eq {md5hex : Block → Block} {header body login : Block} {out : Message}
    (relays : Relays md5hex header body login out) : ∃ tstamp,
      out = ⟨messageServerRegular, [.int64 tstamp, cStr login, cStr (frameText body)]⟩ := by
  obtain ⟨five, regular, announced, unpacked, handled, sent, sender, packed⟩ := relays
  rename_i evt _
  have small : body.length < 2147483648 := by
    have bound := announcedLength_lt announced
    omega
  obtain ⟨msgType, rfl⟩ := header_eq_wireHeader five announced
  obtain rfl : msgType = messageClientRegular := by simpa [wireHeader] using regular
  obtain ⟨payloads, cut, rfl⟩ := (unpackMessage2_iff _ _ _ small).mp unpacked
  obtain ⟨mem, first, copied, type⟩ := handled_regular handled sent
  obtain ⟨rfl, signed⟩ := cut.eq_wireBody
  cases payloads with
  | nil => simp [tokenPStr] at first
  | cons payload payloads =>
    have short := signed payload List.mem_cons_self
    obtain rfl : mem = pascalBlock payload := by simpa [tokenPStr, eq_comm] using first
    rw [pStrToCStr_pascalBlock payload short, ← frameText_wireBody payload payloads short,
      Option.some.injEq] at copied
    simp only [sendMessageJobHandler, SendMessageJob.tokens, broadcastMessageCallback, type, sender,
      ← copied, if_true, Option.bind_eq_bind, Option.bind_some, Option.some.injEq,
      Effect.sent.injEq] at packed
    exact ⟨evt.tstamp, packed.2.symm⟩

/-- A relayed message can be sent and received if and only if the login and the text have at most
2^31 - 26 bytes together. -/
theorem relayed_conveyable_iff {md5hex : Block → Block} {header body login : Block} {out : Message}
    (relays : Relays md5hex header body login out) (nulFree : NulFree login) :
    Conveyable out ↔ login.length + (frameText body).length + 26 ≤ 2147483648 := by
  obtain ⟨tstamp, rfl⟩ := relays.out_eq
  have wf : ∀ t ∈ [Token.int64 tstamp, cStr login, cStr (frameText body)], t.WellFormed := by
    simp
  have length : bodyLength [.int64 tstamp, cStr login, cStr (frameText body)] =
      20 + login.length + (frameText body).length := by
    have number : (Token.int64 tstamp).payload.length = 8 := length_beBytes 8 _
    have nulFree' : NulFree (frameText body) := nulFree_takeWhile _
    simp only [bodyLength, List.map_cons, List.map_nil, List.sum_cons, List.sum_nil, number,
      payload_cStr nulFree, payload_cStr nulFree']
    omega
  rw [conveyable_iff wf, length]
  simp only [msgHeaderSize]
  omega

/-! ### A frame of one text -/

/-- A frame with a text that has no NUL, sent by a user with the login `a`. -/
theorem relays_text (text : Block) (nulFree : NulFree text) (small : 4 + text.length < 2147483648) :
    Relays id (wireHeader messageClientRegular (4 + text.length)) (wireToken text) [97]
      ⟨messageServerRegular, [.int64 0, cStr [97], cStr text]⟩ := by
  let mgr := (initConnMgr.addSid 4).connectSidUid 4 7
  let db : Db := ⟨[⟨7, [97], []⟩], []⟩
  let evt : Broadcast := ⟨0, messageServerRegular, some [97], text, 7⟩
  have connected : (initConnMgr.addSid 4).sidToUid.contains (wordOfInt 4) = true := by
    simp [ConnMgr.addSid]
  have uid : mgr.getUid 4 = 7 := by
    rw [ConnMgr.getUid_connectSidUid _ _ _ _ connected, if_pos rfl]
  have other : ¬(7 : Int32) = nullUid := by decide
  have login : getLoginByUid (Env.calm.script 0) 7 db = some (some [97]) := by decide
  have handled : processMessageJobHandler id Env.calm 4 mgr db
      ⟨messageClientRegular, [.pStr (pascalBlock text)]⟩ = some ([.broadcast evt], mgr, db) := by
    rw [serve_regular nulFree (by omega), Request.serve]
    simp only [uid, other, ite_false, login, Option.bind_eq_bind, Option.bind_some]
    rfl
  -- the sender has socket 4 and uid 7, the receiver socket 5
  have packed : sendMessageJobHandler (broadcastMessageCallback evt (wordOfInt 5)) =
      some (.sent 5 ⟨messageServerRegular, [.int64 0, cStr [97], cStr text]⟩) := by
    rw [sid_broadcastMessageCallback]
    rfl
  have whole : wireToken text = wireBody [text] := by simp [wireBody]
  have length : (wireToken text).length = 4 + text.length := length_wireToken text
  have announced := announcedLength_wireHeader messageClientRegular (4 + text.length) [] small
  rw [List.append_nil, ← length] at announced
  have unpacked : unpackMessage2 (wireHeader messageClientRegular (4 + text.length)) (wireToken text) =
      .done (some ⟨messageClientRegular, [.pStr (pascalBlock text)]⟩) := by
    rw [← length]
    refine (unpackMessage2_iff _ _ _ (by omega)).mpr ⟨[text], ?_, rfl⟩
    rw [whole]
    exact delimits_wireBody [text] (by simpa using Nat.lt_of_le_of_lt (Nat.le_add_left _ 4) small)
  rw [length] at announced
  exact .intro (length_wireHeader _ _) rfl (by rw [announced, length]) unpacked handled
    (List.mem_singleton_self _) rfl packed

theorem relayed_conveyable_hi :
    Conveyable ⟨messageServerRegular, [.int64 0, cStr [97], cStr [104, 105]]⟩ :=
  (relayed_conveyable_iff (relays_text [104, 105] (by simp [NulFree]) (by decide))
    (by simp [NulFree])).mpr (by decide)

theorem exists_text (length : Nat) : ∃ text : Block, NulFree text ∧ text.length = length := by
  refine ⟨List.replicate length 65, ?_, List.length_replicate⟩
  intro member
  exact absurd (List.eq_of_mem_replicate member) (by decide)

/-- A text that fills a frame up to 22 bytes less than 2^31. -/
theorem not_all_relayed_conveyable : ¬∀ (md5hex : Block → Block) (header body login : Block)
    (out : Message), Relays md5hex header body login out → NulFree login → login ≠ [] → Conveyable out := by
  intro all
  obtain ⟨text, nulFree, length⟩ := exists_text 2147483622
  have nulFree' : NulFree [97] := by simp [NulFree]
  have conveyable := all _ _ _ _ _ (relays_text text nulFree (by omega)) nulFree' (by decide)
  have wf : ∀ t ∈ [Token.int64 0, cStr [97], cStr text], t.WellFormed := by
    simp
  have number : (Token.int64 0).payload.length = 8 := length_beBytes 8 _
  have size := (conveyable_iff wf).mp conveyable
  simp only [bodyLength, List.map_cons, List.map_nil, List.sum_cons, List.sum_nil, number,
    payload_cStr nulFree', payload_cStr nulFree, length, List.length_singleton, msgHeaderSize] at size
  omega

end AcosChat

import AcosChat.Client.Messages
import AcosChat.Server.SendMessage

/-!
# What the messages mean

The client and the server build their messages and read each other's in different files,
without a common schema. Every frame that one of them builds is read by the other with the
values that it was built from. What the server does for a request is stated here on these
values, without tokens.
-/
namespace AcosChat

open Bytes

/-! ### Integers and strings in tokens -/

theorem load_pascalBlock (payload : Block) : load (pascalBlock payload) 4 payload.length = some payload := by
  have read := load_append (leBytes 4 payload.length) payload [] 4 (by simp)
  rwa [List.append_nil] at read

/-- An integer in network order is read back. -/
theorem load_beBytes (width word : Nat) (fits : word < 256 ^ width) :
    (load (pascalBlock (beBytes width word)) 4 width).map (fun bytes => swapBytes width (ofLeBytes bytes)) =
      some word := by
  have read := load_pascalBlock (beBytes width word)
  have swapped := swapBytes_ofLeBytes (beBytes width word)
  rw [length_beBytes] at read swapped
  rw [read, Option.map_some, swapped, ofBeBytes_beBytes width word fits]

theorem load_int32 (value : UInt32) : ∃ word, load (pascalBlock (beBytes 4 value.toNat)) 4 4 = some word ∧
    swapBytes 4 (ofLeBytes word) = value.toNat :=
  Option.map_eq_some_iff.mp (load_beBytes 4 value.toNat value.toNat_lt)

theorem load_int64 (value : UInt64) : ∃ word, load (pascalBlock (beBytes 8 value.toNat)) 4 8 = some word ∧
    swapBytes 8 (ofLeBytes word) = value.toNat :=
  Option.map_eq_some_iff.mp (load_beBytes 8 value.toNat value.toNat_lt)

theorem payload_int32 (value : UInt32) : (Token.int32 value).payload = beBytes 4 value.toNat := rfl

theorem payload_int64 (value : UInt64) : (Token.int64 value).payload = beBytes 8 value.toNat := rfl

/-! ### What the client reads -/

/-- The bytes are a frame, from which the client sends these events. -/
def ReadByClient (bytes : Block) (events : List ClientEvent) : Prop :=
  ∃ f : Frame, bytes = f.bytes ∧ deliverMessage f.header f.body = some events

/-- The buffer of `send_status_code`. -/
def statusBuffer (status : UInt32) : Block :=
  [messageServerStatus] ++ leBytes 4 (swapBytes 4 8) ++ leBytes 4 (swapBytes 4 4) ++
    leBytes 4 (swapBytes 4 status.toNat)

/-- The tokens of LIST for ids and logins. -/
def listTokens (entries : List (UInt32 × Block)) : List Token :=
  entries.flatMap fun entry => [.int32 entry.1, cStr entry.2]

/-- What the client makes of a packed message. -/
theorem readByClient_of_interpret {msg : Message} {events : List ClientEvent}
    (wf : ∀ t ∈ msg.tokens, t.WellFormed) (small : bodyLength msg.tokens < 2147483648)
    (reads : interpretMessage ⟨msg.msgType, msg.tokens.map fun t => .pStr (pascalBlock t.payload)⟩ = some events) :
    ∃ bytes, packMessage msg = some bytes ∧ ReadByClient bytes events := by
  obtain ⟨packed, unpacked⟩ := unpackMessage2_packMessage msg wf small
  refine ⟨(frameOf msg).bytes, packed, frameOf msg, rfl, ?_⟩
  rw [deliverMessage, unpacked]
  exact reads

theorem payload_lt {tokens : List Token} {t : Token} (member : t ∈ tokens)
    (small : bodyLength tokens < 2147483648) : t.payload.length < 2147483648 := by
  have inside := payload_le_bodyLength tokens t member
  omega

/-- A login and a text, as they are in REGULAR and HISTORY. -/
theorem interpret_chatMessage {type : UInt8} (chat : type = messageServerRegular ∨ type = messageServerHistory)
    (tstamp : UInt64) {login text : Block} (nulFree : NulFree login) (nulFree' : NulFree text)
    (small : login.length < 2147483648) (small' : text.length < 2147483648) :
    interpretMessage ⟨type, [.pStr (pascalBlock (beBytes 8 tstamp.toNat)), .pStr (pascalBlock login),
      .pStr (pascalBlock text)]⟩ = some [.displayParsedMessage type (some login) text tstamp.toNat] := by
  have branch : type = messageServerRegular ∨ type = messageServerHistory ∨ type = messageServerMeta := by
    rcases chat with same | same <;> simp [same]
  have notMeta : ¬type = messageServerMeta := by
    rcases chat with rfl | rfl <;> decide
  obtain ⟨word, read, swapped⟩ := load_int64 tstamp
  rw [interpretMessage, if_pos branch]
  simp only [notMeta, if_false, tokenPStr, List.getElem?_cons_zero, List.getElem?_cons_succ,
    Option.bind_eq_bind, Option.bind_some, read, swapped, pStrToCStr_of_nulFree nulFree small,
    pStrToCStr_of_nulFree nulFree' small']

theorem interpret_metaMessage (tstamp : UInt64) {text : Block} (nulFree : NulFree text)
    (small : text.length < 2147483648) :
    interpretMessage ⟨messageServerMeta, [.pStr (pascalBlock (beBytes 8 tstamp.toNat)),
      .pStr (pascalBlock text)]⟩ = some [.displayParsedMessage messageServerMeta none text tstamp.toNat] := by
  obtain ⟨word, read, swapped⟩ := load_int64 tstamp
  simp [interpretMessage, tokenPStr, read, swapped, pStrToCStr_of_nulFree nulFree small]

theorem interpret_kickMessage {reason : Block} (nulFree : NulFree reason) (small : reason.length < 2147483648) :
    interpretMessage ⟨messageServerKick, [.pStr (pascalBlock reason)]⟩ = some [.kick reason] := by
  have other : ¬(messageServerKick = messageServerRegular ∨ messageServerKick = messageServerHistory ∨
      messageServerKick = messageServerMeta) := by decide
  rw [interpretMessage, if_neg other, if_pos rfl]
  simp [tokenPStr, pStrToCStr_of_nulFree nulFree small]

theorem interpret_statusMessage (status : UInt32) :
    interpretMessage ⟨messageServerStatus, [.pStr (pascalBlock (beBytes 4 status.toNat))]⟩ =
      some [.status status.toNat] := by
  obtain ⟨word, read, swapped⟩ := load_int32 status
  have other : ¬(messageServerStatus = messageServerRegular ∨ messageServerStatus = messageServerHistory ∨
      messageServerStatus = messageServerMeta) := by decide
  have notKick : ¬messageServerStatus = messageServerKick := by decide
  have notList : ¬messageServerStatus = messageServerList := by decide
  rw [interpretMessage, if_neg other, if_neg notKick, if_neg notList, if_pos rfl]
  simp [tokenPStr, read, swapped]

/-- The pairs of LIST are read back in order. -/
theorem listEntries_listTokens (entries : List (UInt32 × Block)) (nulFree : ∀ e ∈ entries, NulFree e.2)
    (small : ∀ e ∈ entries, e.2.length < 2147483648) :
    listEntries ((listTokens entries).map fun t => .pStr (pascalBlock t.payload)) = some entries := by
  induction entries with
  | nil => rfl
  | cons entry entries ih =>
    obtain ⟨word, read, swapped⟩ := load_int32 entry.1
    have rest := ih (fun e member => nulFree e (by simp [member])) fun e member => small e (by simp [member])
    rw [listTokens] at rest ⊢
    simp only [List.flatMap_cons, List.cons_append, List.nil_append, List.map_cons, listEntries, tokenPStr,
      List.getElem?_cons_zero, Option.bind_eq_bind, Option.bind_some, payload_cStr (nulFree entry (by simp)),
      pStrToCStr_of_nulFree (nulFree entry (by simp)) (small entry (by simp)), payload_int32, read, swapped, rest,
      UInt32.ofNat_toNat]

theorem wellFormed_listTokens (entries : List (UInt32 × Block)) : ∀ t ∈ listTokens entries, t.WellFormed := by
  intro t member
  obtain ⟨entry, _, inside⟩ := List.mem_flatMap.mp member
  simp only [List.mem_cons, List.not_mem_nil, or_false] at inside
  rcases inside with rfl | rfl
  · trivial
  · exact wellFormed_cStr entry.2

theorem list_readByClient {entries : List (UInt32 × Block)} (nulFree : ∀ e ∈ entries, NulFree e.2)
    (small : bodyLength (listTokens entries) < 2147483648) :
    ∃ bytes list, packMessage ⟨messageServerList, listTokens entries⟩ = some bytes ∧
      ReadByClient bytes [.list list] ∧ listEntries list.tokens = some entries := by
  have short : ∀ e ∈ entries, e.2.length < 2147483648 := by
    intro e member
    have there : cStr e.2 ∈ listTokens entries := List.mem_flatMap.mpr ⟨e, member, by simp⟩
    have inside := payload_lt there small
    rwa [payload_cStr (nulFree e member)] at inside
  obtain ⟨bytes, packed, reads⟩ := @readByClient_of_interpret ⟨messageServerList, listTokens entries⟩ _
    (wellFormed_listTokens entries) small (interpretMessage_list _)
  exact ⟨bytes, _, packed, reads, listEntries_listTokens entries nulFree short⟩

/-- The buffer that is put together by hand is what `pack_message` makes of the status. -/
theorem packMessage_status (status : UInt32) :
    packMessage ⟨messageServerStatus, [.int32 status]⟩ = some (statusBuffer status) := by
  have four : bodyLength [.int32 status] = 8 := by
    rw [bodyLength, List.map_singleton, payload_int32, length_beBytes]
    rfl
  rw [packMessage_eq _ (by simp) (by rw [four]; decide), four, List.map_singleton,
    payload_int32, statusBuffer, leBytes_swapBytes, leBytes_swapBytes, leBytes_swapBytes]
  simp [wireHeader, wireBody, wireToken]

/-- REGULAR and HISTORY are made alike. -/
theorem chat_readByClient {type : UInt8} (chat : type = messageServerRegular ∨ type = messageServerHistory)
    (tstamp : UInt64) {login text : Block} (nulFree : NulFree login) (nulFree' : NulFree text)
    (small : bodyLength [.int64 tstamp, cStr login, cStr text] < 2147483648) :
    ∃ bytes, packMessage ⟨type, [.int64 tstamp, cStr login, cStr text]⟩ = some bytes ∧
      ReadByClient bytes [.displayParsedMessage type (some login) text tstamp.toNat] := by
  have first : (cStr login).payload.length < 2147483648 := payload_lt (by simp) small
  have second : (cStr text).payload.length < 2147483648 := payload_lt (by simp) small
  rw [payload_cStr nulFree] at first
  rw [payload_cStr nulFree'] at second
  refine @readByClient_of_interpret ⟨type, [.int64 tstamp, cStr login, cStr text]⟩ _ ?_ small ?_
  · simp
  · simpa only [List.map_cons, List.map_nil, payload_int64, payload_cStr nulFree, payload_cStr nulFree']
      using interpret_chatMessage chat tstamp nulFree nulFree' first second

theorem meta_readByClient (tstamp : UInt64) {text : Block} (nulFree : NulFree text)
    (small : bodyLength [.int64 tstamp, cStr text] < 2147483648) :
    ∃ bytes, packMessage ⟨messageServerMeta, [.int64 tstamp, cStr text]⟩ = some bytes ∧
      ReadByClient bytes [.displayParsedMessage messageServerMeta none text tstamp.toNat] := by
  have short : (cStr text).payload.length < 2147483648 := payload_lt (by simp) small
  rw [payload_cStr nulFree] at short
  refine @readByClient_of_interpret ⟨messageServerMeta, [.int64 tstamp, cStr text]⟩ _ ?_ small ?_
  · simp
  · simpa only [List.map_cons, List.map_nil, payload_int64, payload_cStr nulFree]
      using interpret_metaMessage tstamp nulFree short

theorem payload_pascalBlock {payload : Block} (small : payload.length < 4294967296) :
    (Token.pStr (pascalBlock payload)).payload = payload := by
  have same := Token.payload_pStr payload [] small
  rwa [List.append_nil] at same

theorem kick_readByClient {reason : Block} (nulFree : NulFree reason)
    (small : 4 + reason.length < 2147483648) :
    ∃ bytes, packMessage ⟨messageServerKick, [.pStr (pascalBlock reason)]⟩ = some bytes ∧
      ReadByClient bytes [.kick reason] := by
  have payload : (Token.pStr (pascalBlock reason)).payload = reason := payload_pascalBlock (by omega)
  refine @readByClient_of_interpret ⟨messageServerKick, [.pStr (pascalBlock reason)]⟩ _ ?_ ?_ ?_
  · intro t member
    cases List.mem_singleton.mp member
    exact ⟨reason, [], by simp, by omega⟩
  · simpa [bodyLength, payload] using small
  · simpa only [List.map_singleton, payload] using interpret_kickMessage nulFree (by omega)

theorem status_readByClient (status : UInt32) :
    ReadByClient (statusBuffer status) [.status status.toNat] := by
  have four : bodyLength [.int32 status] < 2147483648 := by
    rw [bodyLength, List.map_singleton, payload_int32, length_beBytes]
    decide
  obtain ⟨bytes, packed, reads⟩ := @readByClient_of_interpret ⟨messageServerStatus, [.int32 status]⟩ _
    (by simp) four (interpret_statusMessage status)
  rw [packMessage_status, Option.some.injEq] at packed
  rwa [packed]

/-- The tokens of LIST are those of pairs of an id and its login. -/
theorem mapM_userTokens {env : Env} {db : Db} (users : List Int32) (start : Nat) {tokens : List (List Token)}
    (done : (users.zipIdx start).mapM (fun entry => userTokens (env.script entry.2) db entry.1) = some tokens) :
    ∃ entries, tokens.flatten = listTokens entries ∧ users = entries.map (fun e => e.1.toInt32) ∧
      ∀ i e, entries[i]? = some e → getLoginByUid (env.script (start + i)) e.1.toInt32 db = some (some e.2) := by
  induction users generalizing start tokens with
  | nil =>
    cases done
    exact ⟨[], rfl, rfl, nofun⟩
  | cons uid users ih =>
    rw [List.zipIdx_cons, List.mapM_cons] at done
    obtain ⟨first, made, done⟩ := Option.bind_eq_some_iff.mp done
    obtain ⟨others, rest, same⟩ := Option.bind_eq_some_iff.mp done
    cases same
    -- `get_login_by_uid` returns a pointer, and packing the null pointer would fault
    obtain ⟨null, known, made⟩ := Option.bind_eq_some_iff.mp made
    obtain ⟨login, rfl, made⟩ := Option.bind_eq_some_iff.mp made
    cases made
    obtain ⟨entries, tokens, uids, logins⟩ := ih (start + 1) rest
    refine ⟨(uid.toUInt32, login) :: entries, ?_, ?_, ?_⟩
    · rw [List.flatten_cons, tokens]
      rfl
    · simp [uids]
    · intro i e there
      cases i with
      | zero =>
        cases there
        simpa using known
      | succ i =>
        have login := logins i e (by simpa using there)
        rwa [Nat.add_assoc, Nat.add_comm 1 i] at login

/-- The handler of LIST sends one frame with the pairs of the users that it has collected. -/
theorem handleList_entries {env : Env} {sid : Int32} {mgr : ConnMgr} {db : Db} {handled : Handled}
    (done : handleList env sid mgr db = some handled) :
    ∃ entries, handled = ([.sent sid ⟨messageServerList, listTokens entries⟩], mgr, db) ∧
      userList mgr = some (entries.map fun e => e.1.toInt32) ∧
      ∀ i e, entries[i]? = some e → getLoginByUid (env.script i) e.1.toInt32 db = some (some e.2) := by
  obtain ⟨users, collected, done⟩ := Option.bind_eq_some_iff.mp done
  obtain ⟨tokens, made, same⟩ := Option.bind_eq_some_iff.mp done
  cases same
  obtain ⟨entries, flat, uids, logins⟩ := mapM_userTokens users 0 made
  refine ⟨entries, by rw [flat], by rw [collected, uids], ?_⟩
  simpa only [Nat.zero_add] using logins

/-- Every frame of the server gives the client what it was built from. -/
structure ClientUnderstands : Prop where
  /-- `send_message_job_handler` on REGULAR. -/
  regular : ∀ sid tstamp login text, NulFree login → NulFree text →
    bodyLength [.int64 tstamp, cStr login, cStr text] < 2147483648 →
    ∃ msg bytes, sendMessageJobHandler ⟨sid, tstamp, messageServerRegular, some login, text⟩ =
        some (.sent sid msg) ∧ packMessage msg = some bytes ∧
      ReadByClient bytes [.displayParsedMessage messageServerRegular (some login) text tstamp.toNat]
  /-- `send_message_job_handler` on META. -/
  announced : ∀ sid tstamp text, NulFree text → bodyLength [.int64 tstamp, cStr text] < 2147483648 →
    ∃ msg bytes, sendMessageJobHandler ⟨sid, tstamp, messageServerMeta, none, text⟩ =
        some (.sent sid msg) ∧ packMessage msg = some bytes ∧
      ReadByClient bytes [.displayParsedMessage messageServerMeta none text tstamp.toNat]
  /-- `browse_history_callback` -/
  history : ∀ noise sid db (row : StoredMessage) login,
    getLoginByUid noise row.uid db = some (some login) → NulFree login → NulFree row.msg →
    bodyLength [.int64 row.tstamp.toUInt64, cStr login, cStr row.msg] < 2147483648 →
    ∃ msg bytes, browseHistoryCallback noise sid db row = some (.sent sid msg) ∧
      packMessage msg = some bytes ∧ ReadByClient bytes
        [.displayParsedMessage messageServerHistory (some login) row.msg row.tstamp.toUInt64.toNat]
  /-- The reply to LIST, with what `list_event_handler` reads. -/
  list : ∀ env sid mgr db handled, handleList env sid mgr db = some handled →
    ∃ entries, handled = ([.sent sid ⟨messageServerList, listTokens entries⟩], mgr, db) ∧
      userList mgr = some (entries.map fun e => e.1.toInt32) ∧
      (∀ i e, entries[i]? = some e → getLoginByUid (env.script i) e.1.toInt32 db = some (some e.2)) ∧
      ((∀ e ∈ entries, NulFree e.2) → bodyLength (listTokens entries) < 2147483648 →
        ∃ bytes list, packMessage ⟨messageServerList, listTokens entries⟩ = some bytes ∧
          ReadByClient bytes [.list list] ∧ listEntries list.tokens = some entries)
  /-- Any list of pairs. -/
  pairs : ∀ entries, (∀ e ∈ entries, NulFree e.2) → bodyLength (listTokens entries) < 2147483648 →
    ∃ bytes list, packMessage ⟨messageServerList, listTokens entries⟩ = some bytes ∧
      ReadByClient bytes [.list list] ∧ listEntries list.tokens = some entries
  /-- `kick_callback` -/
  kick : ∀ reason key effects, NulFree reason → 4 + reason.length < 2147483648 →
    ∃ msg bytes, kickCallback (pascalBlock reason) key effects =
        effects ++ [.sent (intOfWord key) msg, .closeEvent (intOfWord key)] ∧
      packMessage msg = some bytes ∧ ReadByClient bytes [.kick reason]
  /-- `send_status_code` -/
  status : ∀ status, packMessage ⟨messageServerStatus, [.int32 status]⟩ = some (statusBuffer status) ∧
    ReadByClient (statusBuffer status) [.status status.toNat]

theorem clientUnderstands : ClientUnderstands where
  regular sid tstamp login text nulFree nulFree' small := by
    obtain ⟨bytes, packed, reads⟩ := chat_readByClient (.inl rfl) tstamp nulFree nulFree' small
    exact ⟨_, bytes, rfl, packed, reads⟩
  announced sid tstamp text nulFree small := by
    obtain ⟨bytes, packed, reads⟩ := meta_readByClient tstamp nulFree small
    exact ⟨_, bytes, rfl, packed, reads⟩
  history noise sid db row login known nulFree nulFree' small := by
    obtain ⟨bytes, packed, reads⟩ := chat_readByClient (.inr rfl) row.tstamp.toUInt64 nulFree nulFree' small
    refine ⟨_, bytes, ?_, packed, reads⟩
    rw [browseHistoryCallback, known]
    rfl
  list env sid mgr db handled done := by
    obtain ⟨entries, same, users, logins⟩ := handleList_entries done
    exact ⟨entries, same, users, logins, list_readByClient⟩
  pairs entries := list_readByClient
  kick reason key effects nulFree small := by
    obtain ⟨bytes, packed, reads⟩ := kick_readByClient nulFree small
    exact ⟨_, bytes, rfl, packed, reads⟩
  status status := ⟨packMessage_status status, status_readByClient status⟩

/-! ### What the server reads -/

/-- What a client asks for, in values. -/
inductive Request where
  | logIn (login passwd : Block)
  | logOut
  | regular (text : Block)
  | history (cnt : Int32)
  | list
  | kick (uid : Int32) (reason : Block)
deriving DecidableEq, Repr

/-- What the server does for it: the handler without its tokens and their checks. -/
def Request.serve (md5hex : Block → Block) (env : Env) (sockid : Int32) (mgr : ConnMgr) (db : Db) :
    Request → Option Handled
  | .logIn login passwd => do
    let (uid, db) ← loginOrRegister md5hex env.script login passwd db
    if uid < 0 then some ([sendStatusCode sockid (-uid).toUInt32.toNat], mgr, db)
    else
      let announced :=
        if mgr.getNumberOfSessions uid = 0 then
          [metaEvent env.tstamp (ascii "User '" ++ login ++ ascii "' has logged in")]
        else []
      some ([.loggedIn login uid, sendStatusCode sockid msgStatusOk] ++ announced,
        (mgr.addUid uid).connectSidUid sockid uid, db)
  | .logOut => some ([.closeEvent sockid], mgr, db)
  | .regular text =>
    let uid := mgr.getUid sockid
    if uid = nullUid then some ([sendStatusCode sockid msgStatusUnauthorized], mgr, db)
    else do
      let login ← getLoginByUid (env.script 0) uid db
      some ([.broadcast ⟨env.tstamp, messageServerRegular, login, text, uid⟩], mgr, db)
  | .history cnt => do
    let rows ← browseHistory (env.script 0) cnt.toInt db
    let sent ← (rows.zipIdx 1).mapM fun (row, i) => browseHistoryCallback (env.script i) sockid db row
    some (sent, mgr, db)
  | .list => handleList env sockid mgr db
  | .kick uid reason =>
    if mgr.getUid sockid ≠ rootUid then some ([sendStatusCode sockid msgStatusAccessError], mgr, db)
    else if mgr.getNumberOfSessions uid ≤ 0 then
      some ([sendStatusCode sockid msgStatusUnauthorized], mgr, db)
    else do
      let kicked := mgr.forallUid uid (kickCallback (pascalBlock reason)) []
      let login ← getLoginByUid (env.script 0) uid db
      some (kicked ++ [metaEvent env.tstamp
        (ascii "User '" ++ showLogin login ++ ascii "' was kicked, reason: " ++ reason)], mgr, db)

/-- The bytes are a frame, which `process_message_job_handler` serves as this request. -/
def ServedAs (md5hex : Block → Block) (bytes : Block) (request : Request) : Prop :=
  ∃ (f : Frame) (msg : Message), bytes = f.bytes ∧ unpackMessage2 f.header f.body = .done (some msg) ∧
    ∀ env sockid mgr db, processMessageJobHandler md5hex env sockid mgr db msg =
      request.serve md5hex env sockid mgr db

variable {md5hex : Block → Block}

/-- What the server makes of a packed message. -/
theorem servedAs_of_handler {msg : Message} {request : Request} (wf : ∀ t ∈ msg.tokens, t.WellFormed)
    (small : bodyLength msg.tokens < 2147483648)
    (serves : ∀ env sockid mgr db, processMessageJobHandler md5hex env sockid mgr db
      ⟨msg.msgType, msg.tokens.map fun t => .pStr (pascalBlock t.payload)⟩ =
        request.serve md5hex env sockid mgr db) :
    ∃ bytes, packMessage msg = some bytes ∧ ServedAs md5hex bytes request := by
  obtain ⟨packed, unpacked⟩ := unpackMessage2_packMessage msg wf small
  exact ⟨(frameOf msg).bytes, packed, frameOf msg, _, rfl, unpacked, serves⟩

theorem serve_login {login passwd : Block} (nulFree : NulFree login) (nulFree' : NulFree passwd)
    (small : login.length < 2147483648) (small' : passwd.length < 2147483648) (env : Env) (sockid : Int32)
    (mgr : ConnMgr) (db : Db) :
    processMessageJobHandler md5hex env sockid mgr db
      ⟨messageClientLogin, [.pStr (pascalBlock login), .pStr (pascalBlock passwd)]⟩ =
      (Request.logIn login passwd).serve md5hex env sockid mgr db := by
  rw [processMessageJobHandler, if_pos rfl, handleLogin, if_neg (by simp)]
  simp only [tokenPStr, List.getElem?_cons_zero, List.getElem?_cons_succ, Option.bind_eq_bind, Option.bind_some,
    pStrToCStr_of_nulFree nulFree small, pStrToCStr_of_nulFree nulFree' small', Request.serve]

theorem serve_regular {text : Block} (nulFree : NulFree text) (small : text.length < 2147483648) (env : Env)
    (sockid : Int32) (mgr : ConnMgr) (db : Db) :
    processMessageJobHandler md5hex env sockid mgr db ⟨messageClientRegular, [.pStr (pascalBlock text)]⟩ =
      (Request.regular text).serve md5hex env sockid mgr db := by
  have other : ¬messageClientRegular = messageClientLogin ∧ ¬messageClientRegular = messageClientLogout := by decide
  rw [processMessageJobHandler, if_neg other.1, if_neg other.2, if_pos rfl, handleRegular, Request.serve]
  simp only [List.length_singleton, Nat.lt_irrefl, ite_false, tokenPStr, List.getElem?_cons_zero,
    Option.bind_eq_bind, Option.bind_some, pStrToCStr_of_nulFree nulFree small]

/-- An integer passes the check of its length. -/
theorem notAnInt_int32 (value : UInt32) (rest : List Token) {least : Nat}
    (enough : least ≤ rest.length + 1) :
    notAnInt (.pStr (pascalBlock (beBytes 4 value.toNat)) :: rest) least = some false := by
  have length := pascalLength_append [] (beBytes 4 value.toNat) [] (by simp) 0 rfl
  rw [List.nil_append, List.append_nil] at length
  rw [notAnInt, if_neg (by simpa using enough)]
  simp [tokenPStr, length]

theorem pStrInt_int32 (value : Int32) :
    pStrInt (pascalBlock (beBytes 4 value.toUInt32.toNat)) = some value := by
  obtain ⟨word, read, swapped⟩ := load_int32 value.toUInt32
  rw [pStrInt, read, Option.bind_eq_bind, Option.bind_some, swapped]
  simp

theorem serve_history (cnt : Int32) (env : Env) (sockid : Int32) (mgr : ConnMgr) (db : Db) :
    processMessageJobHandler md5hex env sockid mgr db
      ⟨messageClientHistory, [.pStr (pascalBlock (beBytes 4 cnt.toUInt32.toNat))]⟩ =
      (Request.history cnt).serve md5hex env sockid mgr db := by
  have other : ¬messageClientHistory = messageClientLogin ∧ ¬messageClientHistory = messageClientLogout ∧
      ¬messageClientHistory = messageClientRegular := by decide
  rw [processMessageJobHandler, if_neg other.1, if_neg other.2.1, if_neg other.2.2, if_pos rfl, handleHistory,
    notAnInt_int32 _ _ (by simp), Request.serve]
  simp [tokenPStr, pStrInt_int32]

theorem showReason_pascalBlock {reason : Block} (nulFree : NulFree reason) (small : reason.length < 2147483648) :
    showReason (pascalBlock reason) = some reason := by
  have length := pascalLength_append [] reason [] (by omega) 0 rfl
  rw [List.nil_append, List.append_nil] at length
  have data : (pascalBlock reason).drop 4 = reason := List.drop_left' (length_leBytes 4 _)
  have signed : ¬((reason.length : Nat) : Int) < 0 := by omega
  rw [showReason, length, Option.bind_eq_bind, Option.bind_some, asInt32_of_lt _ small, if_neg signed, data,
    strndup_eq reason reason.length (Nat.le_refl _), List.take_length, takeWhile_of_nulFree nulFree]

theorem serve_kick (uid : Int32) {reason : Block} (nulFree : NulFree reason)
    (small : reason.length < 2147483648) (env : Env) (sockid : Int32) (mgr : ConnMgr) (db : Db) :
    processMessageJobHandler md5hex env sockid mgr db
      ⟨messageClientKick, [.pStr (pascalBlock (beBytes 4 uid.toUInt32.toNat)), .pStr (pascalBlock reason)]⟩ =
      (Request.kick uid reason).serve md5hex env sockid mgr db := by
  have other : ¬messageClientKick = messageClientLogin ∧ ¬messageClientKick = messageClientLogout ∧
      ¬messageClientKick = messageClientRegular ∧ ¬messageClientKick = messageClientHistory ∧
      ¬messageClientKick = messageClientList := by decide
  rw [processMessageJobHandler, if_neg other.1, if_neg other.2.1, if_neg other.2.2.1, if_neg other.2.2.2.1,
    if_neg other.2.2.2.2, if_pos rfl, handleKick, notAnInt_int32 _ _ (by simp), Request.serve]
  simp [tokenPStr, pStrInt_int32, showReason_pascalBlock nulFree small]

/-- The tokens of two strings are short if their body is. -/
theorem short_of_cStr {tokens : List Token} {text : Block} (nulFree : NulFree text) (member : cStr text ∈ tokens)
    (small : bodyLength tokens < 2147483648) : text.length < 2147483648 := by
  have short := payload_lt member small
  rwa [payload_cStr nulFree] at short

theorem historyRequest_servedAs (cnt : Int32) :
    ∃ bytes, packMessage (historyRequest cnt) = some bytes ∧ ServedAs md5hex bytes (.history cnt) := by
  refine @servedAs_of_handler md5hex (historyRequest cnt) _ (by simp [historyRequest]) ?_ (serve_history cnt)
  rw [historyRequest, bodyLength, List.map_singleton, payload_int32, length_beBytes]
  decide

/-- Every frame of the client is served as what it was built from. -/
structure ServerUnderstands (md5hex : Block → Block) : Prop where
  login : ∀ login passwd, NulFree login → NulFree passwd →
    bodyLength [cStr login, cStr passwd] < 2147483648 →
    ∃ bytes, packMessage (loginCallbackSuccess login passwd) = some bytes ∧
      ServedAs md5hex bytes (.logIn login passwd)
  regular : ∀ text, NulFree text → bodyLength [cStr text] < 2147483648 →
    ∃ bytes, packMessage (sendMessageToServerJob text) = some bytes ∧ ServedAs md5hex bytes (.regular text)
  history : ∀ cnt, ∃ bytes, packMessage (historyRequest cnt) = some bytes ∧ ServedAs md5hex bytes (.history cnt)
  asked : ∃ bytes, packMessage askForHistory = some bytes ∧
    ServedAs md5hex bytes (.history (Int32.ofInt maxHistoryLength))
  list : ∃ bytes, packMessage askForUserlist = some bytes ∧ ServedAs md5hex bytes .list
  kick : ∀ uid reason, NulFree reason → bodyLength [.int32 uid.toUInt32, cStr reason] < 2147483648 →
    ∃ bytes, packMessage (getKickReasonSuccess uid reason) = some bytes ∧ ServedAs md5hex bytes (.kick uid reason)
  logout : ServedAs md5hex logoutBuffer .logOut

theorem serverUnderstands (md5hex : Block → Block) : ServerUnderstands md5hex where
  login login passwd nulFree nulFree' small := by
    have serves := @serve_login md5hex login passwd nulFree nulFree' (short_of_cStr nulFree (by simp) small)
      (short_of_cStr nulFree' (by simp) small)
    refine @servedAs_of_handler md5hex (loginCallbackSuccess login passwd) _ (by simp [loginCallbackSuccess]) small ?_
    simpa only [loginCallbackSuccess, List.map_cons, List.map_nil, payload_cStr nulFree, payload_cStr nulFree']
      using serves
  regular text nulFree small := by
    have serves := @serve_regular md5hex text nulFree (short_of_cStr nulFree (by simp) small)
    refine @servedAs_of_handler md5hex (sendMessageToServerJob text) _ (by simp [sendMessageToServerJob]) small ?_
    simpa only [sendMessageToServerJob, List.map_singleton, payload_cStr nulFree] using serves
  history := historyRequest_servedAs
  asked := historyRequest_servedAs _
  list := @servedAs_of_handler md5hex askForUserlist .list (by simp [askForUserlist]) (by decide)
    fun _ _ _ _ => rfl
  kick uid reason nulFree small := by
    have serves := @serve_kick md5hex uid reason nulFree (short_of_cStr nulFree (by simp) small)
    refine @servedAs_of_handler md5hex (getKickReasonSuccess uid reason) _ (by simp [getKickReasonSuccess]) small ?_
    simpa only [getKickReasonSuccess, List.map_cons, List.map_nil, payload_int32, payload_cStr nulFree] using serves
  logout := by
    obtain ⟨bytes, packed, served⟩ := @servedAs_of_handler md5hex ⟨messageClientLogout, []⟩ .logOut (by simp)
      (by decide) fun _ _ _ _ => rfl
    have buffer : packMessage ⟨messageClientLogout, []⟩ = some logoutBuffer := by decide
    rw [buffer, Option.some.injEq] at packed
    rwa [packed]

/-- The client and the server understand every message that the other one builds. -/
theorem messages_understood (md5hex : Block → Block) : ClientUnderstands ∧ ServerUnderstands md5hex :=
  ⟨clientUnderstands, serverUnderstands md5hex⟩

end AcosChat

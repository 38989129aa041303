import AcosChat.Talk.Lines

/-!
# The author of a line

A line of the chat on some screen was typed by the user to whom it is ascribed: it is followed
back over the listener of the client, the frame, the job and the event to the package in which
it came, and from there, if that was the package of a client, to its keyboard.
-/
namespace AcosChat

open Store Run Bytes

/-! ### What a client shows -/

/-- The types of the messages that come from the server for the screen. -/
def IsChat (type : UInt8) : Prop :=
  type = messageServerRegular ∨ type = messageServerHistory ∨ type = messageServerMeta

/-- A message of the chat that is on its way to the screen has been received, and so has one
that is there. -/
structure Shown (trace : List ClientSighting) (s : Client) : Prop where
  queued : ∀ type author text tstamp, IsChat type → .displayParsedMessage type author text tstamp ∈ s.guiQueue →
    .received (.event (.displayParsedMessage type author text tstamp)) ∈ trace
  held : ∀ type author text tstamp, IsChat type →
    .toGui (.displayParsedMessage type author text tstamp) ∈ s.listener.todo →
    .received (.event (.displayParsedMessage type author text tstamp)) ∈ trace
  printed : ∀ type author text tstamp, IsChat type → .printed type author text tstamp ∈ trace →
    .received (.event (.displayParsedMessage type author text tstamp)) ∈ trace

/-- Only the listener sends messages of the chat. -/
theorem ClientCall.listener_of_chat {who : ClientThread} {type : UInt8} {author : Option Block} {text : Block}
    {tstamp : Nat} (chat : IsChat type)
    (call : .toGui (.displayParsedMessage type author text tstamp) = askServerAddr ∨
      ClientCall who (.toGui (.displayParsedMessage type author text tstamp))) : who = .listener := by
  by_contra other
  have silent := Client.chat_eq_nil call other
  unfold IsChat at chat
  rw [ClientEffect.chat, GuiEvent.chat, chatLine, if_pos chat] at silent
  cases silent

theorem ListenerSent.eq_of_effect {sent : ListenerSent} {tstamp : UInt64} {type : UInt8} {author : Option Block}
    {text : Block} {word : Nat} (chat : IsChat type)
    (same : sent.effect tstamp = .toGui (.displayParsedMessage type author text word)) :
    sent = .event (.displayParsedMessage type author text word) := by
  cases sent with
  | event evt =>
    cases evt <;> cases same
    rfl
  | hangup => cases same
  | internal line =>
    cases same
    exact absurd chat (by unfold IsChat; decide)

namespace Shown

variable {trace did : List ClientSighting} {s s' : Client}

theorem init : Shown [] Client.init := ⟨nofun, nofun, nofun⟩

/-- What a step shows or passes on, it must have received or found there. -/
theorem of_subset (shown : Shown trace s) (queue : ∀ evt ∈ s'.guiQueue, evt ∈ s.guiQueue)
    (todo : ∀ effect ∈ s'.listener.todo, effect ∈ s.listener.todo)
    (silent : ∀ type author text tstamp, .printed type author text tstamp ∉ did) : Shown (trace ++ did) s' := by
  constructor
  · intro type author text tstamp chat member
    exact List.mem_append_left _ (shown.queued _ _ _ _ chat (queue _ member))
  · intro type author text tstamp chat member
    exact List.mem_append_left _ (shown.held _ _ _ _ chat (todo _ member))
  · intro type author text tstamp chat member
    rcases List.mem_append.mp member with old | new
    · exact List.mem_append_left _ (shown.printed _ _ _ _ chat old)
    · exact absurd new (silent _ _ _ _)

theorem performed (shown : Shown trace s) (calls : s.Calls) {who : ClientThread} {effect : ClientEffect}
    {todo : List ClientEffect} (there : s.todo who = effect :: todo) :
    Shown (trace ++ ((s.setTodo who todo).perform effect).1) ((s.setTodo who todo).perform effect).2 := by
  have rest : ∀ effect' ∈ (s.setTodo who todo).listener.todo, effect' ∈ s.listener.todo := by
    intro effect' member
    cases who with
    | listener =>
      have same : s.listener.todo = effect :: todo := there
      rw [same]
      exact List.mem_cons_of_mem _ member
    | _ => exact member
  have queue : (s.setTodo who todo).guiQueue = s.guiQueue := by
    cases who <;> rfl
  constructor
  · intro type author text tstamp chat member
    cases effect with
    | toGui evt =>
      rcases List.mem_append.mp member with old | new
      · exact List.mem_append_left _ (shown.queued _ _ _ _ chat (queue ▸ old))
      · -- Only the listener sends such a message, and it holds it.
        cases List.mem_singleton.mp new
        cases ClientCall.listener_of_chat chat (calls.next there)
        have same : s.listener.todo = .toGui (.displayParsedMessage type author text tstamp) :: todo := there
        exact List.mem_append_left _ (shown.held _ _ _ _ chat (same ▸ List.mem_cons_self))
    | _ => exact List.mem_append_left _ (shown.queued _ _ _ _ chat (queue ▸ member))
  · intro type author text tstamp chat member
    rw [Client.perform_listener] at member
    exact List.mem_append_left _ (shown.held _ _ _ _ chat (rest _ member))
  · intro type author text tstamp chat member
    rcases List.mem_append.mp member with old | new
    · exact List.mem_append_left _ (shown.printed _ _ _ _ chat old)
    · cases effect with
      | write msg =>
        rw [Client.perform] at new
        split at new <;> cases List.mem_singleton.mp new
      | _ => cases new

theorem received (shown : Shown trace s) {tstamp : UInt64} {sent : List ListenerSent} {phase : PollPhase}
    (queue : s'.guiQueue = s.guiQueue)
    (todo : s'.listener = ⟨phase, sent.map fun sent => sent.effect tstamp⟩) :
    Shown (trace ++ sent.map .received) s' := by
  constructor
  · intro type author text tstamp chat member
    exact List.mem_append_left _ (shown.queued _ _ _ _ chat (queue ▸ member))
  · intro type author text word chat member
    rw [todo] at member
    obtain ⟨sent', inside, same⟩ := List.mem_map.mp member
    rw [ListenerSent.eq_of_effect chat same] at inside
    exact List.mem_append_right _ (List.mem_map_of_mem inside)
  · intro type author text tstamp chat member
    rcases List.mem_append.mp member with old | new
    · exact List.mem_append_left _ (shown.printed _ _ _ _ chat old)
    · obtain ⟨_, _, wrong⟩ := List.mem_map.mp new
      cases wrong

theorem step (shown : Shown trace s) (calls : s.Calls) (transition : ClientTransition s did s') :
    Shown (trace ++ did) s' := by
  cases transition with
  | performed who effect todo there => exact shown.performed calls there
  | printed type author text tstamp queue ready there =>
    -- What is printed leaves the queue, in which it had been received.
    have more : ∀ evt ∈ queue, evt ∈ s.guiQueue := fun evt member => there ▸ List.mem_cons_of_mem _ member
    constructor
    · intro type author text tstamp chat member
      exact List.mem_append_left _ (shown.queued _ _ _ _ chat (more _ member))
    · intro type author text tstamp chat member
      exact List.mem_append_left _ (shown.held _ _ _ _ chat member)
    · intro type' author' text' tstamp' chat member
      rcases List.mem_append.mp member with old | new
      · exact List.mem_append_left _ (shown.printed _ _ _ _ chat old)
      · cases List.mem_singleton.mp new
        exact List.mem_append_left _ (shown.queued _ _ _ _ chat (there ▸ List.mem_cons_self))
  | asked dialog queue ready there =>
    exact shown.of_subset (fun evt member => there ▸ List.mem_cons_of_mem _ member) (fun _ member => member) (by simp)
  | handled tstamp evt =>
    refine shown.of_subset (fun _ member => member) (fun _ member => member) ?_
    intro type author text word member
    rcases List.mem_cons.mp member with wrong | refused
    · cases wrong
    · cases evt with
      | sendMessageToServer line =>
        simp only [Client.refusal] at refused
        split at refused
        · cases List.mem_singleton.mp refused
        · cases refused
      | _ => cases refused
  | pressed tstamp key todo =>
    refine shown.of_subset (fun _ member => member) (fun _ member => member) ?_
    intro type author text word member
    obtain ⟨effect, _, typed⟩ := List.mem_filterMap.mp member
    unfold ClientEffect.typed at typed
    split at typed <;> cases typed
  | listened tstamp input sent conn => exact shown.received rfl rfl
  | lost tstamp input sent => exact shown.received rfl rfl
  | joinedListener =>
    refine shown.of_subset (fun _ member => member) (fun _ member => member) ?_
    intro type author text word member
    split at member
    · cases member
    · cases List.mem_singleton.mp member
  | unconnected | iterated =>
    refine shown.of_subset (fun _ member => member) ?_ (by simp)
    intro effect none
    cases none
  | idle | exited | left | unasked | entered | cancelled | joinedGui | joinedController =>
    exact shown.of_subset (fun _ member => member) (fun _ member => member) (by simp)

end Shown

/-- A line of the chat on the screen has been received. -/
theorem ClientRan.printed_received {trace : List ClientSighting} {rest : Option Client} (ran : ClientRan trace rest)
    {type : UInt8} {author : Option Block} {text : Block} {tstamp : Nat} (chat : IsChat type)
    (printed : .printed type author text tstamp ∈ trace) :
    .received (.event (.displayParsedMessage type author text tstamp)) ∈ trace := by
  obtain ⟨before, last, client, rfl, ran, crash⟩ := ran.exists_ran
  have shown : Shown before client ∧ client.Calls := by
    refine @Ran.invariant _ _ _ _ _ _ (fun trace s => Shown trace s ∧ s.Calls) ⟨.init, Client.init_calls⟩ ?_ _ _ ran
    rintro trace s action did s' ⟨shown, calls⟩ _ taken
    have transition := Client.step_transition taken
    exact ⟨shown.step calls transition, calls.step transition⟩
  rcases List.mem_append.mp printed with early | late
  · exact List.mem_append_left _ (shown.1.printed _ _ _ _ chat early)
  · rcases crash _ late with wrong | ⟨_, wrong⟩ <;> cases wrong

/-! ### The frame of a line -/

theorem event_type {msg : Message} {type : UInt8} {author : Option Block} {text : Block} {tstamp : Nat}
    (shown : .displayParsedMessage type author text tstamp ∈ msg.events) : msg.msgType = type := by
  unfold Message.events at shown
  cases read : interpretMessage ⟨msg.msgType, msg.tokens.map fun t => .pStr (pascalBlock t.payload)⟩ with
  | none =>
    rw [read] at shown
    cases shown
  | some events =>
    rw [read, Option.getD_some] at shown
    rcases interpretMessage_cases read with ⟨_, _, _, rfl⟩ | ⟨_, rfl⟩ | ⟨_, rfl⟩ | ⟨_, rfl⟩ | rfl
    · cases List.mem_singleton.mp shown
      rfl
    · cases List.mem_singleton.mp shown
    · cases List.mem_singleton.mp shown
    · cases List.mem_singleton.mp shown
    · cases shown

/-- A C string is sent up to its NUL. -/
theorem payload_cStr_eq (text : Block) : (cStr text).payload = cString text := by
  induction text with
  | nil => rfl
  | cons byte text ih =>
    simp only [cStr, Token.payload, cString] at ih ⊢
    rw [List.cons_append, List.takeWhile_cons, List.takeWhile_cons, ih]

/-- What is shown for the frame of a text. -/
theorem textTokens_events {type : UInt8} (chat : type = messageServerRegular ∨ type = messageServerHistory)
    {word : UInt64} {login text : Block} (short : Message.Short ⟨type, textTokens word login text⟩) :
    Message.events ⟨type, textTokens word login text⟩ =
      [.displayParsedMessage type (some (cString login)) (cString text) word.toNat] := by
  -- Each token is short, as the frame is, so its length is read as it was written.
  have small : ∀ t ∈ textTokens word login text, t.payload.length < 2147483648 :=
    fun t member => payload_lt member short.bodyLength_lt
  have login_lt := small (cStr login) (by simp [textTokens])
  have text_lt := small (cStr text) (by simp [textTokens])
  rw [payload_cStr_eq] at login_lt text_lt
  have read := interpret_chatMessage chat word (nulFree_takeWhile login) (nulFree_takeWhile text) login_lt text_lt
  simp only [Message.events, textTokens, List.map_cons, List.map_nil, payload_cStr_eq, payload_int64]
  rw [← cString, ← cString] at read
  rw [read, Option.getD_some]

/-! ### What an author has done -/

theorem mem_observations {trace : List ChatSighting} {o : Observed} :
    o ∈ observations trace ↔ .observed o ∈ trace := by
  rw [observations, List.mem_filterMap]
  constructor
  · rintro ⟨sight, member, same⟩
    cases sight <;> cases same
    exact member
  · intro member
    exact ⟨_, member, rfl⟩

theorem nulFree_of_strndup {mem : Block} {n : Nat} {text : Block} (copied : strndup mem n = some text) :
    NulFree text := by
  induction n generalizing mem text with
  | zero =>
    rw [strndup] at copied
    cases copied
    exact List.not_mem_nil
  | succ n ih =>
    cases mem with
    | nil => cases copied
    | cons byte mem =>
      rw [strndup] at copied
      split at copied
      next =>
        cases copied
        exact List.not_mem_nil
      next other =>
        obtain ⟨rest, behind, rfl⟩ := Option.map_eq_some_iff.mp copied
        intro member
        rcases List.mem_cons.mp member with wrong | later
        · exact other wrong.symm
        · exact ih behind later

theorem nulFree_of_pStrToCStr {mem text : Block} (copied : pStrToCStr mem = some text) : NulFree text := by
  obtain ⟨length, _, copied⟩ := Option.bind_eq_some_iff.mp copied
  exact nulFree_of_strndup copied

/-- A handler logs in whom its message names. -/
theorem handled_login {md5hex : Block → Block} {env : Env} {sockid : Int32} {mgr mgr' : ConnMgr} {db db' : Db}
    {msg : Message} {effects : List Effect} {login : Block} {uid : Int32}
    (ran : processMessageJobHandler md5hex env sockid mgr db msg = some (effects, mgr', db'))
    (done : .loggedIn login uid ∈ effects) : msg.msgType = messageClientLogin ∧
      ∃ mem, tokenPStr msg.tokens 0 = some mem ∧ pStrToCStr mem = some login := by
  -- Of the outcomes only that of a LOGIN logs in.
  have type : msg.msgType = messageClientLogin := by
    have outcome := processMessageJobHandler_outcome ran
    generalize msg.msgType = type at outcome
    cases outcome with
    | answered _ _ plain =>
      obtain ⟨_, wrong, _⟩ := plain _ done
      cases wrong
    | refused | loggedIn => rfl
    | loggedOut | regular => cases List.mem_singleton.mp done
    | kicked kuid reason text root =>
      rcases List.mem_append.mp done with kick | announcement
      · obtain ⟨_, _, _, _, wrong | wrong⟩ := mem_kicked kick <;> cases wrong
      · cases List.mem_singleton.mp announcement
  refine ⟨type, ?_⟩
  rw [processMessageJobHandler, if_pos type, handleLogin] at ran
  split at ran
  · cases ran
    cases List.mem_singleton.mp done
  simp only [Option.bind_eq_bind, Option.bind_eq_some_iff, Prod.exists] at ran
  obtain ⟨mem, first, login', copied, _, _, _, _, uid', _, _, ran⟩ := ran
  split at ran
  · cases ran
    cases List.mem_singleton.mp done
  · cases ran
    have same : login = login' := by
      rcases List.mem_append.mp done with member | announcement
      · simp only [List.mem_cons, Effect.loggedIn.injEq, List.not_mem_nil, or_false] at member
        rcases member with ⟨same, _⟩ | wrong
        · exact same
        · cases wrong
      · split at announcement
        · cases List.mem_singleton.mp announcement
        · cases announcement
    exact ⟨mem, first, same ▸ copied⟩

/-- The last login of a connection was given there. -/
theorem loggedIn_of_lastLogin {trace : List Observed} {c : Nat} {login : Block} {uid : Int32}
    (last : lastLogin trace c = some (login, uid)) : ∃ type, .byJob c type (.loggedIn login uid) ∈ trace := by
  obtain ⟨o, member, seen⟩ := List.mem_filterMap.mp (List.mem_of_getLast? last)
  unfold Observed.login at seen
  split at seen
  · split at seen <;> cases seen
    next same =>
      subst same
      exact ⟨_, member⟩
  · cases seen

/-- Who is seen to send a LOGIN has been given this name. -/
theorem ClientRan.login_written {trace : List ClientSighting} {rest : Option Client} (ran : ClientRan trace rest)
    (short : ∀ sockid msg, .wrote sockid msg ∈ trace → msg.Short) {package : Block}
    (sent : package ∈ trace.filterMap ClientSighting.package) {msg : Message}
    (unpacked : unpackPackage package = some msg) (type : msg.msgType = messageClientLogin) {mem login : Block}
    (first : tokenPStr msg.tokens 0 = some mem) (copied : pStrToCStr mem = some login) :
    ∃ sockid name passwd, .wrote sockid (loginCallbackSuccess name passwd) ∈ trace ∧ cString name = login := by
  obtain ⟨sight, member, packed⟩ := List.mem_filterMap.mp sent
  have lawful := ran.lawful sight member
  -- A client writes messages of five kinds, and at its end the buffer of a LOGOUT.
  cases sight with
  | wrote sockid msg' =>
    obtain ⟨who, call⟩ := lawful
    have short := short sockid msg' member
    have same := unpackPackage_packMessage call.wellFormed short packed
    rw [unpacked, Option.some.injEq] at same
    subst same
    rcases call.write_cases with ⟨_, rfl⟩ | ⟨name, passwd, rfl⟩ | ⟨_, rfl⟩ | rfl | ⟨_, _, rfl⟩
    · exact absurd type (by decide : messageClientRegular ≠ messageClientLogin)
    · refine ⟨sockid, name, passwd, member, ?_⟩
      have small := payload_lt (List.mem_cons_self : cStr name ∈ (loginCallbackSuccess name passwd).tokens)
        short.bodyLength_lt
      rw [payload_cStr_eq] at small
      obtain rfl : mem = pascalBlock (cString name) := by
        simpa [loginCallbackSuccess, tokenPStr, payload_cStr_eq, eq_comm] using first
      have nulFree : NulFree (cString name) := nulFree_takeWhile name
      rw [pStrToCStr_of_nulFree nulFree small, Option.some.injEq] at copied
      exact copied
    · exact absurd type (by decide : messageClientHistory ≠ messageClientLogin)
    · exact absurd type (by decide : messageClientList ≠ messageClientLogin)
    · exact absurd type (by decide : messageClientKick ≠ messageClientLogin)
  | closed sockid buf =>
    obtain rfl : buf = logoutBuffer := lawful
    cases packed
    have logout : unpackPackage logoutBuffer = some ⟨messageClientLogout, []⟩ := by decide
    rw [logout, Option.some.injEq] at unpacked
    subst unpacked
    exact absurd type (by decide : messageClientLogout ≠ messageClientLogin)
  | _ => cases packed

/-- The text was written on a connection under this login; if it is the connection of a client,
its user has typed the text and given the login. -/
def HasAuthor (trace : List TalkSighting) (login : Block) (uid : Int32) (text : Block) (tstamp : UInt64) : Prop :=
  ∃ c, Wrote (serverTrace trace) c login uid text tstamp ∧ ∀ j, .accepted j c ∈ trace →
    .client j (.typed text) ∈ trace ∧ ∃ sockid name passwd,
      .client j (.wrote sockid (loginCallbackSuccess name passwd)) ∈ trace ∧ cString name = login

section Runs

variable {md5hex : Block → Block} {db : Db} {clients : Nat} {trace : List TalkSighting} {w : Talk}

/-- What is written is a string, under a login that is one. -/
theorem Heard.wrote_nulFree (heard : Heard md5hex db trace w) {c : Nat} {login : Block} {uid : Int32} {text : Block}
    {tstamp : UInt64} (wrote : Wrote (serverTrace trace) c login uid text tstamp) : NulFree login ∧ NulFree text := by
  obtain ⟨earlier, name, later, split, last, _⟩ := wrote
  constructor
  · obtain ⟨type, member⟩ := loggedIn_of_lastLogin last
    have inside : .byJob c type (.loggedIn login uid) ∈ observations (serverTrace trace) := by
      rw [split, observations_append]
      exact List.mem_append_left _ member
    obtain ⟨_, _, ⟨_, _, ran, done⟩, _⟩ := heard.jobs c type _ inside
    obtain ⟨_, _, _, copied⟩ := handled_login ran done
    exact nulFree_of_pStrToCStr copied
  · have inside : .byJob c messageClientRegular
        (.broadcast ⟨tstamp, messageServerRegular, name, text, uid⟩) ∈ observations (serverTrace trace) := by
      rw [mem_observations, split]
      simp
    obtain ⟨_, _, caused, _⟩ := heard.jobs c _ _ inside
    cases caused with
    | @intro _ _ _ _ _ _ msg _ _ same ran done =>
      obtain ⟨type, tokens⟩ := msg
      obtain rfl : type = messageClientRegular := same
      obtain ⟨_, _, copied, _⟩ := handled_regular ran done
      exact nulFree_of_pStrToCStr copied

/-- A client on whose connection something was written wrote it. -/
theorem Heard.hasAuthor (heard : Heard md5hex db trace w) (parties : Parties md5hex db trace w)
    (short : ∀ sight ∈ trace, sight.Short) {c : Nat} {login : Block} {uid : Int32} {text : Block} {tstamp : UInt64}
    (wrote : Wrote (serverTrace trace) c login uid text tstamp) : HasAuthor trace login uid text tstamp := by
  refine ⟨c, wrote, ?_⟩
  intro j accepted
  obtain ⟨earlier, name, later, split, last, _⟩ := wrote
  constructor
  · -- The text is among those that are broadcast for the connection, which have been typed.
    have inside : text ∈ (observations (serverTrace trace)).filterMap (Observed.text c) := by
      refine List.mem_filterMap.mpr ⟨.byJob c messageClientRegular
        (.broadcast ⟨tstamp, messageServerRegular, name, text, uid⟩), ?_, if_pos ⟨rfl, rfl⟩⟩
      rw [mem_observations, split]
      simp
    obtain ⟨sight, member, line⟩ := List.mem_flatMap.mp ((heard.texts_typed parties short accepted).subset inside)
    cases sight with
    | typed text' =>
      cases List.mem_singleton.mp line
      exact mem_clientTrace.mp member
    | _ => cases line
  · -- The login was given in a package, which the client has written.
    obtain ⟨type, member⟩ := loggedIn_of_lastLogin last
    have inside : .byJob c type (.loggedIn login uid) ∈ observations (serverTrace trace) := by
      rw [split, observations_append]
      exact List.mem_append_left _ member
    obtain ⟨_, package, ⟨unpacked, _, ran, done⟩, taken⟩ := heard.jobs c type _ inside
    obtain ⟨login_type, mem, first, copied⟩ := handled_login ran done
    cases there : w.peers[j]? with
    | none => exact absurd accepted ((parties.absent j there).2 c)
    | some peer =>
      have party := parties.each j peer there
      have sent : package ∈ (clientTrace j trace).filterMap ClientSighting.package := by
        rw [party.sent]
        exact List.mem_append_left _ (taken j accepted)
      obtain ⟨sockid, name, passwd, written, same⟩ := party.ran.login_written
        (fun sockid msg member => short _ (mem_clientTrace.mp member)) sent unpacked login_type first copied
      exact ⟨sockid, name, passwd, mem_clientTrace.mp written, same⟩

/-- A message of the chat on a screen has come in a frame on the client's connection. -/
theorem Channel.frame_of_printed {i : Nat} {peer : Peer} (channel : Channel trace i peer)
    (ran : ClientRan (clientTrace i trace) peer.client) {type : UInt8} {author : Option Block} {text : Block}
    {tstamp : Nat} (chat : IsChat type) (printed : .client i (.printed type author text tstamp) ∈ trace) :
    ∃ c msg, .frame c msg ∈ serverTrace trace ∧ .displayParsedMessage type author text tstamp ∈ msg.events := by
  obtain ⟨done, left, split, received, _⟩ := channel
  have event : .displayParsedMessage type author text tstamp ∈ done.flatMap Message.events := by
    rw [← received]
    exact List.mem_flatMap.mpr
      ⟨_, ran.printed_received chat (mem_clientTrace.mpr printed), List.mem_singleton.mpr rfl⟩
  obtain ⟨msg, member, shown⟩ := List.mem_flatMap.mp event
  have inside : msg ∈ sentOn trace peer.conn := by
    rw [split]
    exact List.mem_append_left _ member
  cases conn : peer.conn with
  | none =>
    rw [conn] at inside
    cases inside
  | some c =>
    rw [conn] at inside
    exact ⟨c, msg, mem_framesTo.mp inside, shown⟩

/-- In every run of the server and its clients, as long as an `int` can count the frames: the
author whom a screen names for a REGULAR has written the text on a connection on which he was
logged in last under this name; and if a client is behind that connection, its user has typed
this text and given this name. So it is for a HISTORY, unless it shows a row that was in the
table from the start. -/
theorem printed_has_author {cond : Talk → TalkAction → Prop} (unique : UniqueUids db)
    (ran : Ran (Talk.step md5hex) cond (Talk.init db clients) trace w) (short : ∀ sight ∈ trace, sight.Short)
    {i : Nat} {type : UInt8} {author : Option Block} {text : Block} {tstamp : Nat}
    (printed : .client i (.printed type author text tstamp) ∈ trace) :
    (type = messageServerRegular → ∃ login uid word, author = some login ∧ tstamp = word.toNat ∧
      HasAuthor trace login uid text word) ∧
    (type = messageServerHistory → ∃ login uid word, author = some (cString login) ∧ tstamp = word.toNat ∧
      (HasAuthor trace login uid text word ∨ ∃ stored hash, ⟨uid, stored, word.toInt64⟩ ∈ db.messages ∧
        cString stored = text ∧ ⟨uid, login, hash⟩ ∈ w.server.core.db.users)) := by
  have parties := Parties.of_ran ran
  have heard := Heard.of_ran unique ran
  have channel := Channel.of_ran unique ran (heard.allDeliverable short)
  -- What is on the screen came in a frame, and such a frame has an author.
  have framed : IsChat type → ∃ c msg, msg.Short ∧ .displayParsedMessage type author text tstamp ∈ msg.events ∧
      NeedsAuthor db.messages w.server.core.db.users (serverTrace trace) (.frame c msg) := by
    intro chat
    cases there : w.peers[i]? with
    | none =>
      have seen := mem_clientTrace.mpr printed
      rw [(parties.absent i there).1] at seen
      cases seen
    | some peer =>
      have ran := (parties.each i peer there).ran
      obtain ⟨c, msg, member, shown⟩ := (channel i peer there).frame_of_printed ran chat printed
      obtain ⟨before, after, split⟩ := List.append_of_mem member
      have need := (heard.authored.frames before _ after split).append (.frame c msg :: after)
      rw [← split] at need
      exact ⟨c, msg, short _ (mem_serverTrace.mp member), shown, need⟩
  constructor
  · rintro rfl
    obtain ⟨c, ⟨type, tokens⟩, short', shown, regular, _⟩ := framed (.inl rfl)
    obtain rfl : type = messageServerRegular := event_type shown
    obtain ⟨c', login, uid, line, word, rfl, wrote⟩ := regular rfl
    rw [textTokens_events (.inl rfl) short'] at shown
    cases List.mem_singleton.mp shown
    obtain ⟨name, string⟩ := heard.wrote_nulFree wrote
    rw [cString, takeWhile_of_nulFree name, cString, takeWhile_of_nulFree string]
    exact ⟨login, uid, word, rfl, rfl, heard.hasAuthor parties short wrote⟩
  · rintro rfl
    obtain ⟨c, ⟨type, tokens⟩, short', shown, _, history⟩ := framed (.inr (.inl rfl))
    obtain rfl : type = messageServerHistory := event_type shown
    obtain ⟨login, uid, line, word, rfl, ⟨c', wrote⟩ | ⟨row, hash, account⟩⟩ := history rfl
    · rw [textTokens_events (.inr rfl) short'] at shown
      cases List.mem_singleton.mp shown
      rw [cString, cString, takeWhile_of_nulFree (heard.wrote_nulFree wrote).2]
      exact ⟨login, uid, word, rfl, rfl, .inl (heard.hasAuthor parties short wrote)⟩
    · rw [textTokens_events (.inr rfl) short'] at shown
      cases List.mem_singleton.mp shown
      exact ⟨login, uid, word, rfl, rfl, .inr ⟨line, hash, row, rfl, account⟩⟩

end Runs

/-- Who reads root's line reads what the user at the first client has typed. -/
theorem printed_has_author_small : ∃ trace, .client 1 (.printed messageServerRegular (some (ascii "root"))
      (ascii "hi") 0) ∈ trace ∧ ∃ uid, HasAuthor trace (ascii "root") uid (ascii "hi") 0 := by
  obtain ⟨trace, w, replayed, short, _, _, printed⟩ := smallTalk_ran
  have ran : Ran (Talk.step fun _ => emptyDigest) (fun _ _ => True) _ trace w :=
    ran_of_replay (meets_of_forall (fun _ _ => trivial) _ _) replayed
  obtain ⟨login, uid, word, named, stamped, author⟩ :=
    (printed_has_author (by unfold UniqueUids; decide) ran short printed).1 rfl
  cases named
  obtain rfl : word = 0 := UInt64.toNat_inj.mp stamped.symm
  exact ⟨trace, printed, uid, author⟩

end AcosChat

import AcosChat.Server.Relaying
import AcosChat.Talk.Runs

/-!
# What the server is asked

A worker handles what was taken as one package and unpacked. All that it sends has the tokens of
such a message or of its own, and what it does for a client it does for a package of that client.
-/
namespace AcosChat

open Store Run Bytes

/-! ### Packages -/

theorem asFrame_eq_some {package : Block} {f : Frame} (framed : asFrame package = some f) :
    package = f.bytes ∧ f.Countable := by
  unfold asFrame at framed
  dsimp only at framed
  split at framed
  next whole =>
    cases framed
    exact whole
  next => cases framed

theorem asFrame_bytes (f : Frame) (countable : f.Countable) : asFrame f.bytes = some f := by
  have type : f.bytes.headD 0 = f.msgType := rfl
  have body : f.bytes.drop msgHeaderSize = f.body := List.drop_left' f.length_header
  unfold asFrame
  simp only [type, body]
  exact if_pos ⟨trivial, countable⟩

/-- A package that is unpacked is the encoding of its tokens. -/
theorem unpackPackage_eq_some {package : Block} {msg : Message} (unpacked : unpackPackage package = some msg) :
    ∃ msgType payloads, package = (⟨msgType, wireBody payloads⟩ : Frame).bytes ∧
      (∀ payload ∈ payloads, payload.length < 2147483648) ∧
      msg = ⟨msgType, payloads.map fun payload => .pStr (pascalBlock payload)⟩ := by
  obtain ⟨f, framed, read⟩ := Option.bind_eq_some_iff.mp unpacked
  obtain ⟨rfl, countable⟩ := asFrame_eq_some framed
  have small : f.body.length < 2147483648 := by
    unfold Frame.Countable at countable
    omega
  split at read
  next msg' done =>
    subst read
    obtain ⟨payloads, cut, rfl⟩ := (unpackMessage2_iff f.msgType f.body msg small).mp done
    obtain ⟨body, signed⟩ := cut.eq_wireBody
    exact ⟨f.msgType, payloads, by rw [← body], signed, rfl⟩
  next => cases read
  next => cases read

/-- The tokens that the server reads are pascal strings. -/
theorem wellFormed_of_unpackPackage {package : Block} {msg : Message}
    (unpacked : unpackPackage package = some msg) : ∀ t ∈ msg.tokens, t.WellFormed := by
  obtain ⟨_, payloads, _, signed, rfl⟩ := unpackPackage_eq_some unpacked
  intro t member
  obtain ⟨payload, inside, rfl⟩ := List.mem_map.mp member
  exact ⟨payload, [], (List.append_nil _).symm, signed payload inside⟩

theorem Message.Short.bodyLength_lt {msg : Message} (short : msg.Short) : bodyLength msg.tokens < 2147483648 := by
  unfold Message.Short at short
  omega

theorem Message.Short.countable {msg : Message} (short : msg.Short) : (frameOf msg).Countable := by
  have length := length_frameOf msg
  have five : msgHeaderSize = 5 := rfl
  unfold Message.Short at short
  unfold Frame.Countable
  omega

/-- What is packed for the wire is unpacked with the same payloads. -/
theorem unpackPackage_packMessage {msg : Message} (wf : ∀ t ∈ msg.tokens, t.WellFormed) (short : msg.Short)
    {package : Block} (packed : packMessage msg = some package) :
    unpackPackage package = some ⟨msg.msgType, msg.tokens.map fun t => .pStr (pascalBlock t.payload)⟩ := by
  obtain ⟨packed', unpacked⟩ := unpackMessage2_packMessage msg wf short.bodyLength_lt
  rw [packed', Option.some.injEq] at packed
  subst packed
  rw [unpackPackage, asFrame_bytes _ short.countable]
  simp only [Option.bind_eq_bind, Option.bind_some, unpacked]

/-! ### The tokens of the server -/

theorem mem_of_tokenPStr {tokens : List Token} {i : Nat} {mem : Block} (there : tokenPStr tokens i = some mem) :
    .pStr mem ∈ tokens := by
  unfold tokenPStr at there
  split at there
  next mem' found =>
    cases there
    exact List.mem_of_getElem? found
  next => cases there

theorem wellFormed_status (status : Nat) : ∀ t ∈ [Token.int32 (UInt32.ofNat status)], t.WellFormed := by
  intro t member
  rw [List.mem_singleton.mp member]
  trivial

section Handlers

variable {md5hex : Block → Block} {env : Env} {sockid : Int32} {mgr mgr' : ConnMgr} {db db' : Db}
  {effects : List Effect} {tokens : List Token} {sockid' : Int32} {frame : Message}

theorem handleHistory_wellFormed (ran : handleHistory env sockid tokens mgr db = some (effects, mgr', db'))
    (sent : .sent sockid' frame ∈ effects) : ∀ t ∈ frame.tokens, t.WellFormed := by
  unfold handleHistory at ran
  simp only [Option.bind_eq_bind, Option.bind_eq_some_iff] at ran
  obtain ⟨wrong, _, ran⟩ := ran
  split at ran
  · cases ran
    cases List.mem_singleton.mp sent
    exact wellFormed_status _
  simp only [Option.bind_eq_some_iff] at ran
  obtain ⟨_, _, _, _, rows, _, frames, mapped, ran⟩ := ran
  cases ran
  obtain ⟨⟨row, i⟩, _, made⟩ := mapM_mem mapped _ sent
  simp only [browseHistoryCallback, Option.bind_eq_bind, Option.bind_eq_some_iff, Option.some.injEq] at made
  obtain ⟨_, _, login, _, same⟩ := made
  cases same
  simp

theorem handleKick_wellFormed (ran : handleKick env sockid tokens mgr db = some (effects, mgr', db'))
    (wf : ∀ t ∈ tokens, t.WellFormed) (sent : .sent sockid' frame ∈ effects) : ∀ t ∈ frame.tokens, t.WellFormed := by
  unfold handleKick at ran
  split at ran
  · cases ran
    cases List.mem_singleton.mp sent
    exact wellFormed_status _
  simp only [Option.bind_eq_bind, Option.bind_eq_some_iff] at ran
  obtain ⟨wrong, _, ran⟩ := ran
  split at ran
  · cases ran
    cases List.mem_singleton.mp sent
    exact wellFormed_status _
  simp only [Option.bind_eq_some_iff] at ran
  obtain ⟨_, _, kuid, _, ran⟩ := ran
  split at ran
  · cases ran
    cases List.mem_singleton.mp sent
    exact wellFormed_status _
  simp only [Option.bind_eq_some_iff] at ran
  obtain ⟨reason, given, _, _, _, _, ran⟩ := ran
  cases ran
  rcases List.mem_append.mp sent with kick | announcement
  · -- The reason is passed on as it came.
    obtain ⟨_, _, _, _, same | same⟩ := mem_kicked kick <;> cases same
    intro t member
    rw [List.mem_singleton.mp member]
    exact wf _ (mem_of_tokenPStr given)
  · cases List.mem_singleton.mp announcement

/-- What a handler sends can be packed, if what it was asked with could. -/
theorem processMessageJobHandler_wellFormed {msg : Message}
    (ran : processMessageJobHandler md5hex env sockid mgr db msg = some (effects, mgr', db'))
    (wf : ∀ t ∈ msg.tokens, t.WellFormed) (sent : .sent sockid' frame ∈ effects) :
    ∀ t ∈ frame.tokens, t.WellFormed := by
  unfold processMessageJobHandler at ran
  split at ran
  next =>
    obtain ⟨_, ⟨status, rfl, _⟩ | ⟨login, uid, announced, _, announces, rfl, _⟩⟩ := handleLogin_cases ran
    · cases List.mem_singleton.mp sent
      exact wellFormed_status _
    · rcases List.mem_append.mp sent with first | announcement
      · simp only [List.mem_cons, List.not_mem_nil, or_false, reduceCtorEq, false_or] at first
        cases first
        exact wellFormed_status _
      · obtain ⟨_, _, wrong⟩ := announces _ announcement
        cases wrong
  split at ran
  next =>
    cases ran
    cases List.mem_singleton.mp sent
  split at ran
  next =>
    obtain ⟨_, _, ⟨status, rfl⟩ | ⟨login, text, _, _, rfl⟩⟩ := handleRegular_cases ran
    · cases List.mem_singleton.mp sent
      exact wellFormed_status _
    · cases List.mem_singleton.mp sent
  split at ran
  next => exact handleHistory_wellFormed ran sent
  split at ran
  next =>
    obtain ⟨entries, same, _⟩ := handleList_entries ran
    cases same
    cases List.mem_singleton.mp sent
    exact wellFormed_listTokens entries
  split at ran
  next => exact handleKick_wellFormed ran wf sent
  next =>
    cases ran
    cases List.mem_singleton.mp sent
    exact wellFormed_status _

end Handlers

theorem sendMessageJobHandler_wellFormed {job : SendMessageJob} {sid : Int32} {frame : Message}
    (packed : sendMessageJobHandler job = some (.sent sid frame)) : ∀ t ∈ frame.tokens, t.WellFormed := by
  simp only [sendMessageJobHandler, SendMessageJob.tokens, Option.bind_eq_bind, Option.bind_eq_some_iff,
    Option.some.injEq] at packed
  obtain ⟨tokens, made, same⟩ := packed
  cases same
  split at made
  · simp only [Option.bind_eq_some_iff, Option.some.injEq] at made
    obtain ⟨login, _, rfl⟩ := made
    simp
  · cases made
    simp

/-! ### A step of the server -/

/-- A frame goes out on a connection that is there. -/
theorem chatStep_frames {md5hex : Block → Block} {s : Chat} {action : ChatAction} {did : List ChatSighting}
    {rest : Option Chat} (agree : CoreInv s.core)
    (wf : ∀ c msg env, action = .session (.handle c msg env) → ∀ t ∈ msg.tokens, t.WellFormed)
    (taken : chatStep md5hex s action = some (did, rest)) {c : Nat} {frame : Message} (seen : .frame c frame ∈ did) :
    c < s.core.conns.next ∧ ∀ t ∈ frame.tokens, t.WellFormed := by
  -- A frame is seen on the connection that the socket belongs to.
  have inside : ∀ {sockid c}, s.core.client sockid = some c → c < s.core.conns.next := by
    intro sockid c found
    obtain ⟨conn, there, _⟩ := agree.client_eq_some found
    exact agree.bounded c conn there
  cases chatStep_transition taken with
  | session action did rest ran =>
    obtain ⟨o, done, shown⟩ := List.mem_flatMap.mp seen
    rcases List.mem_cons.mp shown with wrong | shown
    · cases wrong
    obtain ⟨sockid, _, _, sent, found, same⟩ := Core.mem_frames shown
    cases same
    refine ⟨inside found, ?_⟩
    cases sessionStep_transition ran with
    | accepted sockid' unused => cases done
    | closed sockid' env effects _ closed =>
      obtain ⟨effect, member, rfl⟩ := List.mem_map.mp done
      cases sent
      rcases closeConnection_effects closed _ member with ⟨_, wrong⟩ | ⟨_, _, wrong⟩ <;> cases wrong
    | handled c' msg env conn effects mgr db there handled =>
      obtain ⟨effect, member, rfl⟩ := List.mem_map.mp done
      cases sent
      exact processMessageJobHandler_wellFormed handled (wf c' msg env rfl) member
  | broadcast => cases seen
  | crashed => cases seen
  | sent i job effect there packed =>
    obtain ⟨sockid, _, _, rfl, found, same⟩ := Core.mem_frames seen
    cases same
    exact ⟨inside found, sendMessageJobHandler_wellFormed packed⟩

/-- Jobs are seen of a worker that handles a message, and then nothing else is observed. -/
theorem chatStep_byJob {md5hex : Block → Block} {s : Chat} {action : ChatAction} {did : List ChatSighting}
    {rest : Option Chat} (taken : chatStep md5hex s action = some (did, rest)) :
    (∀ c type effect, .byJob c type effect ∉ observations did) ∨
      ∃ c msg env conn effects mgr db, action = .session (.handle c msg env) ∧ s.core.conns.read c = some conn ∧
        processMessageJobHandler md5hex env conn.sockid s.core.mgr s.core.db msg = some (effects, mgr, db) ∧
        observations did = effects.map (.byJob c msg.msgType) := by
  cases chatStep_transition taken with
  | session action did rest ran =>
    rw [observations_sights]
    cases sessionStep_transition ran with
    | accepted => exact .inl (by simp)
    | closed => exact .inl (by simp)
    | handled c msg env conn effects mgr db there handled =>
      exact .inr ⟨c, msg, env, conn, effects, mgr, db, rfl, there, handled, rfl⟩
  | broadcast => exact .inl (by simp [observations])
  | crashed => exact .inl (by simp [observations])
  | sent =>
    rw [observations_frames]
    exact .inl (by simp)

/-! ### The texts of the users -/

/-- The text of a REGULAR, as the server reads it. -/
def Message.text (msg : Message) : List Block :=
  if msg.msgType = messageClientRegular then ((tokenPStr msg.tokens 0).bind pStrToCStr).toList else []

def packageText (package : Block) : List Block := ((unpackPackage package).map Message.text).getD []

/-- A text that is broadcast for a connection. -/
def Observed.text (c : Nat) : Observed → Option Block
  | .byJob c' _ (.broadcast evt) => if c' = c ∧ evt.type = messageServerRegular then some evt.msg else none
  | _ => none

/-- Texts are those of jobs of the connection. -/
theorem filterMap_text_eq_nil {seen : List Observed} {c : Nat}
    (silent : ∀ type evt, .byJob c type (.broadcast evt) ∈ seen → evt.type ≠ messageServerRegular) :
    seen.filterMap (Observed.text c) = [] := by
  rw [List.filterMap_eq_nil_iff]
  intro o member
  cases o with
  | byListener effect => rfl
  | byJob c' type effect =>
    cases effect with
    | broadcast evt =>
      apply if_neg
      rintro ⟨rfl, regular⟩
      exact silent type evt member regular
    | _ => rfl

/-- A handler broadcasts the text of its message, or none. -/
theorem processMessageJobHandler_texts {md5hex : Block → Block} {env : Env} {sockid : Int32} {mgr mgr' : ConnMgr}
    {db db' : Db} {msg : Message} {effects : List Effect}
    (ran : processMessageJobHandler md5hex env sockid mgr db msg = some (effects, mgr', db')) (c : Nat) :
    List.Sublist ((effects.map (Observed.byJob c msg.msgType)).filterMap (Observed.text c)) msg.text := by
  by_cases regular : msg.msgType = messageClientRegular
  · obtain ⟨type, tokens⟩ := msg
    subst regular
    have other : ¬messageClientRegular = messageClientLogin ∧ ¬messageClientRegular = messageClientLogout := by decide
    have ran' := ran
    rw [processMessageJobHandler, if_neg other.1, if_neg other.2, if_pos rfl] at ran'
    obtain ⟨_, _, ⟨status, rfl⟩ | ⟨login, text, _, _, rfl⟩⟩ := handleRegular_cases ran'
    · exact List.nil_sublist _
    · obtain ⟨mem, first, copied, _⟩ := handled_regular ran (List.mem_singleton.mpr rfl)
      simp [Observed.text, Message.text, first, copied]
  · have silent : (effects.map (Observed.byJob c msg.msgType)).filterMap (Observed.text c) = [] := by
      apply filterMap_text_eq_nil
      intro type evt member broadcast
      obtain ⟨effect, inside, same⟩ := List.mem_map.mp member
      cases same
      exact regular (regular_of_broadcast ran inside broadcast).1
    rw [silent]
    exact List.nil_sublist _

/-! ### What is done for a client -/

/-- The handler has done this for a message that was unpacked from the package. -/
inductive Caused (md5hex : Block → Block) (package : Block) (type : UInt8) (effect : Effect) : Prop
  | intro {env : Env} {sockid : Int32} {mgr mgr' : ConnMgr} {db db' : Db} {msg : Message} {effects : List Effect}
      (unpacked : unpackPackage package = some msg) (same : msg.msgType = type)
      (ran : processMessageJobHandler md5hex env sockid mgr db msg = some (effects, mgr', db'))
      (member : effect ∈ effects)

/-- The server has authors for its texts, and what its jobs do for the connection of a client
they do for what was taken of that client: each text is that of a package of its own. -/
structure Heard (md5hex : Block → Block) (db : Db) (trace : List TalkSighting) (w : Talk) : Prop where
  authored : Authored db (serverTrace trace) w.server
  frames : ∀ c msg, .frame c msg ∈ serverTrace trace →
    c < w.server.core.conns.next ∧ ∀ t ∈ msg.tokens, t.WellFormed
  jobs : ∀ c type effect, .byJob c type effect ∈ observations (serverTrace trace) →
    c < w.server.core.conns.next ∧ ∃ package, Caused md5hex package type effect ∧
      ∀ i, .accepted i c ∈ trace → package ∈ takenFrom i trace
  texts : ∀ i c, .accepted i c ∈ trace → List.Sublist
    ((observations (serverTrace trace)).filterMap (Observed.text c)) ((takenFrom i trace).flatMap packageText)

/-- What a worker handles on the connection of a client is the package that is taken of it. -/
theorem Prepares.handled {md5hex : Block → Block} {db : Db} {trace : List TalkSighting} {w : Talk}
    (parties : Parties md5hex db trace w) {c : Nat} {msg : Message} {env : Env} {first : List TalkSighting}
    {peers : List Peer} (prepares : Prepares w (.session (.handle c msg env)) first peers) :
    ∃ package, unpackPackage package = some msg ∧ ∀ i, .accepted i c ∈ trace → takenFrom i first = [package] := by
  -- A client that was accepted on a connection is still behind it, so nobody else is.
  have attached : ∀ i, .accepted i c ∈ trace → ∃ peer ∈ w.peers, peer.conn = some c := by
    intro i accepted
    cases there : w.peers[i]? with
    | none => exact absurd accepted ((parties.absent i there).2 c)
    | some peer => exact ⟨peer, List.mem_of_getElem? there, ((parties.each i peer there).attached c).mp accepted⟩
  cases prepares with
  | handle i _ _ peer package up _ there conn _ unpacked =>
    refine ⟨package, unpacked, ?_⟩
    intro j accepted
    have same : i = j := parties.apart i j c (((parties.each i peer there).attached c).mpr conn) accepted
    simp [takenFrom, same]
  | handleOther _ _ package _ unpacked other =>
    refine ⟨package, unpacked, ?_⟩
    intro j accepted
    obtain ⟨peer, member, conn⟩ := attached j accepted
    exact absurd conn (other peer member)

namespace Heard

variable {md5hex : Block → Block} {db : Db} {clients : Nat} {trace did : List TalkSighting} {w w' : Talk}

theorem init (db : Db) (unique : UniqueUids db) (clients : Nat) : Heard md5hex db [] (Talk.init db clients) where
  authored := .init db unique
  frames c msg member := by cases member
  jobs c type effect member := by cases member
  texts i c member := by cases member

/-- A step of a client is not heard. -/
theorem unheard (heard : Heard md5hex db trace w) (i : Nat) (seen : List ClientSighting) (same : w'.server = w.server) :
    Heard md5hex db (trace ++ seen.map (.client i)) w' := by
  have earlier : ∀ j c, .accepted j c ∈ trace ++ seen.map (.client i) → .accepted j c ∈ trace := by
    intro j c member
    simpa using member
  constructor
  · simpa [same] using heard.authored
  · simpa [same] using heard.frames
  · intro c type effect member
    rw [serverTrace_append, serverTrace_client, List.append_nil] at member
    obtain ⟨inside, package, caused, taken⟩ := heard.jobs c type effect member
    refine ⟨same ▸ inside, package, caused, ?_⟩
    intro j accepted
    simpa using taken j (earlier j c accepted)
  · intro j c accepted
    simpa using heard.texts j c (earlier j c accepted)

section Served

variable {action : ChatAction} {first : List TalkSighting} {peers : List Peer} {seen : List ChatSighting}

/-- An acceptance is old, or all of the step, on a connection that is new. -/
theorem accepted_cases (transition : TalkTransition md5hex w (first ++ seen.map .server) (some w'))
    (prepares : Prepares w action first peers) {i c : Nat}
    (accepted : .accepted i c ∈ trace ++ (first ++ seen.map .server)) :
    .accepted i c ∈ trace ∨ seen = [] ∧ w.server.core.conns.next = c := by
  rcases List.mem_append.mp accepted with old | new
  · exact .inl old
  · rcases transition.accepts with none | ⟨j, only, silent, _⟩
    · exact absurd new (none i c)
    · rw [prepares.serverTrace_eq] at silent
      exact .inr ⟨silent, (only i c new).2.symm⟩

theorem served_frames (heard : Heard md5hex db trace w) (parties : Parties md5hex db trace w)
    (prepares : Prepares w action first peers) (ran : chatStep md5hex w.server action = some (seen, some w'.server))
    {c : Nat} {frame : Message} (member : .frame c frame ∈ serverTrace trace ++ seen) :
    c < w'.server.core.conns.next ∧ ∀ t ∈ frame.tokens, t.WellFormed := by
  have next := chatStep_next_le ran
  rcases List.mem_append.mp member with old | new
  · obtain ⟨inside, wf⟩ := heard.frames c frame old
    exact ⟨Nat.lt_of_lt_of_le inside next, wf⟩
  · have asked : ∀ c msg env, action = .session (.handle c msg env) → ∀ t ∈ msg.tokens, t.WellFormed := by
      rintro c msg env rfl
      obtain ⟨package, unpacked, _⟩ := prepares.handled parties
      exact wellFormed_of_unpackPackage unpacked
    obtain ⟨inside, wf⟩ := chatStep_frames heard.authored.authentic.agree asked ran new
    exact ⟨Nat.lt_of_lt_of_le inside next, wf⟩

theorem served_jobs (heard : Heard md5hex db trace w) (parties : Parties md5hex db trace w)
    (transition : TalkTransition md5hex w (first ++ seen.map .server) (some w'))
    (prepares : Prepares w action first peers) (ran : chatStep md5hex w.server action = some (seen, some w'.server))
    {c : Nat} {type : UInt8} {effect : Effect}
    (member : .byJob c type effect ∈ observations (serverTrace trace) ++ observations seen) :
    c < w'.server.core.conns.next ∧ ∃ package, Caused md5hex package type effect ∧
      ∀ i, .accepted i c ∈ trace ++ (first ++ seen.map .server) →
        package ∈ takenFrom i trace ++ takenFrom i first := by
  have next := chatStep_next_le ran
  rcases List.mem_append.mp member with old | new
  · obtain ⟨inside, package, caused, taken⟩ := heard.jobs c type effect old
    refine ⟨Nat.lt_of_lt_of_le inside next, package, caused, ?_⟩
    intro i accepted
    rcases accepted_cases transition prepares accepted with before | ⟨_, fresh⟩
    · exact List.mem_append_left _ (taken i before)
    · omega
  · rcases chatStep_byJob ran with none | ⟨c', msg, env, conn, effects, mgr, db', rfl, there, handled, all⟩
    · exact absurd new (none c type effect)
    · rw [all] at new
      obtain ⟨effect, inside, same⟩ := List.mem_map.mp new
      cases same
      have small := heard.authored.authentic.agree.bounded c conn there
      obtain ⟨package, unpacked, taken⟩ := prepares.handled parties
      refine ⟨Nat.lt_of_lt_of_le small next, package, .intro unpacked rfl handled inside, ?_⟩
      intro i accepted
      rcases accepted_cases transition prepares accepted with before | ⟨_, fresh⟩
      · rw [taken i before]
        simp
      · omega

theorem served_texts (heard : Heard md5hex db trace w) (parties : Parties md5hex db trace w)
    (transition : TalkTransition md5hex w (first ++ seen.map .server) (some w'))
    (prepares : Prepares w action first peers) (ran : chatStep md5hex w.server action = some (seen, some w'.server))
    {i c : Nat} (accepted : .accepted i c ∈ trace ++ (first ++ seen.map .server)) :
    List.Sublist ((observations (serverTrace trace) ++ observations seen).filterMap (Observed.text c))
      ((takenFrom i trace ++ takenFrom i first).flatMap packageText) := by
  rw [List.filterMap_append, List.flatMap_append]
  rcases accepted_cases transition prepares accepted with before | ⟨rfl, fresh⟩
  · apply (heard.texts i c before).append
    rcases chatStep_byJob ran with none | ⟨c', msg, env, conn, effects, mgr, db', rfl, there, handled, all⟩
    · rw [filterMap_text_eq_nil fun type evt member => absurd member (none c type _)]
      exact List.nil_sublist _
    · rw [all]
      by_cases same : c' = c
      · -- The job is for the package that the step takes.
        subst same
        obtain ⟨package, unpacked, taken⟩ := prepares.handled parties
        rw [taken i before, List.flatMap_singleton, packageText, unpacked]
        exact processMessageJobHandler_texts handled c'
      · have silent : (effects.map (Observed.byJob c' msg.msgType)).filterMap (Observed.text c) = [] := by
          apply filterMap_text_eq_nil
          intro type evt member
          obtain ⟨effect, _, wrong⟩ := List.mem_map.mp member
          cases wrong
          exact absurd rfl same
        rw [silent]
        exact List.nil_sublist _
  · -- Nothing has been done for a connection that is new.
    have silent : (observations (serverTrace trace)).filterMap (Observed.text c) = [] := by
      apply filterMap_text_eq_nil
      intro type evt member
      have inside := (heard.jobs c type (.broadcast evt) member).1
      omega
    rw [silent]
    exact List.nil_sublist _

/-- What the server does in a step is for the package that is taken in it. -/
theorem served (heard : Heard md5hex db trace w) (parties : Parties md5hex db trace w)
    (transition : TalkTransition md5hex w (first ++ seen.map .server) (some w'))
    (prepares : Prepares w action first peers) (ran : chatStep md5hex w.server action = some (seen, some w'.server)) :
    Heard md5hex db (trace ++ (first ++ seen.map .server)) w' := by
  have taken_eq : ∀ i, takenFrom i (trace ++ (first ++ seen.map .server)) = takenFrom i trace ++ takenFrom i first := by
    intro i
    rw [takenFrom_append, takenFrom_append, takenFrom_server, List.append_nil]
  constructor
  · rw [serverTrace_append, prepares.serverTrace_eq]
    exact heard.authored.step action ran
  · intro c frame member
    rw [serverTrace_append, prepares.serverTrace_eq] at member
    exact heard.served_frames parties prepares ran member
  · intro c type effect member
    rw [serverTrace_append, prepares.serverTrace_eq, observations_append] at member
    simp only [taken_eq]
    exact heard.served_jobs parties transition prepares ran member
  · intro i c accepted
    rw [serverTrace_append, prepares.serverTrace_eq, observations_append, taken_eq]
    exact heard.served_texts parties transition prepares ran accepted

end Served

theorem step (heard : Heard md5hex db trace w) (parties : Parties md5hex db trace w)
    (transition : TalkTransition md5hex w did (some w')) : Heard md5hex db (trace ++ did) w' := by
  rcases transition.server with ⟨⟨i, seen, rfl⟩, same⟩ | ⟨action, first, peers, seen, prepares, rfl, ran⟩
  · exact heard.unheard i seen same
  · exact heard.served parties transition prepares ran

theorem of_ran {cond : Talk → TalkAction → Prop} (unique : UniqueUids db)
    (ran : Ran (Talk.step md5hex) cond (Talk.init db clients) trace w) : Heard md5hex db trace w := by
  have both : Parties md5hex db trace w ∧ Heard md5hex db trace w := by
    apply ran.invariant ⟨.init db clients, .init db unique clients⟩
    intro trace w action did w' inv _ taken
    have transition := Talk.step_transition taken
    exact ⟨inv.1.step transition, inv.2.step inv.1 transition⟩
  exact both.2

end Heard

end AcosChat

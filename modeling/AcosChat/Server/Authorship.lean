import AcosChat.Server.History
import AcosChat.Server.Secrecy

/-!
# Authors

Every REGULAR and HISTORY frame has the text of a REGULAR that a connection had accepted while
it was logged in, and the login of that connection; so has every row that is stored. The text
is followed from the handler over the event, the jobs and the table.
-/
namespace AcosChat

open Std Store Run Bytes

/-- A job on a connection, whose last login this was, has made an event of this text for the
controller. SQLite may have interrupted the look-up of the login. -/
def Wrote (trace : List ChatSighting) (c : Nat) (login : Block) (uid : Int32) (text : Block)
    (tstamp : UInt64) : Prop :=
  ∃ earlier name later, trace = earlier ++ .observed (.byJob c messageClientRegular
      (.broadcast ⟨tstamp, messageServerRegular, name, text, uid⟩)) :: later ∧
    lastLogin (observations earlier) c = some (login, uid) ∧ (name = some login ∨ name = none)

/-- The tokens of a REGULAR or a HISTORY frame. -/
def textTokens (tstamp : UInt64) (login text : Block) : List Token :=
  [.int64 tstamp, cStr login, cStr text]

/-- A REGULAR frame shows what its author wrote before; a HISTORY frame shows that too, or a
row that was there from the start, with the login of its account. -/
def NeedsAuthor (stored : List StoredMessage) (users : List User) (before : List ChatSighting) :
    ChatSighting → Prop
  | .observed _ => True
  | .frame _ msg =>
    (msg.msgType = messageServerRegular → ∃ c login uid text tstamp,
      msg.tokens = textTokens tstamp login text ∧ Wrote before c login uid text tstamp) ∧
    (msg.msgType = messageServerHistory → ∃ login uid text tstamp,
      msg.tokens = textTokens tstamp login text ∧
        ((∃ c, Wrote before c login uid text tstamp) ∨
          (⟨uid, text, tstamp.toInt64⟩ ∈ stored ∧ ∃ hash, ⟨uid, login, hash⟩ ∈ users)))

theorem Wrote.append {trace : List ChatSighting} {c : Nat} {login : Block} {uid : Int32} {text : Block}
    {tstamp : UInt64} (wrote : Wrote trace c login uid text tstamp) (later : List ChatSighting) :
    Wrote (trace ++ later) c login uid text tstamp := by
  obtain ⟨earlier, name, after, rfl, last, named⟩ := wrote
  exact ⟨earlier, name, after ++ later, by simp, last, named⟩

/-! ### The frames of a handler -/

/-- The login that `get_login_by_uid` returns is that of the account. -/
theorem getLoginByUid_mem {noise : List Noise} {uid : Int32} {db : Db} {login : Block}
    (returned : getLoginByUid noise uid db = some (some login)) : ∃ hash, ⟨uid, login, hash⟩ ∈ db.users := by
  have known := eachRow_invariant (fun (_ : Option Block) login => some login)
    (fun found => ∀ name, found = some name → name ∈ selectLogin db uid) (selectLogin db uid) (by
      intro _ name member _ name' same
      cases same
      exact member) noise false none (by simp)
  unfold getLoginByUid at returned
  split at returned
  next => cases returned
  next => cases returned
  next login' done =>
    cases returned
    rw [done] at known
    obtain ⟨user, member, rfl⟩ := List.mem_map.mp (known login rfl)
    simp only [List.mem_filter, decide_eq_true_eq] at member
    exact ⟨user.passwordHash, member.2 ▸ member.1⟩

/-- `browse_history` visits rows of the table. -/
theorem browseHistory_mem {noise : List Noise} {cnt : Int} {db : Db} {rows : List StoredMessage}
    (browsed : browseHistory noise cnt db = some rows) : ∀ row ∈ rows, row ∈ db.messages := by
  have visited := eachRow_invariant (fun (rows : List StoredMessage) row => rows ++ [row])
    (fun rows => ∀ row ∈ rows, row ∈ db.messages)
    (selectHistory db (toRange 0 cnt maxHistoryLength).toNat) (by
      intro rows row selected kept row' member
      rcases List.mem_append.mp member with member | member
      · exact kept row' member
      · rw [List.mem_singleton.mp member]
        simp only [selectHistory, List.mem_mergeSort] at selected
        exact List.mem_mergeSort.mp (List.mem_of_mem_take selected)) noise false [] (by simp)
  unfold browseHistory at browsed
  dsimp only at browsed
  split at browsed
  next done =>
    cases browsed
    rw [done] at visited
    exact visited
  next => cases browsed
  next => cases browsed

section Handlers

variable {md5hex : Block → Block} {env : Env} {sockid : Int32} {tokens : List Token}
  {mgr mgr' : ConnMgr} {db db' : Db} {effects : List Effect}

/-- Each HISTORY frame is for a row, with the login of its account. -/
theorem handleHistory_frames
    (ran : handleHistory env sockid tokens mgr db = some (effects, mgr', db')) {sockid' : Int32}
    {frame : Message} (sent : .sent sockid' frame ∈ effects) (type : frame.msgType = messageServerHistory) :
    ∃ row ∈ db.messages, ∃ login hash, ⟨row.uid, login, hash⟩ ∈ db.users ∧
      frame.tokens = textTokens row.tstamp.toUInt64 login row.msg := by
  unfold handleHistory at ran
  simp only [Option.bind_eq_bind, Option.bind_eq_some_iff] at ran
  obtain ⟨wrong, _, ran⟩ := ran
  split at ran
  · cases ran
    cases List.mem_singleton.mp sent
    exact absurd type (by decide : messageServerStatus ≠ messageServerHistory)
  simp only [Option.bind_eq_some_iff] at ran
  obtain ⟨_, _, cnt, _, rows, browsed, frames, mapped, ran⟩ := ran
  cases ran
  obtain ⟨⟨row, i⟩, inside, made⟩ := mapM_mem mapped _ sent
  simp only [browseHistoryCallback, Option.bind_eq_bind, Option.bind_eq_some_iff, Option.some.injEq] at made
  obtain ⟨_, named, login, rfl, same⟩ := made
  cases same
  obtain ⟨hash, account⟩ := getLoginByUid_mem named
  have member : row ∈ rows := (List.mem_zipIdx inside).2.2 ▸ List.getElem_mem _
  exact ⟨row, browseHistory_mem browsed row member, login, hash, account, rfl⟩

/-- A handler sends no REGULAR frame, and its HISTORY frames are those of rows. -/
theorem processMessageJobHandler_frames {msg : Message}
    (ran : processMessageJobHandler md5hex env sockid mgr db msg = some (effects, mgr', db'))
    {sockid' : Int32} {frame : Message} (sent : .sent sockid' frame ∈ effects) :
    frame.msgType ≠ messageServerRegular ∧ (frame.msgType = messageServerHistory →
      ∃ row ∈ db.messages, ∃ login hash, ⟨row.uid, login, hash⟩ ∈ db.users ∧
        frame.tokens = textTokens row.tstamp.toUInt64 login row.msg) := by
  by_cases content : IsContent frame.msgType
  · -- content is the answer to LIST or HISTORY
    obtain ⟨_, list | ⟨history, _⟩⟩ := processMessageJobHandler_content ran sockid' frame sent content
    · rw [processMessageJobHandler, list, if_neg (by decide), if_neg (by decide), if_neg (by decide),
        if_neg (by decide), if_pos rfl] at ran
      obtain ⟨_, _, _, rfl⟩ := handleList_cases ran
      cases List.mem_singleton.mp sent
      exact ⟨(by decide : messageServerList ≠ messageServerRegular),
        fun wrong => absurd wrong (by decide : messageServerList ≠ messageServerHistory)⟩
    · rw [processMessageJobHandler, history, if_neg (by decide), if_neg (by decide), if_neg (by decide),
        if_pos rfl] at ran
      refine ⟨?_, handleHistory_frames ran sent⟩
      obtain ⟨_, _, ⟨_, rfl⟩ | frames⟩ := handleHistory_cases ran
      · cases List.mem_singleton.mp sent
        exact (by decide : messageServerStatus ≠ messageServerRegular)
      · obtain ⟨_, same, type⟩ := frames _ sent
        cases same
        rw [type]
        decide
  · exact ⟨fun regular => content (.inl regular), fun history => absurd (.inr (.inl history)) content⟩

end Handlers

/-! ### From the author to the frame -/

/-- The text of an event, a job or a row is one that somebody wrote. -/
def Written (trace : List ChatSighting) (name : Option Block) (uid : Int32) (text : Block)
    (tstamp : UInt64) : Prop :=
  ∃ c login, Wrote trace c login uid text tstamp ∧ (name = some login ∨ name = none)

theorem Written.append {trace : List ChatSighting} {name : Option Block} {uid : Int32} {text : Block}
    {tstamp : UInt64} (written : Written trace name uid text tstamp) (later : List ChatSighting) :
    Written (trace ++ later) name uid text tstamp := by
  obtain ⟨c, login, wrote, named⟩ := written
  exact ⟨c, login, wrote.append later, named⟩

/-- The events, the jobs and the table have texts that were written or were there from the
start, and so have the frames. -/
structure Authored (db : Db) (trace : List ChatSighting) (s : Chat) : Prop where
  authentic : Authentic (observations trace) s.core
  /-- An author keeps the login. -/
  accounts : ∀ c login uid text tstamp, Wrote trace c login uid text tstamp →
    selectLogin s.core.db uid = [login]
  events : ∀ evt ∈ s.broadcasts, evt.type = messageServerMeta ∨
    (evt.type = messageServerRegular ∧ Written trace evt.login evt.uid evt.msg evt.tstamp)
  jobs : ∀ job ∈ s.jobs, job.type = messageServerMeta ∨
    (job.type = messageServerRegular ∧ ∃ uid, Written trace job.login uid job.msg job.tstamp)
  rows : ∀ row ∈ s.core.db.messages, row ∈ db.messages ∨
    Written trace none row.uid row.msg row.tstamp.toUInt64
  frames : Follows (NeedsAuthor db.messages s.core.db.users) trace

/-- Accounts are not taken back. -/
theorem NeedsAuthor.mono {stored : List StoredMessage} {users users' : List User} (kept : users ⊆ users')
    {before : List ChatSighting} {sight : ChatSighting} (met : NeedsAuthor stored users before sight) :
    NeedsAuthor stored users' before sight := by
  cases sight with
  | observed o => trivial
  | frame c msg =>
    obtain ⟨regular, history⟩ := met
    refine ⟨regular, ?_⟩
    intro type
    obtain ⟨login, uid, text, tstamp, same, wrote | ⟨row, hash, account⟩⟩ := history type
    · exact ⟨login, uid, text, tstamp, same, .inl wrote⟩
    · exact ⟨login, uid, text, tstamp, same, .inr ⟨row, hash, kept account⟩⟩

theorem NeedsAuthor.append {stored : List StoredMessage} {users : List User} {before : List ChatSighting}
    {sight : ChatSighting} (met : NeedsAuthor stored users before sight) (later : List ChatSighting) :
    NeedsAuthor stored users (before ++ later) sight := by
  cases sight with
  | observed o => trivial
  | frame c msg =>
    obtain ⟨regular, history⟩ := met
    constructor
    · intro type
      obtain ⟨c, login, uid, text, tstamp, same, wrote⟩ := regular type
      exact ⟨c, login, uid, text, tstamp, same, wrote.append later⟩
    · intro type
      obtain ⟨login, uid, text, tstamp, same, ⟨c, wrote⟩ | row⟩ := history type
      · exact ⟨login, uid, text, tstamp, same, .inl ⟨c, wrote.append later⟩⟩
      · exact ⟨login, uid, text, tstamp, same, .inr row⟩

theorem Grows.messages {db db' : Db} (grows : Grows db db') : db'.messages = db.messages := by
  cases grows <;> rfl

namespace Authored

variable {md5hex : Block → Block} {db : Db} {trace : List ChatSighting} {s : Chat}

theorem init (db : Db) (unique : UniqueUids db) : Authored db [] (Chat.init db) := by
  refine ⟨.init db unique, ?_, nofun, nofun, ?_, follows_nil⟩
  · rintro c login uid text tstamp ⟨earlier, name, later, same, _⟩
    simp at same
  · intro row member
    exact .inl member

/-- A row that is shown with its account's login was there, or shows its author. -/
theorem row_frame (inv : Authored db trace s) {row : StoredMessage} (member : row ∈ s.core.db.messages)
    {login hash : Block} (account : ⟨row.uid, login, hash⟩ ∈ s.core.db.users) {c : Nat} {msg : Message}
    (tokens : msg.tokens = textTokens row.tstamp.toUInt64 login row.msg)
    (regular : msg.msgType ≠ messageServerRegular) :
    NeedsAuthor db.messages s.core.db.users trace (.frame c msg) := by
  refine ⟨fun type => absurd type regular, ?_⟩
  intro _
  refine ⟨login, row.uid, row.msg, row.tstamp.toUInt64, tokens, ?_⟩
  rcases inv.rows row member with old | ⟨c', login', wrote, _⟩
  · exact .inr ⟨by simpa using old, hash, account⟩
  · -- the account still has the login that the author had
    have known := inv.accounts _ _ _ _ _ wrote
    rw [selectLogin_of_mem inv.authentic.unique account] at known
    cases known
    exact .inl ⟨c', wrote⟩

/-- What a session shows. -/
theorem session_frames (inv : Authored db trace s) {action : SessionAction} {did : List Observed}
    {rest : Option Core} (taken : sessionStep md5hex s.core action = some (did, rest)) :
    ∀ sight ∈ did.flatMap s.core.sights, NeedsAuthor db.messages s.core.db.users trace sight := by
  intro sight member
  obtain ⟨o, done, seen⟩ := List.mem_flatMap.mp member
  rcases List.mem_cons.mp seen with rfl | frame
  · trivial
  obtain ⟨sockid, msg, c, sent, found, rfl⟩ := Core.mem_frames frame
  cases sessionStep_transition taken with
  | accepted sockid' unused => cases done
  | closed sockid' env effects _ ran =>
    obtain ⟨effect, inside, rfl⟩ := List.mem_map.mp done
    cases sent
    rcases closeConnection_effects ran _ inside with ⟨_, wrong⟩ | ⟨_, _, wrong⟩ <;> cases wrong
  | handled c' request env conn effects mgr db' there ran =>
    obtain ⟨effect, inside, rfl⟩ := List.mem_map.mp done
    cases sent
    obtain ⟨regular, history⟩ := processMessageJobHandler_frames ran inside
    by_cases type : msg.msgType = messageServerHistory
    · obtain ⟨row, stored, login, hash, account, tokens⟩ := history type
      exact inv.row_frame stored account tokens regular
    · exact ⟨fun wrong => absurd wrong regular, fun wrong => absurd wrong type⟩

/-- What a job shows is what was written. -/
theorem send_frames (inv : Authored db trace s) {job : SendMessageJob} (member : job ∈ s.jobs)
    {effect : Effect} (packed : sendMessageJobHandler job = some effect) :
    ∀ sight ∈ s.core.frames effect, NeedsAuthor db.messages s.core.db.users trace sight := by
  intro sight inside
  obtain ⟨sockid, msg, c, rfl, found, rfl⟩ := Core.mem_frames inside
  simp only [sendMessageJobHandler, Option.bind_eq_bind, Option.bind_eq_some_iff, Option.some.injEq,
    Effect.sent.injEq] at packed
  obtain ⟨tokens, packed, rfl, rfl⟩ := packed
  rcases inv.jobs job member with type | ⟨type, uid, c', login, wrote, named⟩
  · -- a META frame
    constructor
    · intro wrong
      exact absurd (type.symm.trans wrong) (by decide : messageServerMeta ≠ messageServerRegular)
    · intro wrong
      exact absurd (type.symm.trans wrong) (by decide : messageServerMeta ≠ messageServerHistory)
  · constructor
    · intro _
      simp only [SendMessageJob.tokens, if_pos type, Option.bind_eq_bind, Option.bind_eq_some_iff,
        Option.some.injEq] at packed
      obtain ⟨name, known, rfl⟩ := packed
      -- a job without a login is not packed
      rcases named with named | named
      · rw [known] at named
        cases named
        exact ⟨c', login, uid, job.msg, job.tstamp, rfl, wrote⟩
      · rw [known] at named
        cases named
    · intro wrong
      exact absurd (type.symm.trans wrong) (by decide : messageServerRegular ≠ messageServerHistory)

/-! ### The events of a session -/

/-- An event of a session is a META, or it is all that the job of a REGULAR does, on a
connection that is authenticated. -/
theorem session_event (inv : Authored db trace s) {action : SessionAction} {did : List Observed}
    {rest : Option Core} (taken : sessionStep md5hex s.core action = some (did, rest)) {o : Observed}
    {evt : Broadcast} (done : o ∈ did) (event : o.effect = .broadcast evt) :
    evt.type = messageServerMeta ∨ (evt.type = messageServerRegular ∧
      ∃ c login, did = [.byJob c messageClientRegular (.broadcast evt)] ∧
        lastLogin (observations trace) c = some (login, evt.uid) ∧
        selectLogin s.core.db evt.uid = [login] ∧ (evt.login = some login ∨ evt.login = none)) := by
  cases sessionStep_transition taken with
  | accepted sockid unused => cases done
  | closed sockid env effects _ ran =>
    obtain ⟨effect, inside, rfl⟩ := List.mem_map.mp done
    rcases closeConnection_effects ran effect inside with ⟨_, rfl⟩ | ⟨_, _, rfl⟩ <;> cases event
    exact .inl rfl
  | handled c request env conn effects mgr db' there ran =>
    obtain ⟨effect, inside, rfl⟩ := List.mem_map.mp done
    cases event
    have outcome := processMessageJobHandler_outcome ran
    generalize request.msgType = type at outcome
    cases outcome with
    | answered _ _ plain =>
      obtain ⟨_, wrong, _⟩ := plain _ inside
      cases wrong
    | refused _ status => cases List.mem_singleton.mp inside
    | loggedOut => cases List.mem_singleton.mp inside
    | loggedIn _ login uid announced _ _ announces =>
      rcases List.mem_append.mp inside with first | announcement
      · simp [sendStatusCode] at first
      · obtain ⟨_, _, same⟩ := announces _ announcement
        cases same
        exact .inl rfl
    | regular name text authorized named =>
      cases List.mem_singleton.mp inside
      obtain ⟨login, last, row⟩ := inv.authentic.own c conn there authorized
      refine .inr ⟨rfl, c, login, rfl, last, row, ?_⟩
      rcases getLoginByUid_cases row named with known | ⟨unknown, _⟩
      · exact .inl known
      · exact .inr unknown
    | kicked kuid reason text root =>
      rcases List.mem_append.mp inside with kick | announcement
      · obtain ⟨_, _, _, _, wrong | wrong⟩ := mem_kicked kick <;> cases wrong
      · cases List.mem_singleton.mp announcement
        exact .inl rfl

/-! ### Every step -/

/-- What was written by the end of a step was written before it, or by it. -/
theorem wrote_cases {trace new : List ChatSighting} {c : Nat} {login : Block} {uid : Int32} {text : Block}
    {tstamp : UInt64} (wrote : Wrote (trace ++ new) c login uid text tstamp) :
    Wrote trace c login uid text tstamp ∨ ∃ front name back, new = front ++ .observed
        (.byJob c messageClientRegular (.broadcast ⟨tstamp, messageServerRegular, name, text, uid⟩)) :: back ∧
      lastLogin (observations (trace ++ front)) c = some (login, uid) := by
  obtain ⟨earlier, name, later, same, last, named⟩ := wrote
  rcases List.append_eq_append_iff.mp same with ⟨front, rfl, split⟩ | ⟨rest, before, split⟩
  · exact .inr ⟨front, name, later, split, last⟩
  · cases rest with
    | nil =>
      rw [List.append_nil] at before
      subst before
      exact .inr ⟨[], name, later, split.symm, by rwa [List.append_nil]⟩
    | cons sight rest =>
      obtain ⟨rfl, _⟩ := List.cons.inj split
      exact .inl ⟨earlier, name, rest, before, last, named⟩

/-- A step that observes nothing leaves what was written. -/
theorem wrote_of_frames {trace new : List ChatSighting} (silent : ∀ o, .observed o ∉ new) {c : Nat}
    {login : Block} {uid : Int32} {text : Block} {tstamp : UInt64}
    (wrote : Wrote (trace ++ new) c login uid text tstamp) : Wrote trace c login uid text tstamp := by
  rcases wrote_cases wrote with old | ⟨front, name, back, rfl, _⟩
  · exact old
  · exact absurd (List.mem_append_right front List.mem_cons_self) (silent _)

/-- Who writes in a session step is authenticated. -/
theorem wrote_session (inv : Authored db trace s) {action : SessionAction} {did : List Observed}
    {rest : Option Core} (taken : sessionStep md5hex s.core action = some (did, rest)) {c : Nat}
    {login : Block} {uid : Int32} {text : Block} {tstamp : UInt64}
    (wrote : Wrote (trace ++ did.flatMap s.core.sights) c login uid text tstamp) :
    selectLogin s.core.db uid = [login] := by
  rcases wrote_cases wrote with old | ⟨front, name, back, new, last⟩
  · exact inv.accounts _ _ _ _ _ old
  · -- the event is all that the step has done
    have seen : ChatSighting.observed (.byJob c messageClientRegular
        (.broadcast ⟨tstamp, messageServerRegular, name, text, uid⟩)) ∈ did.flatMap s.core.sights := by
      rw [new]
      simp
    obtain ⟨o, done, shown⟩ := List.mem_flatMap.mp seen
    have same : o = .byJob c messageClientRegular
        (.broadcast ⟨tstamp, messageServerRegular, name, text, uid⟩) := by
      rcases List.mem_cons.mp shown with same | frame
      · cases same
        rfl
      · obtain ⟨_, _, _, _, _, wrong⟩ := Core.mem_frames frame
        cases wrong
    subst same
    rcases inv.session_event taken done rfl with wrong | ⟨_, c', login', rfl, last', row, _⟩
    · exact absurd wrong (by decide : messageServerRegular ≠ messageServerMeta)
    · cases List.mem_singleton.mp done
      have first : front = [] := by
        cases front with
        | nil => rfl
        | cons sight front =>
          simp [Core.sights, Core.frames, Observed.effect] at new
      rw [first, List.append_nil, last'] at last
      cases last
      exact row

theorem session_step (inv : Authored db trace s) {action : SessionAction} {did : List Observed} {core : Core}
    (taken : sessionStep md5hex s.core action = some (did, some core)) :
    Authored db (trace ++ did.flatMap s.core.sights)
      ⟨core, s.broadcasts ++ did.filterMap fun o => o.effect.toController, s.jobs⟩ := by
  have grows := sessionStep_grows taken
  constructor
  · rw [observations_append, observations_sights]
    exact inv.authentic.step action taken
  · intro c login uid text tstamp wrote
    exact grows.selectLogin inv.authentic.unique (inv.wrote_session taken wrote)
  · intro evt member
    rcases List.mem_append.mp member with member | member
    · rcases inv.events evt member with other | ⟨type, written⟩
      · exact .inl other
      · exact .inr ⟨type, written.append _⟩
    · obtain ⟨o, done, event⟩ := List.mem_filterMap.mp member
      have effect : o.effect = .broadcast evt := by
        cases same : o.effect <;> rw [same] at event <;> cases event
        rfl
      rcases inv.session_event taken done effect with other | ⟨type, c, login, rfl, last, _, named⟩
      · exact .inl other
      · obtain ⟨tstamp, evtType, name, text, uid⟩ := evt
        obtain rfl : evtType = messageServerRegular := type
        refine .inr ⟨rfl, c, login, ⟨trace, name, [], ?_, last, named⟩, named⟩
        simp [Core.sights, Core.frames, Observed.effect]
  · intro job member
    rcases inv.jobs job member with other | ⟨type, uid, written⟩
    · exact .inl other
    · exact .inr ⟨type, uid, written.append _⟩
  · intro row member
    rw [grows.messages] at member
    rcases inv.rows row member with old | written
    · exact .inl old
    · exact .inr (written.append _)
  · have kept : s.core.db.users ⊆ core.db.users := fun user member => grows.mem member
    have frames := inv.frames.mono fun _ _ => NeedsAuthor.mono kept
    refine frames.append_of_before ?_
    intro sight member later
    exact ((inv.session_frames taken sight member).mono kept).append later

theorem broadcast_step (inv : Authored db trace s) {i : Nat} {noise : List Noise} {evt : Broadcast} {db' : Db}
    (there : s.broadcasts[i]? = some evt) (stored : storeBroadcast noise evt s.core.db = some db') :
    Authored db trace ⟨{ s.core with db := db' }, s.broadcasts.eraseIdx i,
      s.jobs ++ broadcastJobs evt s.core.mgr.sidToUid⟩ := by
  have users := storeBroadcast_users stored
  have event := inv.events evt (List.mem_of_getElem? there)
  constructor
  · exact inv.authentic.stored users
  · intro c login uid text tstamp wrote
    have known := inv.accounts c login uid text tstamp wrote
    unfold selectLogin at known ⊢
    rwa [users]
  · intro other member
    exact inv.events other (List.mem_of_mem_eraseIdx member)
  · intro job member
    rcases List.mem_append.mp member with member | member
    · exact inv.jobs job member
    · -- a job has the text of its event
      obtain ⟨key, _, rfl⟩ := List.mem_map.mp member
      rcases event with other | ⟨type, written⟩
      · exact .inl other
      · exact .inr ⟨type, evt.uid, written⟩
  · intro row member
    rcases event with type | ⟨_, c, login, wrote, _⟩
    · -- a META event is not stored
      rw [storeBroadcast, if_neg (type ▸ by decide)] at stored
      cases stored
      exact inv.rows row member
    · rcases storeBroadcast_cases stored with rfl | rfl
      · exact inv.rows row member
      · rcases List.mem_append.mp member with member | member
        · exact inv.rows row member
        · rw [List.mem_singleton.mp member]
          exact .inr ⟨c, login, by simpa using wrote, .inr rfl⟩
  · rw [users]
    exact inv.frames

/-- Every step keeps it. -/
theorem step (inv : Authored db trace s) (action : ChatAction) {did : List ChatSighting} {s' : Chat}
    (taken : chatStep md5hex s action = some (did, some s')) : Authored db (trace ++ did) s' := by
  generalize after : some s' = rest at taken
  cases chatStep_transition taken with
  | session action seen core ran =>
    obtain ⟨core', rfl, rfl⟩ := Option.map_eq_some_iff.mp after.symm
    exact inv.session_step ran
  | broadcast i noise evt db' there stored =>
    cases after
    rw [List.append_nil]
    exact inv.broadcast_step there stored
  | crashed i job there unpacked => cases after
  | sent i job effect there packed =>
    cases after
    have silent : ∀ o, .observed o ∉ s.core.frames effect := by
      intro o member
      obtain ⟨_, _, _, _, _, wrong⟩ := Core.mem_frames member
      cases wrong
    refine ⟨?_, ?_, ?_, ?_, ?_, ?_⟩
    · rw [observations_append, observations_frames, List.append_nil]
      exact inv.authentic
    · intro c login uid text tstamp wrote
      exact inv.accounts _ _ _ _ _ (wrote_of_frames silent wrote)
    · intro evt member
      exact (inv.events evt member).imp_right fun ⟨type, written⟩ => ⟨type, written.append _⟩
    · intro job member
      exact (inv.jobs job (List.mem_of_mem_eraseIdx member)).imp_right
        fun ⟨type, uid, written⟩ => ⟨type, uid, written.append _⟩
    · intro row member
      exact (inv.rows row member).imp_right fun written => written.append _
    · apply inv.frames.append_of_before
      intro sight member later
      exact (inv.send_frames (List.mem_of_getElem? there) packed sight member).append later

end Authored

/-- In every run of the chat a REGULAR frame shows the text of a REGULAR that was accepted
before on a connection, under the login of that connection, with the time of its event; a
HISTORY frame and a row of the table do too, unless the row was there from the start. -/
theorem frames_have_authors (md5hex : Block → Block) (db : Db) (unique : UniqueUids db)
    {trace : List ChatSighting} {s : Chat}
    (ran : Ran (chatStep md5hex) (fun _ _ => True) (Chat.init db) trace s) :
    Follows (NeedsAuthor db.messages s.core.db.users) trace ∧
    ∀ row ∈ s.core.db.messages, row ∈ db.messages ∨
      ∃ c login, Wrote trace c login row.uid row.msg row.tstamp.toUInt64 := by
  have inv : Authored db trace s :=
    ran.invariant (.init db unique) fun _ _ action _ _ inv _ taken => inv.step action taken
  refine ⟨inv.frames, ?_⟩
  intro row member
  exact (inv.rows row member).imp_right fun ⟨c, login, wrote, _⟩ => ⟨c, login, wrote⟩

/-- Root's text is sent to root, and stored. -/
theorem kept_shown : ∃ trace s,
    replay (chatStep fun _ => emptyDigest) (Chat.init (preparedDb emptyDigest)) (kept (ascii "hi")) =
      some (trace, s) ∧
    .frame 0 ⟨messageServerRegular, textTokens 0 (ascii "root") (ascii "hi")⟩ ∈ trace ∧
    ⟨rootUid, ascii "hi", 0⟩ ∈ s.core.db.messages :=
  ⟨_, _, rfl, by decide, by decide⟩

theorem frames_have_authors_kept : ∃ trace s,
    replay (chatStep fun _ => emptyDigest) (Chat.init (preparedDb emptyDigest)) (kept (ascii "hi")) =
      some (trace, s) ∧
    .frame 0 ⟨messageServerRegular, textTokens 0 (ascii "root") (ascii "hi")⟩ ∈ trace ∧
    Follows (NeedsAuthor [] s.core.db.users) trace ∧ ∃ c login, Wrote trace c login rootUid (ascii "hi") 0 := by
  obtain ⟨trace, s, replayed, shown, stored⟩ := kept_shown
  obtain ⟨follows, rows⟩ := frames_have_authors (fun _ => emptyDigest) (preparedDb emptyDigest)
    (by unfold UniqueUids; decide) (ran_of_replay (meets_of_forall (fun _ _ => trivial) _ _) replayed)
  refine ⟨trace, s, replayed, shown, follows, ?_⟩
  rcases rows _ stored with old | wrote
  · cases old
  · exact wrote

end AcosChat

import AcosChat.Db.Busy
import AcosChat.Lib.Run
import AcosChat.Server.Invariant

/-!
# Authentication

Runs of whole handlers, in any order: connections are accepted and closed, and workers
process messages of connections that are still open. What is observed is every effect with
the party that had it. The uid that a socket is mapped to is the one that its present
owner logged in as, although the number of a socket comes back after a close.
-/
namespace AcosChat

open Std Store Run Bytes

inductive SessionAction where
  /-- `accept_connection`, with a result of `accept` that is not in use. -/
  | accept (sockid : Int32)
  | close (sockid : Int32) (env : Env)
  /-- `process_message_job_handler` for the connection at an address. -/
  | handle (conn : Nat) (msg : Message) (env : Env)

/-- An effect, by the listener or by a job on a message of this type. -/
inductive Observed where
  | byListener (effect : Effect)
  | byJob (conn : Nat) (type : UInt8) (effect : Effect)
deriving DecidableEq, Repr

def sessionStep (md5hex : Block → Block) : Step Core SessionAction Observed
  | core, .accept sockid =>
    if sockid ∈ core.openSockets then none else some ([], some (core.acceptConnection sockid))
  | core, .close sockid env =>
    (core.closeConnection env sockid).map fun (effects, rest) => (effects.map .byListener, rest)
  | core, .handle c msg env => do
    let conn ← core.conns.read c
    let (effects, rest) ← core.handleJob md5hex env conn msg
    some (effects.map (.byJob c msg.msgType), some rest)

/-- The ways in which a step can go. -/
inductive SessionTransition (md5hex : Block → Block) (core : Core) :
    SessionAction → List Observed → Option Core → Prop
  | accepted (sockid : Int32) (unused : sockid ∉ core.openSockets) :
      SessionTransition md5hex core (.accept sockid) [] (some (core.acceptConnection sockid))
  | closed (sockid : Int32) (env : Env) (effects : List Effect) (rest : Option Core)
      (ran : core.closeConnection env sockid = some (effects, rest)) :
      SessionTransition md5hex core (.close sockid env) (effects.map .byListener) rest
  | handled (c : Nat) (msg : Message) (env : Env) (conn : Connection) (effects : List Effect)
      (mgr : ConnMgr) (db : Db) (there : core.conns.read c = some conn)
      (ran : processMessageJobHandler md5hex env conn.sockid core.mgr core.db msg = some (effects, mgr, db)) :
      SessionTransition md5hex core (.handle c msg env) (effects.map (.byJob c msg.msgType))
        (some { core with mgr := mgr, db := db })

theorem sessionStep_transition {md5hex : Block → Block} {core : Core} {action : SessionAction}
    {did : List Observed} {rest : Option Core} (taken : sessionStep md5hex core action = some (did, rest)) :
    SessionTransition md5hex core action did rest := by
  cases action with
  | accept sockid =>
    rw [sessionStep] at taken
    split at taken
    next => cases taken
    next unused =>
      cases taken
      exact .accepted sockid unused
  | close sockid env =>
    obtain ⟨⟨effects, _⟩, ran, same⟩ := Option.map_eq_some_iff.mp taken
    cases same
    exact .closed sockid env _ _ ran
  | handle c msg env =>
    simp only [sessionStep, Core.handleJob, Option.bind_eq_bind, Option.bind_eq_some_iff, Prod.exists,
      Option.some.injEq, Prod.mk.injEq] at taken
    obtain ⟨conn, there, _, _, ⟨effects, mgr, db, ran, rfl, rfl⟩, rfl, rfl⟩ := taken
    exact .handled c msg env conn _ mgr db there ran

/-- A session adds accounts at most. -/
theorem sessionStep_grows {md5hex : Block → Block} {core core' : Core} {action : SessionAction} {did : List Observed}
    (taken : sessionStep md5hex core action = some (did, some core')) : Grows core.db core'.db := by
  generalize after : some core' = rest at taken
  cases sessionStep_transition taken with
  | accepted sockid unused =>
    cases after
    unfold Core.acceptConnection
    split <;> exact .same
  | closed sockid env effects _ ran =>
    subst after
    unfold Core.closeConnection at ran
    dsimp only at ran
    split at ran
    · cases ran
    · simp only [Option.bind_eq_bind, Option.bind_eq_some_iff, Option.some.injEq, Prod.mk.injEq] at ran
      obtain ⟨_, _, _, rfl⟩ := ran
      exact .same
  | handled c request env conn effects mgr db' there ran =>
    cases after
    have outcome := processMessageJobHandler_outcome ran
    generalize request.msgType = type at outcome
    cases outcome with
    | refused _ _ grows | loggedIn _ _ _ _ grows _ _ => exact grows
    | answered _ _ _ | loggedOut | regular _ _ _ _ | kicked _ _ _ _ => exact .same

/-- What is seen of a successful LOGIN on a connection. -/
def Observed.login (c : Nat) : Observed → Option (Block × Int32)
  | .byJob c' _ (.loggedIn login uid) => if c' = c then some (login, uid) else none
  | _ => none

/-- The latest successful LOGIN on a connection. -/
def lastLogin (trace : List Observed) (c : Nat) : Option (Block × Int32) :=
  (trace.filterMap (Observed.login c)).getLast?

theorem lastLogin_append (trace did : List Observed) (c : Nat) :
    lastLogin (trace ++ did) c = (lastLogin did c).or (lastLogin trace c) := by
  rw [lastLogin, List.filterMap_append, List.getLast?_append]
  rfl

theorem lastLogin_none {did : List Observed} {c : Nat} (without : ∀ seen ∈ did, seen.login c = none) :
    lastLogin did c = none := by
  rw [lastLogin, List.filterMap_eq_nil_iff.mpr without]
  rfl

/-- A handler that logs a connection in does this for no other. -/
theorem lastLogin_login (c : Nat) (login : Block) (uid : Int32) {sockid : Int32} {announced : List Effect}
    (announces : Announces announced) (c' : Nat) :
    lastLogin (([.loggedIn login uid, sendStatusCode sockid msgStatusOk] ++ announced).map
      (.byJob c messageClientLogin)) c' = if c = c' then some (login, uid) else none := by
  rw [List.cons_append, List.map_cons, ← List.singleton_append, lastLogin_append, lastLogin_none, Option.none_or]
  · unfold lastLogin Observed.login
    split <;> simp_all
  · intro observed member
    obtain ⟨effect, inside, rfl⟩ := List.mem_map.mp member
    rcases List.mem_append.mp inside with status | announcement
    · rw [List.mem_singleton.mp status]
      rfl
    · obtain ⟨_, _, rfl⟩ := announces effect announcement
      rfl

/-- A connection has logged in last as this uid, under the login that the uid has. -/
def AuthenticatedAs (trace : List Observed) (db : Db) (c : Nat) (login : Block) (uid : Int32) : Prop :=
  lastLogin trace c = some (login, uid) ∧ selectLogin db uid = [login]

/-- The connections, clients and accounts agree, and the uid of a connection is the one
that it has logged in as. -/
structure Authentic (trace : List Observed) (core : Core) : Prop where
  agree : CoreInv core
  unique : UniqueUids core.db
  own : ∀ c conn, core.conns.read c = some conn → core.mgr.getUid conn.sockid ≠ nullUid →
    ∃ login, AuthenticatedAs trace core.db c login (core.mgr.getUid conn.sockid)

theorem selectLogin_eq {db : Db} {uid : Int32} {login : Block} (row : selectLogin db uid = [login]) :
    ∃ hash, ⟨uid, login, hash⟩ ∈ db.users := by
  have inside : login ∈ selectLogin db uid := by simp [row]
  obtain ⟨user, member, rfl⟩ := List.mem_map.mp inside
  simp only [List.mem_filter, decide_eq_true_eq] at member
  exact ⟨user.passwordHash, member.2 ▸ member.1⟩

theorem Grows.selectLogin {db db' : Db} (grows : Grows db db') (unique : UniqueUids db)
    {uid : Int32} {login : Block} (row : selectLogin db uid = [login]) :
    selectLogin db' uid = [login] := by
  obtain ⟨hash, member⟩ := selectLogin_eq row
  exact selectLogin_of_mem (grows.unique unique) (grows.mem member)

namespace Authentic

variable {md5hex : Block → Block} {trace : List Observed} {core : Core}

theorem init (db : Db) (unique : UniqueUids db) : Authentic [] (Core.init db) := by
  refine ⟨.init db, unique, ?_⟩
  intro c conn there
  cases there

/-- A uid is that of the connection that the socket belongs to now. -/
theorem owner (inv : Authentic trace core) (sockid : Int32) (mapped : core.mgr.getUid sockid ≠ nullUid) :
    ∃ c conn login, core.client sockid = some c ∧ core.conns.read c = some conn ∧
      conn.sockid = sockid ∧ AuthenticatedAs trace core.db c login (core.mgr.getUid sockid) := by
  have connected : wordOfInt sockid ∈ core.mgr.sidToUid := by
    by_contra absent
    apply mapped
    rw [ConnMgr.getUid, ExtTreeMap.getElem?_eq_none absent]
    decide
  obtain ⟨c, found⟩ := (inv.agree.mem_clients sockid).mp ((inv.agree.keys _).mp connected)
  obtain ⟨conn, there, rfl⟩ := inv.agree.client_eq_some found
  obtain ⟨login, authenticated⟩ := inv.own c conn there mapped
  exact ⟨c, conn, login, found, there, rfl, authenticated⟩

theorem acceptConnection (inv : Authentic trace core) (sockid : Int32)
    (unused : sockid ∉ core.openSockets) : Authentic (trace ++ []) (core.acceptConnection sockid) := by
  rw [List.append_nil]
  refine ⟨inv.agree.acceptConnection sockid unused, ?_, ?_⟩
  · unfold Core.acceptConnection
    split <;> exact inv.unique
  · intro c conn there mapped
    unfold Core.acceptConnection at there mapped ⊢
    split
    next positive =>
      simp only [if_pos positive, ConnMgr.getUid_addSid, read_alloc] at there mapped ⊢
      split at there
      next =>
        cases there
        -- A uid would be that of an open connection with this number.
        obtain ⟨c', conn', _, _, there', same, _⟩ := inv.owner sockid mapped
        exact absurd ((inv.agree.mem_openSockets sockid).mpr ⟨c', conn', there', same⟩) unused
      next => exact inv.own c conn there mapped
    next failed =>
      rw [if_neg failed] at there mapped
      exact inv.own c conn there mapped

theorem closeConnection (inv : Authentic trace core) (sockid : Int32) (env : Env)
    {effects : List Effect} {rest : Core}
    (ran : core.closeConnection env sockid = some (effects, some rest)) :
    Authentic (trace ++ effects.map .byListener) rest := by
  -- what the listener does is no login of any connection
  have silent : ∀ c, lastLogin (effects.map .byListener) c = none := by
    intro c
    apply lastLogin_none
    intro seen member
    obtain ⟨effect, _, rfl⟩ := List.mem_map.mp member
    rfl
  cases found : core.client sockid with
  | none =>
    simp only [Core.closeConnection, found, Option.bind_none, Option.some.injEq, Prod.mk.injEq] at ran
    cases ran.2
  | some c =>
    obtain ⟨conn, there, rfl⟩ := inv.agree.client_eq_some found
    obtain ⟨conns, events, freed, _, _, same⟩ := inv.agree.closeConnection_eq there env ran
    cases same
    refine ⟨inv.agree.closeConnection there freed, inv.unique, ?_⟩
    intro c' conn' there' mapped
    obtain ⟨_, _, _, reads⟩ := free_eq_some freed
    simp only [reads] at there'
    split at there'
    next => cases there'
    next other =>
      have different : conn'.sockid ≠ conn.sockid := fun same => other (inv.agree.sockid_inj there' there same)
      simp only [ConnMgr.getUid_delSid, if_neg different] at mapped ⊢
      unfold AuthenticatedAs
      rw [lastLogin_append, silent, Option.none_or]
      exact inv.own c' conn' there' mapped

/-- Without a successful LOGIN the sockets keep their uids, and nobody logs in. -/
theorem handled_otherwise (inv : Authentic trace core) (c : Nat) (type : UInt8) {effects : List Effect} {db : Db}
    (grows : Grows core.db db) (silent : ∀ effect ∈ effects, ∀ login uid, effect ≠ .loggedIn login uid) :
    Authentic (trace ++ effects.map (.byJob c type)) { core with db := db } := by
  refine ⟨?_, grows.unique inv.unique, ?_⟩
  · exact ⟨inv.agree.keys, inv.agree.owners, inv.agree.listed, inv.agree.bounded, inv.agree.members⟩
  intro c' conn' there' mapped
  obtain ⟨login, last, row⟩ := inv.own c' conn' there' mapped
  refine ⟨login, ?_, grows.selectLogin inv.unique row⟩
  rw [lastLogin_append, lastLogin_none, Option.none_or]
  · exact last
  · intro seen member
    obtain ⟨effect, inside, rfl⟩ := List.mem_map.mp member
    cases effect with
    | loggedIn login uid => exact absurd rfl (silent _ inside login uid)
    | _ => rfl

/-- A LOGIN that succeeds is the latest of its connection, and of no other. -/
theorem handled_loggedIn (inv : Authentic trace core) {c : Nat} {conn : Connection}
    (there : core.conns.read c = some conn) {did : List Observed} {login : Block} {uid : Int32} {db : Db}
    (seen : ∀ c', lastLogin did c' = if c = c' then some (login, uid) else none)
    (grows : Grows core.db db) (row : ∃ hash, ⟨uid, login, hash⟩ ∈ db.users)
    (agree : CoreInv { core with mgr := (core.mgr.addUid uid).connectSidUid conn.sockid uid, db := db }) :
    Authentic (trace ++ did)
      { core with mgr := (core.mgr.addUid uid).connectSidUid conn.sockid uid, db := db } := by
  have connected : (core.mgr.addUid uid).sidToUid.contains (wordOfInt conn.sockid) = true :=
    ExtTreeMap.contains_iff_mem.mpr
      ((inv.agree.keys _).mpr ((inv.agree.mem_clients _).mpr ⟨c, inv.agree.listed c conn there⟩))
  have unique := grows.unique inv.unique
  refine ⟨agree, unique, ?_⟩
  intro c' conn' there' mapped
  have addUid : ∀ s, (core.mgr.addUid uid).getUid s = core.mgr.getUid s := fun _ => rfl
  simp only [ConnMgr.getUid_connectSidUid _ _ _ _ connected, addUid] at mapped ⊢
  unfold AuthenticatedAs
  rw [lastLogin_append, seen]
  -- Only the socket of the LOGIN is mapped to another uid.
  by_cases same : conn'.sockid = conn.sockid
  · obtain rfl := inv.agree.sockid_inj there' there same
    obtain ⟨hash, member⟩ := row
    rw [if_pos same, if_pos rfl]
    exact ⟨login, rfl, selectLogin_of_mem unique member⟩
  · have other : c ≠ c' := by
      rintro rfl
      rw [there] at there'
      cases there'
      exact same rfl
    rw [if_neg same] at mapped ⊢
    obtain ⟨login', last, row'⟩ := inv.own c' conn' there' mapped
    rw [if_neg other, Option.none_or]
    exact ⟨login', last, grows.selectLogin inv.unique row'⟩

/-- What a handler has done with the authentication of its connection. -/
theorem handled (inv : Authentic trace core) {c : Nat} {conn : Connection} {env : Env} {type : UInt8}
    {effects : List Effect} {mgr : ConnMgr} {db : Db} (there : core.conns.read c = some conn)
    (outcome : Outcome env conn.sockid core.mgr core.db type effects mgr db) :
    Authentic (trace ++ effects.map (.byJob c type)) { core with mgr := mgr, db := db } := by
  have invariant := inv.agree.handled there outcome
  cases outcome with
  | answered type effects plain =>
    refine inv.handled_otherwise c type .same ?_
    rintro effect member login uid rfl
    obtain ⟨_, wrong, _⟩ := plain _ member
    cases wrong
  | refused db status grows => exact inv.handled_otherwise c _ grows (by simp [sendStatusCode])
  | loggedOut => exact inv.handled_otherwise c _ .same (by simp)
  | regular => exact inv.handled_otherwise c _ .same (by simp)
  | kicked kuid reason text root =>
    refine inv.handled_otherwise c _ .same ?_
    rintro effect member login uid rfl
    rcases List.mem_append.mp member with member | member
    · obtain ⟨_, _, key, _, wrong | wrong⟩ := mem_kicked member <;> cases wrong
    · rw [List.mem_singleton] at member
      cases member
  | loggedIn _ login uid announced grows row announces =>
    exact inv.handled_loggedIn there (lastLogin_login c login uid announces) grows row invariant

/-- Every step keeps it. -/
theorem step (inv : Authentic trace core) (action : SessionAction) {did : List Observed} {rest : Core}
    (taken : sessionStep md5hex core action = some (did, some rest)) : Authentic (trace ++ did) rest := by
  cases sessionStep_transition taken with
  | accepted sockid unused => exact inv.acceptConnection sockid unused
  | closed sockid env effects _ ran => exact inv.closeConnection sockid env ran
  | handled c msg env conn effects mgr db there ran =>
    exact inv.handled there (processMessageJobHandler_outcome ran)

end Authentic

/-! ### What is observed is authentic -/

/-- A REGULAR broadcast has the uid that its sender logged in as; kick frames and the close events
of a KICK come from root. -/
def Genuine (trace : List Observed) (db : Db) : Observed → Prop
  | .byJob c _ (.broadcast evt) => evt.type = messageServerRegular →
      evt.uid ≠ nullUid ∧ ∃ login, AuthenticatedAs trace db c login evt.uid
  | .byJob c _ (.sent _ msg) =>
      msg.msgType = messageServerKick → ∃ login, AuthenticatedAs trace db c login rootUid
  | .byJob c type (.closeEvent _) =>
      type ≠ messageClientLogout → ∃ login, AuthenticatedAs trace db c login rootUid
  | .byJob _ _ (.loggedIn ..) | .byJob _ _ (.deleted _) => True
  | .byListener effect => ∀ evt sockid msg, (effect = .broadcast evt → evt.type ≠ messageServerRegular) ∧
      effect ≠ .sent sockid msg ∧ effect ≠ .closeEvent sockid

/-- A REGULAR broadcast has the login of its uid, and not the null pointer. -/
def CarriesLogin (db : Db) : Observed → Prop
  | .byJob _ _ (.broadcast evt) => evt.type = messageServerRegular →
      ∃ login, evt.login = some login ∧ selectLogin db evt.uid = [login]
  | _ => True

/-- For a REGULAR with a text, from a connection that is logged in, the SELECT of
`get_login_by_uid` comes to its DONE, and no BUSY right before that. -/
def FindsLogin (core : Core) : SessionAction → Prop
  | .handle c msg env => msg.msgType = messageClientRegular → msg.tokens ≠ [] →
      ∀ conn, core.conns.read c = some conn → core.mgr.getUid conn.sockid ≠ nullUid →
        EndsWell (answers (selectLogin core.db (core.mgr.getUid conn.sockid)) (env.script 0))
  | _ => True

theorem genuine_answers {trace : List Observed} {db : Db} {c : Nat} {type : UInt8} {sockid : Int32}
    {effects : List Effect} (plain : Answers sockid effects) :
    ∀ effect ∈ effects, Genuine trace db (.byJob c type effect) := by
  intro effect member
  obtain ⟨msg, rfl, other⟩ := plain effect member
  exact fun same => absurd same other

theorem genuine_meta {trace : List Observed} {db : Db} {c : Nat} {type : UInt8} (tstamp : UInt64)
    (text : Block) : Genuine trace db (.byJob c type (metaEvent tstamp text)) :=
  fun same => absurd same (by decide : messageServerMeta ≠ messageServerRegular)

theorem closeConnection_effects {env : Env} {sockid : Int32} {core : Core} {effects : List Effect}
    {rest : Option Core} (ran : core.closeConnection env sockid = some (effects, rest)) :
    ∀ effect ∈ effects, (∃ c, effect = .deleted c) ∨ ∃ tstamp text, effect = metaEvent tstamp text := by
  intro effect member
  unfold Core.closeConnection at ran
  dsimp only at ran
  split at ran
  next =>
    cases ran
    exact .inl ⟨_, List.mem_singleton.mp member⟩
  next =>
    simp only [Option.bind_eq_bind, Option.bind_eq_some_iff] at ran
    obtain ⟨events, announced, ran⟩ := ran
    cases ran
    rcases List.mem_cons.mp member with rfl | member
    · exact .inl ⟨_, rfl⟩
    right
    unfold Core.logoutEvents at announced
    split at announced
    · simp only [Option.bind_eq_bind, Option.bind_eq_some_iff] at announced
      obtain ⟨_, _, announced⟩ := announced
      cases announced
      exact ⟨_, _, List.mem_singleton.mp member⟩
    · cases announced
      cases member

/-- What the job of a connection does is genuine. -/
theorem Authentic.genuine_handled {trace : List Observed} {core : Core} (inv : Authentic trace core)
    {c : Nat} {conn : Connection} {env : Env} {type : UInt8} {effects : List Effect} {mgr : ConnMgr} {db : Db}
    (there : core.conns.read c = some conn)
    (outcome : Outcome env conn.sockid core.mgr core.db type effects mgr db) :
    ∀ effect ∈ effects, Genuine trace core.db (.byJob c type effect) := by
  cases outcome with
  | answered type effects plain => exact genuine_answers plain
  | refused _ status => exact genuine_answers (answers_status _ status)
  | loggedOut =>
    intro effect member
    rw [List.mem_singleton.mp member]
    exact fun other => absurd rfl other
  | loggedIn _ login uid announced _ _ announces =>
    intro effect member
    rcases List.mem_append.mp member with first | announcement
    · rcases List.mem_cons.mp first with rfl | status
      · trivial
      · exact genuine_answers (answers_status _ _) effect status
    · obtain ⟨tstamp, text, rfl⟩ := announces effect announcement
      exact genuine_meta tstamp text
  | regular login text authorized named =>
    intro effect member
    rw [List.mem_singleton.mp member]
    exact fun _ => ⟨authorized, inv.own c conn there authorized⟩
  | kicked kuid reason text root =>
    have authenticated : ∃ login, AuthenticatedAs trace core.db c login rootUid := by
      rw [← root]
      exact inv.own c conn there (root ▸ by decide)
    intro effect member
    rcases List.mem_append.mp member with kick | announcement
    · obtain ⟨_, _, key, _, rfl | rfl⟩ := mem_kicked kick
      · exact fun _ => authenticated
      · exact fun _ => authenticated
    · rw [List.mem_singleton.mp announcement]
      exact genuine_meta _ _

theorem Authentic.genuine {md5hex : Block → Block} {trace : List Observed} {core : Core}
    (inv : Authentic trace core) {action : SessionAction} {did : List Observed} {rest : Option Core}
    (taken : sessionStep md5hex core action = some (did, rest)) :
    ∀ seen ∈ did, Genuine trace core.db seen := by
  intro seen member
  cases sessionStep_transition taken with
  | accepted sockid unused => cases member
  | closed sockid env effects _ ran =>
    obtain ⟨effect, inside, rfl⟩ := List.mem_map.mp member
    intro evt sockid msg
    rcases closeConnection_effects ran effect inside with ⟨c, rfl⟩ | ⟨tstamp, text, rfl⟩
    · exact ⟨nofun, nofun, nofun⟩
    · refine ⟨?_, nofun, nofun⟩
      rintro ⟨⟩
      exact (by decide : messageServerMeta ≠ messageServerRegular)
  | handled c msg env conn effects mgr db there ran =>
    obtain ⟨effect, inside, rfl⟩ := List.mem_map.mp member
    exact inv.genuine_handled there (processMessageJobHandler_outcome ran) effect inside

/-! ### The login of a broadcast -/

/-- `get_login_by_uid` returns the login of an account just where its SELECT comes to the end. -/
theorem getLoginByUid_eq_some_iff {noise : List Noise} {uid : Int32} {db : Db} {name : Block}
    (row : selectLogin db uid = [name]) :
    getLoginByUid noise uid db = some (some name) ↔ EndsWell (answers (selectLogin db uid) noise) := by
  constructor
  · intro returned
    unfold getLoginByUid at returned
    split at returned
    next => cases returned
    next => cases returned
    next login ended => exact (endsWell_of_done ended).1
  · intro endsWell
    rw [getLoginByUid, eachRow_answers endsWell, row]
    rfl

/-- A handler broadcasts a REGULAR for one with a text from a connection that is logged in, with
what `get_login_by_uid` returns. -/
theorem regular_of_broadcast {md5hex : Block → Block} {env : Env} {sockid : Int32} {mgr mgr' : ConnMgr}
    {db db' : Db} {msg : Message} {effects : List Effect} {evt : Broadcast}
    (ran : processMessageJobHandler md5hex env sockid mgr db msg = some (effects, mgr', db'))
    (sent : .broadcast evt ∈ effects) (regular : evt.type = messageServerRegular) :
    msg.msgType = messageClientRegular ∧ msg.tokens ≠ [] ∧ mgr.getUid sockid ≠ nullUid ∧
      evt.uid = mgr.getUid sockid ∧ getLoginByUid (env.script 0) (mgr.getUid sockid) db = some evt.login := by
  have outcome := processMessageJobHandler_outcome ran
  have isMeta : ∀ tstamp text, Effect.broadcast evt ≠ metaEvent tstamp text := by
    rintro tstamp text ⟨⟩
    exact absurd regular (by decide : messageServerMeta ≠ messageServerRegular)
  generalize typed : msg.msgType = type at outcome
  cases outcome with
  | answered type effects plain =>
    obtain ⟨_, wrong, _⟩ := plain _ sent
    cases wrong
  | refused _ status grows => simp [sendStatusCode] at sent
  | loggedOut => simp at sent
  | loggedIn _ login uid announced grows row announces =>
    rcases List.mem_append.mp sent with first | announcement
    · simp [sendStatusCode] at first
    · obtain ⟨tstamp, text, same⟩ := announces _ announcement
      exact absurd same (isMeta tstamp text)
  | kicked kuid reason text root =>
    rcases List.mem_append.mp sent with kick | announcement
    · obtain ⟨_, _, _, _, wrong | wrong⟩ := mem_kicked kick <;> cases wrong
    · exact absurd (List.mem_singleton.mp announcement) (isMeta env.tstamp text)
  | regular login text authorized named =>
    cases List.mem_singleton.mp sent
    refine ⟨rfl, ?_, authorized, rfl, named⟩
    -- without a token the answer would be a status
    intro empty
    rw [processMessageJobHandler, typed, if_neg (by decide), if_neg (by decide), if_pos rfl, handleRegular,
      empty] at ran
    simp [authorized, sendStatusCode] at ran

/-- And it does so for each of these. -/
theorem broadcast_of_regular {md5hex : Block → Block} {env : Env} {sockid : Int32} {mgr mgr' : ConnMgr}
    {db db' : Db} {msg : Message} {effects : List Effect}
    (ran : processMessageJobHandler md5hex env sockid mgr db msg = some (effects, mgr', db'))
    (regular : msg.msgType = messageClientRegular) (some : msg.tokens ≠ [])
    (authorized : mgr.getUid sockid ≠ nullUid) :
    ∃ evt, .broadcast evt ∈ effects ∧ evt.type = messageServerRegular := by
  have long : ¬msg.tokens.length < 1 := by simpa using some
  rw [processMessageJobHandler, regular, if_neg (by decide), if_neg (by decide), if_pos rfl, handleRegular] at ran
  simp only [if_neg authorized, if_neg long, Option.bind_eq_bind, Option.bind_eq_some_iff] at ran
  obtain ⟨login, _, _, _, text, _, ran⟩ := ran
  cases ran
  exact ⟨_, List.mem_singleton.mpr rfl, rfl⟩

/-- What is broadcast in a step carries its login, also later, just if the step finds it. -/
theorem Authentic.carries_iff {md5hex : Block → Block} {trace : List Observed} {core : Core}
    (inv : Authentic trace core) {action : SessionAction} {did : List Observed} {rest : Option Core}
    (taken : sessionStep md5hex core action = some (did, rest)) {db : Db}
    (kept : ∀ uid login, selectLogin core.db uid = [login] → selectLogin db uid = [login]) :
    (∀ seen ∈ did, CarriesLogin db seen) ↔ FindsLogin core action := by
  cases sessionStep_transition taken with
  | accepted sockid unused => exact iff_of_true nofun trivial
  | closed sockid env effects _ ran =>
    refine iff_of_true ?_ trivial
    intro seen member
    obtain ⟨effect, _, rfl⟩ := List.mem_map.mp member
    trivial
  | handled c msg env conn effects mgr db' there ran =>
    constructor
    · intro carried regular some conn' there' authorized
      rw [there] at there'
      cases there'
      obtain ⟨evt, sent, type⟩ := broadcast_of_regular ran regular some authorized
      obtain ⟨_, _, _, uid, named⟩ := regular_of_broadcast ran sent type
      obtain ⟨name, _, row⟩ := inv.own c conn there authorized
      obtain ⟨login, known, row'⟩ := carried _ (List.mem_map_of_mem sent) type
      -- the login that is carried is that of the account
      rw [uid, kept _ _ row] at row'
      cases row'
      exact (getLoginByUid_eq_some_iff row).mp (known ▸ named)
    · intro finds seen member
      obtain ⟨effect, sent, rfl⟩ := List.mem_map.mp member
      cases effect with
      | broadcast evt =>
        intro type
        obtain ⟨regular, some, authorized, uid, named⟩ := regular_of_broadcast ran sent type
        obtain ⟨name, _, row⟩ := inv.own c conn there authorized
        have found := (getLoginByUid_eq_some_iff row).mpr (finds regular some conn there authorized)
        rw [found] at named
        cases same : evt.login <;> rw [same] at named <;> cases named
        exact ⟨name, rfl, uid ▸ kept _ _ row⟩
      | _ => trivial

/-- So it is for the steps of a run, one after the other. -/
theorem Authentic.carries_iff_meets {md5hex : Block → Block} {trace later : List Observed} {core last : Core}
    (inv : Authentic trace core) {actions : List SessionAction}
    (replayed : replay (sessionStep md5hex) core actions = some (later, last)) :
    (∀ uid login, selectLogin core.db uid = [login] → selectLogin last.db uid = [login]) ∧
      ((∀ seen ∈ later, CarriesLogin last.db seen) ↔ Meets (sessionStep md5hex) FindsLogin core actions) := by
  induction actions generalizing trace core later with
  | nil =>
    cases replayed
    exact ⟨fun _ _ row => row, iff_of_true nofun trivial⟩
  | cons action actions ih =>
    unfold replay at replayed
    split at replayed
    next did core' taken =>
      obtain ⟨⟨later', last'⟩, replayed, same⟩ := Option.map_eq_some_iff.mp replayed
      cases same
      obtain ⟨kept, rest⟩ := ih (inv.step action taken) replayed
      have all : ∀ uid login, selectLogin core.db uid = [login] → selectLogin last.db uid = [login] :=
        fun uid login row => kept uid login ((sessionStep_grows taken).selectLogin inv.unique row)
      refine ⟨all, ?_⟩
      rw [Meets, taken, List.forall_mem_append, inv.carries_iff taken all]
      exact and_congr_right fun _ => rest
    next => cases replayed

/-- In every run of whole handlers the sockets of the connection manager are those of the
clients, a socket is mapped to the uid that its present owner logged in as last, and every
step is genuine; and all REGULAR broadcasts of the run carry the logins of their senders if and
only if each step finds the login that it looks up. -/
theorem authentication_integrity (md5hex : Block → Block) (db : Db) (unique : UniqueUids db)
    {actions : List SessionAction} {trace : List Observed} {core : Core}
    (replayed : replay (sessionStep md5hex) (Core.init db) actions = some (trace, core)) :
    (∀ w, w ∈ core.mgr.sidToUid ↔ w ∈ core.clients) ∧
    (∀ sockid, core.mgr.getUid sockid ≠ nullUid → ∃ c conn login, core.client sockid = some c ∧
      core.conns.read c = some conn ∧ conn.sockid = sockid ∧
      AuthenticatedAs trace core.db c login (core.mgr.getUid sockid)) ∧
    (∀ action did rest, sessionStep md5hex core action = some (did, rest) →
      ∀ seen ∈ did, Genuine trace core.db seen) ∧
    ((∀ seen ∈ trace, CarriesLogin core.db seen) ↔
      Meets (sessionStep md5hex) FindsLogin (Core.init db) actions) := by
  have ran : Ran (sessionStep md5hex) (fun _ _ => True) (Core.init db) trace core :=
    ran_of_replay (meets_of_forall (fun _ _ => trivial) _ _) replayed
  have inv : Authentic trace core :=
    ran.invariant (.init db unique) fun _ _ action _ _ inv _ taken => inv.step action taken
  exact ⟨inv.agree.keys, inv.owner, fun _ _ _ taken => inv.genuine taken,
    ((Authentic.init db unique).carries_iff_meets replayed).2⟩

/-! ### Two runs -/

/-- A pascal string as a token. -/
def pascalToken (text : Block) : Token := .pStr (leBytes 4 text.length ++ text)

/-- Two connections one after the other on socket 5: the first logs in, is closed, and the
second registers under another name. -/
def reusedSocket : List SessionAction :=
  [.accept 5, .handle 0 ⟨messageClientLogin, [pascalToken (ascii "root"), pascalToken []]⟩ .calm,
    .close 5 .calm, .accept 5,
    .handle 1 ⟨messageClientLogin, [pascalToken (ascii "bob"), pascalToken []]⟩ .calm]

/-- The second connection speaks as bob; this is what SQLite makes of the SELECT for its login. -/
def bobSays (noise : List Noise) : SessionAction :=
  .handle 1 ⟨messageClientRegular, [pascalToken (ascii "hi")]⟩ ⟨0, fun _ => noise⟩

/-- The SELECT waits, and the broadcast has the login. -/
theorem authentication_integrity_reused : ∃ trace core,
    replay (sessionStep fun _ => emptyDigest) (Core.init (preparedDb emptyDigest))
      (reusedSocket ++ [bobSays [.busy]]) = some (trace, core) ∧
    (∃ c conn login, core.client 5 = some c ∧ core.conns.read c = some conn ∧ conn.sockid = 5 ∧
      AuthenticatedAs trace core.db c login (core.mgr.getUid 5)) ∧
    .byJob 1 messageClientRegular (.broadcast ⟨0, messageServerRegular, some (ascii "bob"), ascii "hi", 2⟩) ∈ trace ∧
    ∀ seen ∈ trace, CarriesLogin core.db seen := by
  have ran : ∃ trace core, replay (sessionStep fun _ => emptyDigest) (Core.init (preparedDb emptyDigest))
      (reusedSocket ++ [bobSays [.busy]]) = some (trace, core) ∧ core.mgr.getUid 5 = 2 ∧
      .byJob 1 messageClientRegular (.broadcast ⟨0, messageServerRegular, some (ascii "bob"), ascii "hi", 2⟩) ∈
        trace := ⟨_, _, rfl, by decide, by decide⟩
  obtain ⟨trace, core, replayed, mapped, said⟩ := ran
  obtain ⟨_, owner, _, carries⟩ := authentication_integrity (fun _ => emptyDigest) (preparedDb emptyDigest)
    (by unfold UniqueUids; decide) replayed
  refine ⟨trace, core, replayed, owner 5 (by rw [mapped]; decide), said, carries.mpr ?_⟩
  refine ⟨trivial, nofun, trivial, trivial, nofun, ?_, trivial⟩
  rintro _ _ conn ⟨⟩ _
  exact ⟨by decide, by decide⟩

/-- The broadcast of bob has his uid and the null pointer for his login. -/
theorem broadcast_without_login : ¬∀ (md5hex : Block → Block) (db : Db), UniqueUids db →
    ∀ trace core, Ran (sessionStep md5hex) (fun _ _ => True) (Core.init db) trace core →
    ∀ action did rest, sessionStep md5hex core action = some (did, rest) →
    ∀ c type evt, .byJob c type (.broadcast evt) ∈ did → evt.type = messageServerRegular →
      ∃ login, AuthenticatedAs trace core.db c login evt.uid ∧ evt.login = some login := by
  intro claim
  have ran : ∃ trace core, replay (sessionStep fun _ => emptyDigest) (Core.init (preparedDb emptyDigest))
      reusedSocket = some (trace, core) ∧ ∃ rest, sessionStep (fun _ => emptyDigest) core (bobSays [.error]) =
        some ([.byJob 1 messageClientRegular (.broadcast ⟨0, messageServerRegular, none, ascii "hi", 2⟩)], rest) :=
    ⟨_, _, rfl, _, rfl⟩
  obtain ⟨trace, core, replayed, rest, taken⟩ := ran
  obtain ⟨login, _, wrong⟩ := claim (fun _ => emptyDigest) (preparedDb emptyDigest) (by unfold UniqueUids; decide)
    trace core
    (ran_of_replay (meets_of_forall (fun _ _ => trivial) _ _) replayed) (bobSays [.error]) _ rest taken
    1 messageClientRegular _ (List.mem_singleton.mpr rfl) rfl
  cases wrong

end AcosChat

import AcosChat.Db.Busy
import AcosChat.Message.Encoding
import AcosChat.Server.Authentication

/-!
# Rejected requests

What `process_message_job_handler` has done when it answers with a status other than OK. It
checks before it acts, with one exception: `login_or_register` returns a uid or a negated
status in one `int`, so an account whose uid is negative has been registered, and is
answered as a rejection.
-/
namespace AcosChat

open Std Store Run Bytes

/-- One of the effects is a status other than OK. -/
def Rejected (effects : List Effect) : Prop :=
  ∃ sockid status, .sent sockid ⟨messageServerStatus, [.int32 status]⟩ ∈ effects ∧
    status ≠ UInt32.ofNat msgStatusOk

/-- One status is sent, to this socket, and nothing else has been done. -/
def OnlyAnswered (sockid : Int32) (core core' : Core) (effects : List Effect) : Prop :=
  (∃ status, effects = [.sent sockid ⟨messageServerStatus, [.int32 status]⟩]) ∧ core' = core

/-- The login and the password of a LOGIN with its two strings. -/
def loginOf (msg : Message) : Option (Block × Block) :=
  if msg.msgType = messageClientLogin ∧ 2 ≤ msg.tokens.length then do
    let login ← pStrToCStr (← tokenPStr msg.tokens 0)
    let passwd ← pStrToCStr (← tokenPStr msg.tokens 1)
    some (login, passwd)
  else none

/-- A LOGIN that registers an account, with a uid beyond the positive ones. -/
def RegistersNegative (script : Script) (msg : Message) (db : Db) : Prop :=
  ∃ login passwd, loginOf msg = some (login, passwd) ∧ Registers script login db ∧ selectNextUid db < 0

variable {md5hex : Block → Block} {env : Env} {sockid : Int32} {mgr mgr' : ConnMgr} {db db' : Db}
  {effects : List Effect}

/-- Frames of another type, and events, are no rejection. -/
theorem not_rejected (other : ∀ effect ∈ effects, ∀ sockid msg, effect = .sent sockid msg →
    msg.msgType ≠ messageServerStatus) : ¬Rejected effects := by
  rintro ⟨sockid, status, member, _⟩
  exact other _ member sockid _ rfl rfl

theorem not_rejected_broadcast (evt : Broadcast) : ¬Rejected [.broadcast evt] := by
  apply not_rejected
  rintro effect member sockid msg rfl
  simp at member

/-- A LOGIN that succeeds is answered with OK. -/
theorem not_rejected_loggedIn (login : Block) (uid : Int32) {announced : List Effect} (announces : Announces announced) :
    ¬Rejected ([.loggedIn login uid, sendStatusCode sockid msgStatusOk] ++ announced) := by
  rintro ⟨sid, status, member, other⟩
  rcases List.mem_append.mp member with here | announcement
  · simp only [sendStatusCode, List.mem_cons, reduceCtorEq, List.not_mem_nil, or_false, false_or,
      Effect.sent.injEq, Message.mk.injEq, List.cons.injEq, Token.int32.injEq, and_true] at here
    exact other here.2.2
  · obtain ⟨_, _, wrong⟩ := announces _ announcement
    cases wrong

/-- What a LOGIN with its two strings comes to. -/
theorem handleLogin_returned {tokens : List Token} (enough : 2 ≤ tokens.length)
    (ran : handleLogin md5hex env sockid tokens mgr db = some (effects, mgr', db')) :
    ∃ login passwd uid, loginOf ⟨messageClientLogin, tokens⟩ = some (login, passwd) ∧
      loginOrRegister md5hex env.script login passwd db = some (uid, db') ∧
      if uid < 0 then effects = [sendStatusCode sockid (-uid).toUInt32.toNat] ∧ mgr' = mgr
      else ¬Rejected effects := by
  unfold handleLogin at ran
  rw [if_neg (by omega)] at ran
  simp only [Option.bind_eq_bind, Option.bind_eq_some_iff, Prod.exists] at ran
  obtain ⟨first, here, login, asText, second, there, passwd, asText', uid, after, returned, ran⟩ := ran
  refine ⟨login, passwd, uid, ?_, ?_⟩
  · rw [loginOf, if_pos ⟨rfl, enough⟩]
    simp only [here, asText, there, asText', Option.bind_eq_bind, Option.bind_some]
  · split at ran
    next negative =>
      cases ran
      rw [if_pos negative]
      exact ⟨returned, rfl, rfl⟩
    next signed =>
      cases ran
      rw [if_neg signed]
      refine ⟨returned, not_rejected_loggedIn login uid ?_⟩
      intro effect member
      split at member
      · exact ⟨_, _, List.mem_singleton.mp member⟩
      · cases member

/-- The refusal of a negative uid. -/
theorem rejected_negative {uid : Int32} (negative : uid < 0) :
    Rejected [sendStatusCode sockid (-uid).toUInt32.toNat] := by
  refine ⟨sockid, _, List.mem_singleton.mpr rfl, ?_⟩
  intro zero
  rw [UInt32.ofNat_toNat] at zero
  have back := congrArg UInt32.toInt32 zero
  rw [Int32.toInt32_toUInt32] at back
  have same : uid = 0 := by simpa [msgStatusOk] using congrArg (- ·) back
  subst same
  exact absurd negative (by decide)

/-- A LOGIN. -/
theorem handleLogin_rejected_iff {tokens : List Token}
    (ran : handleLogin md5hex env sockid tokens mgr db = some (effects, mgr', db')) :
    (Rejected effects → (∃ status, effects = [.sent sockid ⟨messageServerStatus, [.int32 status]⟩]) ∧
      mgr' = mgr ∧ db' = db) ↔ ¬RegistersNegative env.script ⟨messageClientLogin, tokens⟩ db := by
  by_cases enough : 2 ≤ tokens.length
  · obtain ⟨login, passwd, uid, read, returned, answer⟩ := handleLogin_returned enough ran
    by_cases registers : Registers env.script login db
    · have new := registers.returns md5hex passwd
      rw [new] at returned
      cases returned
      by_cases negative : selectNextUid db < 0
      · rw [if_pos negative] at answer
        obtain ⟨rfl, rfl⟩ := answer
        -- The row is there, and the answer is a rejection.
        refine iff_of_false ?_ fun other => other ⟨login, passwd, read, registers, negative⟩
        intro claim
        have same := congrArg (fun db => db.users.length) (claim (rejected_negative negative)).2.2
        simp at same
      · rw [if_neg negative] at answer
        refine iff_of_true (fun rejected => absurd rejected answer) ?_
        rintro ⟨_, _, _, _, wrong⟩
        exact negative wrong
    · have same := loginOrRegister_unchanged registers returned
      subst same
      apply iff_of_true
      · intro rejected
        split at answer
        · exact ⟨⟨_, answer.1⟩, answer.2, rfl⟩
        · exact absurd rejected answer
      · rintro ⟨login', passwd', read', registers', _⟩
        rw [read] at read'
        cases read'
        exact registers registers'
  · rw [handleLogin, if_pos (by omega)] at ran
    cases ran
    refine iff_of_true (fun _ => ⟨⟨_, rfl⟩, rfl, rfl⟩) ?_
    rintro ⟨login, passwd, read, _⟩
    rw [loginOf, if_neg (by simp [enough])] at read
    cases read

/-- The other types change nothing at all, and a status of theirs comes alone. -/
theorem handler_rejects_alone {msg : Message} (other : msg.msgType ≠ messageClientLogin)
    (ran : processMessageJobHandler md5hex env sockid mgr db msg = some (effects, mgr', db')) :
    mgr' = mgr ∧ db' = db ∧ ((∃ status, effects = [sendStatusCode sockid status]) ∨ ¬Rejected effects) := by
  unfold processMessageJobHandler at ran
  rw [if_neg other] at ran
  split at ran
  next =>
    cases ran
    refine ⟨rfl, rfl, .inr (not_rejected ?_)⟩
    rintro effect member sid msg rfl
    simp at member
  split at ran
  next =>
    -- a text is either refused with a status or broadcast, never both
    obtain ⟨rfl, rfl, status | ⟨login, text, _, _, rfl⟩⟩ := handleRegular_cases ran
    · exact ⟨rfl, rfl, .inl status⟩
    · exact ⟨rfl, rfl, .inr (not_rejected_broadcast _)⟩
  split at ran
  next =>
    obtain ⟨rfl, rfl, status | frames⟩ := handleHistory_cases ran
    · exact ⟨rfl, rfl, .inl status⟩
    · refine ⟨rfl, rfl, .inr (not_rejected ?_)⟩
      rintro effect member sid msg rfl
      obtain ⟨_, same, type⟩ := frames _ member
      cases same
      rw [type]
      decide
  split at ran
  next =>
    obtain ⟨rfl, rfl, tokens, rfl⟩ := handleList_cases ran
    refine ⟨rfl, rfl, .inr (not_rejected ?_)⟩
    rintro effect member sid msg rfl
    cases List.mem_singleton.mp member
    exact (by decide : messageServerList ≠ messageServerStatus)
  split at ran
  next =>
    obtain ⟨rfl, rfl, status | ⟨kuid, reason, text, _, rfl⟩⟩ := handleKick_cases ran
    · exact ⟨rfl, rfl, .inl status⟩
    · refine ⟨rfl, rfl, .inr (not_rejected ?_)⟩
      rintro effect member sid msg rfl
      -- the kicked sessions get KICK frames, and everybody the announcement
      rcases List.mem_append.mp member with kick | announcement
      · obtain ⟨_, _, key, _, same | wrong⟩ := mem_kicked kick
        · cases same
          exact (by decide : messageServerKick ≠ messageServerStatus)
        · cases wrong
      · cases List.mem_singleton.mp announcement
  next =>
    cases ran
    exact ⟨rfl, rfl, .inl ⟨_, rfl⟩⟩

/-- In any state, reachable or not, a handler that answers with a status other than OK has sent this
one status and changed neither the maps of the connection manager nor the tables nor any queue,
if and only if the message is not a LOGIN that registers an account with a negative uid. -/
theorem rejected_changes_nothing_iff (md5hex : Block → Block) (env : Env) {core core' : Core} {conn : Connection}
    {msg : Message} {effects : List Effect}
    (handled : core.handleJob md5hex env conn msg = some (effects, core')) :
    (Rejected effects → OnlyAnswered conn.sockid core core' effects) ↔
      ¬RegistersNegative env.script msg core.db := by
  simp only [Core.handleJob, Option.bind_eq_bind, Option.bind_eq_some_iff, Prod.exists, Option.some.injEq,
    Prod.mk.injEq] at handled
  obtain ⟨effects', mgr, db, ran, rfl, rfl⟩ := handled
  have unchanged : ({ core with mgr := mgr, db := db } : Core) = core ↔ mgr = core.mgr ∧ db = core.db := by
    constructor
    · intro same
      exact ⟨congrArg Core.mgr same, congrArg Core.db same⟩
    · rintro ⟨rfl, rfl⟩
      rfl
  unfold OnlyAnswered
  rw [unchanged]
  obtain ⟨type, tokens⟩ := msg
  by_cases login : type = messageClientLogin
  · subst login
    rw [processMessageJobHandler, if_pos rfl] at ran
    exact handleLogin_rejected_iff ran
  · obtain ⟨rfl, rfl, alone⟩ := handler_rejects_alone login ran
    refine iff_of_true ?_ ?_
    · intro rejected
      obtain ⟨status, rfl⟩ := alone.resolve_right (not_not.mpr rejected)
      exact ⟨⟨_, rfl⟩, rfl, rfl⟩
    · rintro ⟨_, _, read, _⟩
      rw [loginOf, if_neg (by simp [login])] at read
      cases read

/-- A REGULAR of a socket without a uid is rejected, and nothing changes. -/
theorem rejected_changes_nothing_iff_unauthorized :
    ∃ effects core', (Core.init (preparedDb emptyDigest)).handleJob (fun _ => emptyDigest) .calm (newConnection 5)
        ⟨messageClientRegular, [pascalToken (ascii "hi")]⟩ = some (effects, core') ∧
      Rejected effects ∧ OnlyAnswered 5 (Core.init (preparedDb emptyDigest)) core' effects := by
  have handled : ∃ effects core', (Core.init (preparedDb emptyDigest)).handleJob (fun _ => emptyDigest) .calm
      (newConnection 5) ⟨messageClientRegular, [pascalToken (ascii "hi")]⟩ = some (effects, core') ∧
      effects = [sendStatusCode 5 msgStatusUnauthorized] := ⟨_, _, rfl, rfl⟩
  obtain ⟨effects, core', handled, status⟩ := handled
  have rejected : Rejected effects := ⟨5, _, by rw [status]; exact List.mem_singleton.mpr rfl, by decide⟩
  refine ⟨effects, core', handled, rejected, (rejected_changes_nothing_iff _ _ handled).mpr ?_ rejected⟩
  rintro ⟨_, _, read, _⟩
  rw [loginOf, if_neg (by simp [messageClientRegular, messageClientLogin])] at read
  cases read

/-! ### A full table -/

/-- The login of the client that registers after so many others. -/
def nthLogin (n : Nat) : Block :=
  [UInt8.ofNat (128 + n % 128), UInt8.ofNat (128 + n / 128 % 128), UInt8.ofNat (128 + n / 16384 % 128),
    UInt8.ofNat (128 + n / 2097152 % 128), UInt8.ofNat (128 + n / 268435456)]

theorem nthLogin_inj {m n : Nat} (small : m < 2147483648) (small' : n < 2147483648)
    (same : nthLogin m = nthLogin n) : m = n := by
  have digit : ∀ {x y : Nat}, x < 128 → y < 128 → UInt8.ofNat (128 + x) = UInt8.ofNat (128 + y) → x = y := by
    intro x y boundX boundY same
    have word := congrArg UInt8.toNat same
    rw [UInt8.toNat_ofNat', UInt8.toNat_ofNat'] at word
    omega
  simp only [nthLogin, List.cons.injEq, and_true] at same
  obtain ⟨a, b, c, d, e⟩ := same
  have a := digit (by omega) (by omega) a
  have b := digit (by omega) (by omega) b
  have c := digit (by omega) (by omega) c
  have d := digit (by omega) (by omega) d
  have e := digit (by omega) (by omega) e
  omega

theorem pStrToCStr_nthLogin {n : Nat} (small : n < 2147483648) :
    pStrToCStr (pascalBlock (nthLogin n)) = some (nthLogin n) := by
  rw [pStrToCStr_pascalBlock _ (by simp [nthLogin])]
  congr 1
  rw [List.takeWhile_eq_self_iff]
  intro byte member
  have digit : ∀ x < 128, UInt8.ofNat (128 + x) ≠ 0 := by
    intro x bound zero
    have word := congrArg UInt8.toNat zero
    rw [UInt8.toNat_ofNat'] at word
    simp at word
    omega
  simp only [nthLogin, List.mem_cons, List.not_mem_nil, or_false] at member
  rcases member with rfl | rfl | rfl | rfl | rfl <;> simp only [decide_eq_true_eq, ne_eq]
  all_goals exact digit _ (by omega)

/-- The table after so many registrations. -/
def fullDb (hash : Block) (n : Nat) : Db :=
  ⟨⟨rootUid, ascii "root", hash⟩ :: (List.range n).map fun i => ⟨Int32.ofNat (i + 2), nthLogin i, hash⟩, []⟩

theorem selectNextUid_fullDb (hash : Block) {n : Nat} (small : n < 2147483647) :
    selectNextUid (fullDb hash n) = Int32.ofNat (n + 2) := by
  have number : ∀ i < n, (Int32.ofNat (i + 2)).toInt = (i : Int) + 2 := by
    intro i inside
    rw [Int32.toInt_ofNat_of_lt (by omega)]
    omega
  have most : ((fullDb hash n).users.map fun user => user.uid.toInt).max? = some ((n : Int) + 1) := by
    rw [List.max?_eq_some_iff]
    simp only [fullDb, List.map_cons, List.map_map]
    constructor
    · cases n with
      | zero => simp [rootUid]
      | succ n =>
        refine List.mem_cons_of_mem _ (List.mem_map.mpr ⟨n, List.mem_range.mpr n.lt_succ_self, ?_⟩)
        rw [Function.comp_apply, number n n.lt_succ_self]
        omega
    · intro uid member
      rcases List.mem_cons.mp member with rfl | later
      · simp [rootUid]
      · obtain ⟨i, inside, rfl⟩ := List.mem_map.mp later
        have below := List.mem_range.mp inside
        rw [Function.comp_apply, number i below]
        omega
  rw [selectNextUid, most]
  exact Int32.ofInt_eq_ofNat

/-- The next login registers. -/
theorem registers_fullDb (hash : Block) {n : Nat} (small : n < 2147483647) :
    Registers Env.calm.script (nthLogin n) (fullDb hash n) := by
  have quiet : ∀ i, ∀ noise ∈ Env.calm.script i, noise = .ok := by simp [Env.calm]
  refine ⟨selectByLogin_eq_nil ?_, ?_, endsWell_of_quiet _ (quiet 0), endsWell_of_quiet _ (quiet 1),
    (endsWell_of_quiet _ (quiet 2)).1⟩
  · intro known
    simp only [fullDb, List.map_cons, List.map_map, List.mem_cons, List.mem_map, List.mem_range,
      Function.comp_apply] at known
    rcases known with root | ⟨i, before, same⟩
    · have size := congrArg List.length root
      simp [nthLogin, ascii] at size
    · have equal := nthLogin_inj (by omega) (by omega) same
      omega
  · rw [selectNextUid_fullDb hash small]
    intro taken
    simp only [fullDb, List.map_cons, List.map_map, List.mem_cons, List.mem_map, List.mem_range,
      Function.comp_apply] at taken
    have word : ∀ m : Nat, m < 4294967296 → (Int32.ofNat m).toBitVec.toNat = m := by
      intro m bound
      rw [Int32.toBitVec_ofNat', BitVec.toNat_ofNat]
      omega
    rcases taken with root | ⟨i, before, same⟩
    · have equal := congrArg (fun uid : Int32 => uid.toBitVec.toNat) root
      simp only [word (n + 2) (by omega), rootUid] at equal
      have one : (1 : Int32).toBitVec.toNat = 1 := rfl
      omega
    · have equal := congrArg (fun uid : Int32 => uid.toBitVec.toNat) same
      simp only [word (n + 2) (by omega), word (i + 2) (by omega)] at equal
      omega

/-- A LOGIN with the next login. -/
def nthRequest (n : Nat) : Message := ⟨messageClientLogin, [pascalToken (nthLogin n), pascalToken []]⟩

theorem loginOf_nthRequest {n : Nat} (small : n < 2147483648) : loginOf (nthRequest n) = some (nthLogin n, []) := by
  have login : pStrToCStr (leBytes 4 (nthLogin n).length ++ nthLogin n) = some (nthLogin n) :=
    pStrToCStr_nthLogin small
  have passwd : pStrToCStr (leBytes 4 ([] : Block).length ++ []) = some [] := by decide
  rw [loginOf, if_pos ⟨rfl, by simp [nthRequest]⟩]
  simp only [nthRequest, pascalToken, tokenPStr, List.getElem?_cons_zero, List.getElem?_cons_succ,
    Option.bind_eq_bind, Option.bind_some, login, passwd]

/-- The handler takes it, and there is one more row. -/
theorem handleLogin_nthRequest (hash : Block) {n : Nat} (small : n < 2147483647) (mgr : ConnMgr) (sockid : Int32) :
    ∃ effects mgr', handleLogin (fun _ => hash) .calm sockid (nthRequest n).tokens mgr (fullDb hash n) =
      some (effects, mgr', fullDb hash (n + 1)) := by
  have returned := (registers_fullDb hash small).returns (fun _ => hash) []
  have grown : ({ fullDb hash n with
      users := (fullDb hash n).users ++ [⟨selectNextUid (fullDb hash n), nthLogin n, hash⟩] } : Db) =
        fullDb hash (n + 1) := by
    rw [selectNextUid_fullDb hash small]
    simp [fullDb, List.range_succ]
  rw [grown] at returned
  have login : pStrToCStr (leBytes 4 (nthLogin n).length ++ nthLogin n) = some (nthLogin n) :=
    pStrToCStr_nthLogin (by omega)
  have passwd : pStrToCStr (leBytes 4 ([] : Block).length ++ []) = some [] := by decide
  rw [handleLogin, if_neg (by simp [nthRequest])]
  simp only [nthRequest, pascalToken, tokenPStr, List.getElem?_cons_zero, List.getElem?_cons_succ,
    Option.bind_eq_bind, Option.bind_some, login, passwd, returned]
  split
  · exact ⟨_, _, rfl⟩
  · exact ⟨_, _, rfl⟩

theorem handleJob_nthRequest (hash : Block) {n : Nat} (small : n < 2147483647) {core : Core}
    (full : core.db = fullDb hash n) (conn : Connection) :
    ∃ effects mgr, processMessageJobHandler (fun _ => hash) .calm conn.sockid core.mgr core.db (nthRequest n) =
        some (effects, mgr, fullDb hash (n + 1)) ∧
      core.handleJob (fun _ => hash) .calm conn (nthRequest n) =
        some (effects, { core with mgr := mgr, db := fullDb hash (n + 1) }) := by
  obtain ⟨effects, mgr, ran⟩ := handleLogin_nthRequest hash small core.mgr conn.sockid
  rw [← full] at ran
  have handled : processMessageJobHandler (fun _ => hash) .calm conn.sockid core.mgr core.db (nthRequest n) =
      some (effects, mgr, fullDb hash (n + 1)) := ran
  refine ⟨effects, mgr, handled, ?_⟩
  rw [Core.handleJob, handled]
  rfl

/-- A server on which so many clients have registered. -/
theorem ran_fullDb (hash : Block) (n : Nat) (small : n ≤ 2147483647) :
    ∃ trace core, Ran (sessionStep fun _ => hash) (fun _ _ => True) (Core.init (preparedDb hash)) trace core ∧
      core.conns.read 0 = some (newConnection 5) ∧ core.db = fullDb hash n := by
  induction n with
  | zero =>
    have accepted : sessionStep (fun _ => hash) (Core.init (preparedDb hash)) (.accept 5) =
        some ([], some ((Core.init (preparedDb hash)).acceptConnection 5)) := rfl
    exact ⟨_, _, Ran.start.step trivial accepted, rfl, rfl⟩
  | succ n ih =>
    obtain ⟨trace, core, ran, there, full⟩ := ih (by omega)
    obtain ⟨effects, mgr, _, handled⟩ := handleJob_nthRequest hash (by omega) full (newConnection 5)
    have taken : sessionStep (fun _ => hash) core (.handle 0 (nthRequest n) .calm) =
        some (effects.map (.byJob 0 messageClientLogin), some { core with mgr := mgr, db := fullDb hash (n + 1) }) := by
      simp only [sessionStep, there, Option.bind_eq_bind, Option.bind_some, handled]
      rfl
    exact ⟨_, _, ran.step trivial taken, there, rfl⟩

/-- After 2147483646 registrations the next account gets a negative uid: its row is stored, and the
client is told that the LOGIN was rejected. -/
theorem rejected_after_registering : ¬∀ (md5hex : Block → Block) (hash : Block) (trace : List Observed) (core : Core),
    Ran (sessionStep md5hex) (fun _ _ => True) (Core.init (preparedDb hash)) trace core →
    ∀ (env : Env) (c : Nat) (conn : Connection) (msg : Message) (effects : List Effect) (core' : Core),
      core.conns.read c = some conn → core.handleJob md5hex env conn msg = some (effects, core') →
      Rejected effects → OnlyAnswered conn.sockid core core' effects := by
  intro claim
  obtain ⟨trace, core, ran, there, full⟩ := ran_fullDb [] 2147483646 (by decide)
  obtain ⟨effects, mgr, handled, job⟩ := handleJob_nthRequest [] (by decide) full (newConnection 5)
  have answered := claim (fun _ => []) [] trace core ran .calm 0 _ _ effects _ there job
  rw [processMessageJobHandler, nthRequest, if_pos rfl] at handled
  have registers := registers_fullDb [] (n := 2147483646) (by decide)
  have next := selectNextUid_fullDb [] (n := 2147483646) (by decide)
  rw [← full] at registers next
  apply (handleLogin_rejected_iff handled).mp
  · intro rejected
    obtain ⟨status, same⟩ := answered rejected
    exact ⟨status, congrArg Core.mgr same, congrArg Core.db same⟩
  · exact ⟨_, _, loginOf_nthRequest (by decide), registers, by rw [next]; decide⟩

end AcosChat

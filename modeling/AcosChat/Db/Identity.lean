import AcosChat.Db.Busy
import AcosChat.Db.Registration

/-!
# Accounts over many calls

`login_or_register` called any number of times, one call after the other, with statements that
nothing interrupts. Logins are not a key of the table, and it is the order of the statements
that keeps them apart: a row is only added under a login that has none, and under a uid
above all others.
-/
namespace AcosChat

open Bytes Run

/-- A table with unique logins and unique positive uids, one of them that of root. -/
structure Identities (db : Db) : Prop where
  uids : UniqueUids db
  logins : UniqueLogins db
  positive : ∀ user ∈ db.users, 0 < user.uid
  root : ∃ user ∈ db.users, user.uid = rootUid

/-- The table of `prepare_db`. -/
theorem identities_preparedDb (hash : Block) : Identities ⟨[⟨rootUid, [114, 111, 111, 116], hash⟩], []⟩ :=
  ⟨by simp [UniqueUids], by simp [UniqueLogins], by simp [rootUid], by simp⟩

/-! ### One call -/

/-- A call of `login_or_register`. -/
structure AccountCall where
  login : Block
  passwd : Block
  script : Script

/-- Every uid leaves room for one above it. -/
def FitsInt (db : Db) : Prop := ∀ user ∈ db.users, user.uid.toInt < 2147483647

/-- Nothing interrupts the statements, and the uid of a new account fits in an `int`. -/
def Succeeds (db : Db) (call : AccountCall) : Prop :=
  (∀ i, ∀ noise ∈ call.script i, noise = .ok) ∧ (call.login ∉ db.users.map User.login → FitsInt db)

theorem selectByLogin_of_mem {db : Db} (logins : UniqueLogins db) {user : User} (member : user ∈ db.users) :
    selectByLogin db user.login = [(user.uid, user.passwordHash)] := by
  unfold selectByLogin
  have only : db.users.filter (fun other => other.login = user.login) = [user] := by
    unfold UniqueLogins at logins
    generalize db.users = users at logins member
    induction users with
    | nil => cases member
    | cons first users ih =>
      rw [List.map_cons, List.nodup_cons] at logins
      rcases List.mem_cons.mp member with rfl | later
      · have others : users.filter (fun other => other.login = user.login) = [] := by
          rw [List.filter_eq_nil_iff]
          intro other inside
          simp only [decide_eq_true_eq]
          intro same
          exact logins.1 (same ▸ List.mem_map_of_mem inside)
        rw [List.filter_cons_of_pos (by simp), others]
      · have other : first.login ≠ user.login := by
          intro same
          exact logins.1 (same ▸ List.mem_map_of_mem later)
        rw [List.filter_cons_of_neg (by simp [other])]
        exact ih logins.2 later
  rw [only]
  rfl

/-- The next uid is above all others, if there are any. -/
theorem lt_selectNextUid {db : Db} (fits : FitsInt db) {user : User} (member : user ∈ db.users) :
    user.uid < selectNextUid db := by
  have inside : user.uid.toInt ∈ db.users.map fun user => user.uid.toInt := List.mem_map_of_mem member
  rw [Int32.lt_iff_toInt_lt, selectNextUid]
  split
  next none_ =>
    rw [List.max?_eq_none_iff] at none_
    rw [none_] at inside
    cases inside
  next uid most =>
    obtain ⟨there, above⟩ := List.max?_eq_some_iff.mp most
    obtain ⟨last, lastThere, rfl⟩ := List.mem_map.mp there
    have high := fits last lastThere
    have low := Int32.le_toInt last.uid
    have least := above _ inside
    rw [Int32.toInt_ofInt_of_le (by omega) (by omega)]
    omega

/-- A login of the table. -/
theorem loginOrRegister_known (md5hex : Block → Block) {db : Db} (identities : Identities db) {call : AccountCall}
    (succeeds : Succeeds db call) {user : User} (member : user ∈ db.users) (same : user.login = call.login) :
    ∃ uid, loginOrRegister md5hex call.script call.login call.passwd db = some (uid, db) ∧
      (uid = user.uid ↔ md5hex call.passwd = user.passwordHash) ∧
      (uid ≠ user.uid → uid = -(Int32.ofNat msgStatusAuthError)) := by
  have positive := identities.positive user member
  have other : -(Int32.ofNat msgStatusAuthError) ≠ user.uid := by
    intro wrong
    rw [← wrong] at positive
    exact absurd positive (by decide)
  have row := selectByLogin_of_mem identities.logins member
  rw [same] at row
  unfold loginOrRegister
  dsimp only
  rw [row, eachRow_quiet _ _ _ (succeeds.1 0)]
  simp only [List.foldl_cons, List.foldl_nil]
  refine ⟨_, rfl, ?_, ?_⟩
  · by_cases authentic : user.passwordHash = md5hex call.passwd
    · simp [authentic]
    · simp [authentic, other, Ne.symm authentic]
  · by_cases authentic : user.passwordHash = md5hex call.passwd <;> simp [authentic]

/-- A new login. -/
theorem loginOrRegister_unknown (md5hex : Block → Block) {db : Db} {call : AccountCall}
    (succeeds : Succeeds db call) (unknown : call.login ∉ db.users.map User.login) :
    loginOrRegister md5hex call.script call.login call.passwd db = some (selectNextUid db,
      { db with users := db.users ++ [⟨selectNextUid db, call.login, md5hex call.passwd⟩] }) ∧
    ∀ user ∈ db.users, user.uid < selectNextUid db := by
  have above : ∀ user ∈ db.users, user.uid < selectNextUid db :=
    fun _ member => lt_selectNextUid (succeeds.2 unknown) member
  have free : selectNextUid db ∉ db.users.map User.uid := by
    intro taken
    obtain ⟨user, member, same⟩ := List.mem_map.mp taken
    have least := above user member
    rw [same] at least
    exact Int32.lt_irrefl least
  refine ⟨?_, above⟩
  have registers : Registers call.script call.login db :=
    ⟨selectByLogin_eq_nil unknown, free, endsWell_of_quiet _ (succeeds.1 0), endsWell_of_quiet _ (succeeds.1 1),
      (endsWell_of_quiet _ (succeeds.1 2)).1⟩
  exact registers.returns md5hex call.passwd

/-! ### Any number of calls -/

/-- A call that returns; what is observed is its login and the value returned. -/
def accountStep (md5hex : Block → Block) : Step Db AccountCall Returned
  | db, call =>
    (loginOrRegister md5hex call.script call.login call.passwd db).map fun (uid, after) =>
      ([⟨call.login, uid⟩], some after)

/-- The ways in which a call goes. -/
inductive AccountTransition (md5hex : Block → Block) (db : Db) (call : AccountCall) : Int32 → Db → Prop
  | known (user : User) (uid : Int32) (member : user ∈ db.users) (same : user.login = call.login)
      (value : uid = user.uid ∨ uid = -(Int32.ofNat msgStatusAuthError)) : AccountTransition md5hex db call uid db
  | registered (unknown : call.login ∉ db.users.map User.login)
      (above : ∀ user ∈ db.users, user.uid < selectNextUid db) :
      AccountTransition md5hex db call (selectNextUid db)
        { db with users := db.users ++ [⟨selectNextUid db, call.login, md5hex call.passwd⟩] }

theorem accountStep_transition {md5hex : Block → Block} {db after : Db} (identities : Identities db)
    {call : AccountCall} (succeeds : Succeeds db call) {did : List Returned}
    (taken : accountStep md5hex db call = some (did, some after)) :
    ∃ uid, did = [⟨call.login, uid⟩] ∧ AccountTransition md5hex db call uid after := by
  obtain ⟨⟨uid, after'⟩, returned, same⟩ := Option.map_eq_some_iff.mp taken
  cases same
  refine ⟨uid, rfl, ?_⟩
  by_cases unknown : call.login ∈ db.users.map User.login
  · obtain ⟨user, member, same⟩ := List.mem_map.mp unknown
    obtain ⟨uid', known, _, refused⟩ := loginOrRegister_known md5hex identities succeeds member same
    rw [known] at returned
    cases returned
    exact .known user uid member same (by tauto)
  · obtain ⟨new, above⟩ := loginOrRegister_unknown md5hex succeeds unknown
    rw [new] at returned
    cases returned
    exact .registered unknown above

/-- What has been observed, and the table: a value that was returned is the refusal, or the uid
of a row with this login. -/
structure Registered (start : Db) (trace : List Returned) (db : Db) : Prop where
  identities : Identities db
  /-- No row has changed. -/
  kept : ∀ user ∈ start.users, user ∈ db.users
  returned : ∀ entry ∈ trace, entry.uid = -(Int32.ofNat msgStatusAuthError) ∨
    ∃ user ∈ db.users, user.login = entry.login ∧ user.uid = entry.uid

theorem Registered.step {md5hex : Block → Block} {start db after : Db} {trace : List Returned}
    (registered : Registered start trace db) {call : AccountCall} {uid : Int32}
    (transition : AccountTransition md5hex db call uid after) :
    Registered start (trace ++ [⟨call.login, uid⟩]) after := by
  obtain ⟨identities, kept, returned⟩ := registered
  cases transition with
  | known user _ member same value =>
    refine ⟨identities, kept, ?_⟩
    intro entry there
    rcases List.mem_append.mp there with old | new
    · exact returned entry old
    · obtain rfl := List.mem_singleton.mp new
      rcases value with rfl | rfl
      · exact .inr ⟨user, member, same, rfl⟩
      · exact .inl rfl
  | registered unknown above =>
    -- the new uid is above all that are in the table
    have fresh : selectNextUid db ∉ db.users.map User.uid := by
      intro taken
      obtain ⟨user, member, same⟩ := List.mem_map.mp taken
      exact Int32.lt_irrefl (same ▸ above user member)
    obtain ⟨root, rootThere, rootUid⟩ := identities.root
    refine ⟨⟨uniqueUids_append identities.uids _ fresh, ?_, ?_, ?_⟩, ?_, ?_⟩
    · exact (uniqueLogins_append_iff identities.logins _).mpr unknown
    · intro user there
      rcases List.mem_append.mp there with old | new
      · exact identities.positive user old
      · rw [List.mem_singleton.mp new]
        exact Int32.lt_trans (identities.positive root rootThere) (above root rootThere)
    · exact ⟨root, List.mem_append_left _ rootThere, rootUid⟩
    · exact fun user there => List.mem_append_left _ (kept user there)
    · intro entry there
      rcases List.mem_append.mp there with old | new
      · refine (returned entry old).imp id ?_
        rintro ⟨user, member, same⟩
        exact ⟨user, List.mem_append_left _ member, same⟩
      · obtain rfl := List.mem_singleton.mp new
        exact .inr ⟨_, List.mem_append_right _ (List.mem_singleton.mpr rfl), rfl, rfl⟩

theorem registered_of_ran {md5hex : Block → Block} {start db : Db} (identities : Identities start)
    {trace : List Returned} (ran : Ran (accountStep md5hex) Succeeds start trace db) :
    Registered start trace db := by
  induction ran with
  | start => exact ⟨identities, fun _ there => there, by simp⟩
  | step _ met taken registered =>
    obtain ⟨uid, rfl, transition⟩ := accountStep_transition registered.identities met taken
    exact registered.step transition

/-- After any sequence of calls: the next call for a login of the table returns its uid if and only
if the digest is the stored one, else the refusal, and changes nothing; the next call for another
login adds one row, under a uid above all others, and returns it; the uids and the logins are
unique, and no later call changes a row; and no value that was returned is `NULL_UID` or the uid
of another login. -/
theorem account_not_taken_over (md5hex : Block → Block) {start db : Db} (identities : Identities start)
    {trace : List Returned} (ran : Ran (accountStep md5hex) Succeeds start trace db) :
    (∀ call, Succeeds db call → ∀ user ∈ db.users, user.login = call.login →
      ∃ uid, loginOrRegister md5hex call.script call.login call.passwd db = some (uid, db) ∧
        (uid = user.uid ↔ md5hex call.passwd = user.passwordHash) ∧
        (uid ≠ user.uid → uid = -(Int32.ofNat msgStatusAuthError))) ∧
    (∀ call, Succeeds db call → call.login ∉ db.users.map User.login →
      ∃ uid, loginOrRegister md5hex call.script call.login call.passwd db =
          some (uid, { db with users := db.users ++ [⟨uid, call.login, md5hex call.passwd⟩] }) ∧
        ∀ user ∈ db.users, user.uid < uid) ∧
    UniqueUids db ∧ UniqueLogins db ∧
    (∀ later after, Ran (accountStep md5hex) Succeeds db later after → ∀ user ∈ db.users, user ∈ after.users) ∧
    ∀ entry ∈ trace, entry.uid ≠ nullUid ∧ ∀ user ∈ db.users, user.uid = entry.uid → user.login = entry.login := by
  have registered := registered_of_ran identities ran
  have now := registered.identities
  refine ⟨fun call succeeds user => loginOrRegister_known md5hex now succeeds,
    fun call succeeds unknown => ⟨_, loginOrRegister_unknown md5hex succeeds unknown⟩, now.uids, now.logins,
    fun later after more => (registered_of_ran now more).kept, ?_⟩
  intro entry there
  rcases registered.returned entry there with refused | ⟨owner, member, login, uid⟩
  · -- a refusal is a negative number, and no account has one
    rw [refused]
    refine ⟨by decide, ?_⟩
    intro user inside wrong
    have positive := now.positive user inside
    rw [wrong] at positive
    exact absurd positive (by decide)
  · have positive := now.positive owner member
    rw [uid] at positive
    refine ⟨(Int32.ne_of_lt positive).symm, ?_⟩
    intro user inside same
    rw [List.inj_on_of_nodup_map now.uids inside member (same.trans uid.symm), login]

/-- A login is registered, refused with another password and found again. -/
def aliceCalls : List AccountCall :=
  [⟨[97], [1], fun _ => []⟩, ⟨[97], [2], fun _ => []⟩, ⟨[97], [1], fun _ => []⟩]

theorem account_not_taken_over_alice : ∃ trace db,
    replay (accountStep id) ⟨[⟨rootUid, [114, 111, 111, 116], []⟩], []⟩ aliceCalls = some (trace, db) ∧
    trace = [⟨[97], 2⟩, ⟨[97], -3⟩, ⟨[97], 2⟩] ∧ UniqueLogins db ∧ UniqueUids db := by
  have ran : ∃ trace db,
      replay (accountStep id) ⟨[⟨rootUid, [114, 111, 111, 116], []⟩], []⟩ aliceCalls = some (trace, db) ∧
      trace = [⟨[97], 2⟩, ⟨[97], -3⟩, ⟨[97], 2⟩] := ⟨_, _, rfl, by decide⟩
  obtain ⟨trace, db, replayed, returned⟩ := ran
  have meets : Meets (accountStep id) Succeeds ⟨[⟨rootUid, [114, 111, 111, 116], []⟩], []⟩ aliceCalls := by
    refine ⟨⟨by simp, fun _ => by simp [FitsInt, rootUid]⟩, ⟨by simp, ?_⟩, ⟨by simp, ?_⟩, trivial⟩
    all_goals
      intro unknown
      exact absurd unknown (by decide)
  obtain ⟨_, _, uids, logins, _⟩ := account_not_taken_over id (identities_preparedDb [])
    (ran_of_replay meets replayed)
  exact ⟨trace, db, replayed, returned, logins, uids⟩

end AcosChat

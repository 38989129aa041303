import AcosChat.Lib.Run
import AcosChat.Db.Accounts

/-!
# Registration by several workers

`login_or_register` one statement after the other, with any number of calls at a time. A
call registers a login after three statements: it has not found the login, it has read
the next uid, and its INSERT goes through. The primary key refuses every INSERT with a uid
that was read before another one went through, so two rows get one login only if a call
reads the next uid when its login has a row already.
-/
namespace AcosChat

open Bytes Run

/-! ### The statements of a call -/

/-- The statement of `login_or_register` that comes next. -/
inductive LoginPhase where
  /-- `SELECT uid, password_hash FROM users WHERE login = ?001;` -/
  | lookup
  /-- `SELECT MAX(uid) + 1 FROM USERS;`, with `uid` as it is before. -/
  | nextUid (uid : Int32)
  /-- `INSERT INTO users VALUES (?001, ?002, ?003);` -/
  | insert (uid : Int32)
deriving DecidableEq, Repr

/-- A call of `login_or_register` that has not returned. -/
structure LoginCall where
  login : Block
  hash : Block
  phase : LoginPhase
deriving DecidableEq, Repr

/-- What a statement leaves: the call with its next statement, or the value returned. -/
inductive Advance where
  | next (phase : LoginPhase)
  | returned (uid : Int32)
deriving DecidableEq, Repr

/-- The next statement of a call, up to the one after it; `none` while it runs. -/
def loginStatement (noise : List Noise) (db : Db) (call : LoginCall) : Option (Advance × Db) :=
  let authError : Int32 := -(Int32.ofNat msgStatusAuthError)
  let regError : Int32 := -(Int32.ofNat msgStatusRegError)
  match call.phase with
  | .lookup =>
    let row := fun (state : Nat × Int32) (columns : Int32 × Block) =>
      (state.1 + 1, if columns.2 = call.hash then columns.1 else state.2)
    match eachRow row false (0, authError) (answers (selectByLogin db call.login) noise) with
    | .running => none
    | .failed _ => some (.returned authError, db)
    | .done (rows, uid) => some (if rows = 0 then .next (.nextUid uid) else .returned uid, db)
  | .nextUid uid =>
    match eachRow (fun _ next => next) false uid (answers [selectNextUid db] noise) with
    | .running => none
    | .failed _ => some (.returned regError, db)
    | .done uid => some (.next (.insert uid), db)
  | .insert uid =>
    let user : User := ⟨uid, call.login, call.hash⟩
    match insertLoop (insertUser db user noise) with
    | none => none
    | some false => some (.returned regError, db)
    -- Only the uid is checked; the login may have a row by now.
    | some true => some (.returned uid, { db with users := db.users ++ [user] })

/-- A call that nobody else comes between, from its statement number `i` on. -/
def loginAlone (script : Script) (db : Db) (call : LoginCall) : Nat → Nat → Option (Int32 × Db)
  | 0, _ => none
  | budget + 1, i => do
    let (advance, db) ← loginStatement (script i) db call
    match advance with
    | .next phase => loginAlone script db { call with phase := phase } budget (i + 1)
    | .returned uid => some (uid, db)

/-- `login_or_register` is its statements. -/
theorem loginOrRegister_eq_alone (md5hex : Block → Block) (script : Script) (login passwd : Block)
    (db : Db) : loginOrRegister md5hex script login passwd db =
      loginAlone script db ⟨login, md5hex passwd, .lookup⟩ 3 0 := by
  simp only [loginOrRegister, loginAlone, loginStatement]
  cases eachRow _ false _ (answers (selectByLogin db login) (script 0)) with
  | running => rfl
  | failed => rfl
  | done found =>
    obtain ⟨rows, uid⟩ := found
    by_cases unknown : rows = 0
    · simp only [if_pos unknown, Option.bind_eq_bind, Option.bind_some]
      cases eachRow _ false uid (answers [selectNextUid db] (script 1)) with
      | running => rfl
      | failed => rfl
      | done uid =>
        simp only [Option.bind_some]
        cases insertLoop (insertUser db ⟨uid, login, md5hex passwd⟩ (script 2)) with
        | none => rfl
        | some done => cases done <;> rfl
    · simp only [if_neg unknown]
      rfl

/-! ### Calls at a time -/

/-- The table, and the calls that have not returned. -/
structure Registrations where
  db : Db
  calls : List LoginCall

inductive RegistrationAction where
  /-- A worker calls `login_or_register`. -/
  | call (login passwd : Block)
  /-- The next statement of one of the calls. -/
  | statement (i : Nat) (noise : List Noise)
deriving DecidableEq, Repr

/-- A call for this login has returned this value. -/
structure Returned where
  login : Block
  uid : Int32
deriving DecidableEq, Repr

def registrationStep (md5hex : Block → Block) : Step Registrations RegistrationAction Returned
  | s, .call login passwd =>
    some ([], some { s with calls := s.calls ++ [⟨login, md5hex passwd, .lookup⟩] })
  | s, .statement i noise => do
    let call ← s.calls[i]?
    let (advance, db) ← loginStatement noise s.db call
    match advance with
    | .next phase => some ([], some ⟨db, s.calls.set i { call with phase := phase }⟩)
    | .returned uid => some ([⟨call.login, uid⟩], some ⟨db, s.calls.eraseIdx i⟩)

/-! ### What a statement can do -/

/-- No two rows have one login. -/
def UniqueLogins (db : Db) : Prop := (db.users.map User.login).Nodup

instance (db : Db) : Decidable (UniqueLogins db) :=
  inferInstanceAs (Decidable (db.users.map User.login).Nodup)

instance (db : Db) : Decidable (UniqueUids db) :=
  inferInstanceAs (Decidable (db.users.map User.uid).Nodup)

/-- The ways in which a statement can end. -/
inductive StatementEnds (db : Db) (call : LoginCall) : Advance → Db → Prop
  /-- What is returned is a refusal, or the uid of a row with the login. -/
  | known (uid : Int32) (row : uid < 0 ∨ ∃ hash, ⟨uid, call.login, hash⟩ ∈ db.users) :
      StatementEnds db call (.returned uid) db
  | unknown (uid : Int32) (phase : call.phase = .lookup) : StatementEnds db call (.next (.nextUid uid)) db
  | read (uid : Int32) (phase : call.phase = .nextUid uid) :
      StatementEnds db call (.next (.insert (selectNextUid db))) db
  | inserted (uid : Int32) (phase : call.phase = .insert uid) (_ : uid ∉ db.users.map User.uid) :
      StatementEnds db call (.returned uid) { db with users := db.users ++ [⟨uid, call.login, call.hash⟩] }

/-- A query with one row ends with that row. -/
theorem eachRow_single {ρ : Type} (row last : ρ) {noise : List Noise} {waiting : Bool} {state : ρ}
    (ended : eachRow (fun _ next => next) waiting state (answers [row] noise) = .done last) :
    last = row := by
  induction noise generalizing waiting state with
  | nil =>
    cases waiting <;> cases ended <;> rfl
  | cons first later ih =>
    cases first with
    | busy => exact ih ended
    | error => cases waiting <;> cases ended
    | ok =>
      -- Behind the row nothing changes it any more.
      have kept := eachRow_invariant (fun (_ next : ρ) => next) (· = row) [] nofun later false row rfl
      have same : eachRow (fun _ next => next) waiting state (answers [row] (.ok :: later)) =
          eachRow (fun _ next => next) false row (answers [] later) := by
        cases waiting <;> rfl
      rw [← same, ended] at kept
      exact kept

theorem loginStatement_ends {noise : List Noise} {db db' : Db} {call : LoginCall}
    {advance : Advance} (ran : loginStatement noise db call = some (advance, db')) :
    StatementEnds db call advance db' := by
  obtain ⟨login, hash, phase⟩ := call
  cases phase with
  | lookup =>
    simp only [loginStatement] at ran
    split at ran
    next => cases ran
    next =>
      cases ran
      exact .known _ (.inl (by decide))
    next rows uid ended =>
      -- the login is unknown if and only if the callback was never called
      by_cases none : rows = 0
      · rw [if_pos none] at ran
        cases ran
        exact .unknown uid rfl
      · rw [if_neg none] at ran
        cases ran
        exact .known uid (lookup_row ended)
  | nextUid uid =>
    simp only [loginStatement] at ran
    split at ran
    next => cases ran
    next =>
      cases ran
      exact .known _ (.inl (by decide))
    next next ended =>
      cases ran
      obtain rfl := eachRow_single _ _ ended
      exact .read uid rfl
  | insert uid =>
    simp only [loginStatement] at ran
    split at ran
    next => cases ran
    next =>
      cases ran
      exact .known _ (.inl (by decide))
    next done =>
      cases ran
      exact .inserted uid rfl (insertUser_done done)

/-! ### Unique rows -/

theorem uniqueUids_append {db : Db} (unique : UniqueUids db) (user : User)
    (free : user.uid ∉ db.users.map User.uid) : UniqueUids { db with users := db.users ++ [user] } :=
  (Grows.added user free).unique unique

theorem uniqueLogins_append_iff {db : Db} (unique : UniqueLogins db) (user : User) :
    UniqueLogins { db with users := db.users ++ [user] } ↔ user.login ∉ db.users.map User.login := by
  unfold UniqueLogins at unique ⊢
  rw [List.map_append, List.nodup_append]
  constructor
  · rintro ⟨_, _, apart⟩ there
    exact apart _ there _ (by simp) rfl
  · intro fresh
    refine ⟨unique, by simp, ?_⟩
    intro login there other here same
    simp only [List.map_cons, List.map_nil, List.mem_singleton] at here
    exact fresh (here ▸ same ▸ there)

/-- A call reads a next uid that is free only while its login has no row. -/
def ReadsUnknown (s : Registrations) : RegistrationAction → Prop
  | .statement i _ => ∀ call uid, s.calls[i]? = some call → call.phase = .nextUid uid →
      selectNextUid s.db ∉ s.db.users.map User.uid → call.login ∉ s.db.users.map User.login
  | .call .. => True

/-- The table has unique rows, an INSERT that can go through is for a login without a row, and
what has been returned is in the table. -/
structure Registry (trace : List Returned) (s : Registrations) : Prop where
  uids : UniqueUids s.db
  logins : UniqueLogins s.db
  read : ∀ call ∈ s.calls, ∀ uid, call.phase = .insert uid →
    uid ∈ s.db.users.map User.uid ∨
      (uid = selectNextUid s.db ∧ call.login ∉ s.db.users.map User.login)
  returned : ∀ entry ∈ trace, entry.uid < 0 ∨ ∃ hash, ⟨entry.uid, entry.login, hash⟩ ∈ s.db.users

/-- The ways in which a step can go. -/
inductive RegistrationTransition (md5hex : Block → Block) (s : Registrations) :
    RegistrationAction → List Returned → Registrations → Prop
  | called (login passwd : Block) : RegistrationTransition md5hex s (.call login passwd) []
      { s with calls := s.calls ++ [⟨login, md5hex passwd, .lookup⟩] }
  | next (i : Nat) (noise : List Noise) (call : LoginCall) (phase : LoginPhase) (db : Db)
      (there : s.calls[i]? = some call) (advances : StatementEnds s.db call (.next phase) db) :
      RegistrationTransition md5hex s (.statement i noise) []
        ⟨db, s.calls.set i { call with phase := phase }⟩
  | returned (i : Nat) (noise : List Noise) (call : LoginCall) (uid : Int32) (db : Db)
      (there : s.calls[i]? = some call) (advances : StatementEnds s.db call (.returned uid) db) :
      RegistrationTransition md5hex s (.statement i noise) [⟨call.login, uid⟩]
        ⟨db, s.calls.eraseIdx i⟩

theorem registrationStep_transition {md5hex : Block → Block} {s s' : Registrations}
    {action : RegistrationAction} {did : List Returned}
    (taken : registrationStep md5hex s action = some (did, some s')) :
    RegistrationTransition md5hex s action did s' := by
  cases action with
  | call login passwd =>
    cases taken
    exact .called login passwd
  | statement i noise =>
    obtain ⟨call, there, taken⟩ := Option.bind_eq_some_iff.mp taken
    obtain ⟨⟨advance, db⟩, ran, taken⟩ := Option.bind_eq_some_iff.mp taken
    have advances := loginStatement_ends ran
    cases advance with
    | next phase =>
      cases taken
      exact .next i noise call phase db there advances
    | returned uid =>
      cases taken
      exact .returned i noise call uid db there advances

namespace Registry

variable {md5hex : Block → Block} {trace : List Returned} {s s' : Registrations}

theorem init {db : Db} (uids : UniqueUids db) (logins : UniqueLogins db) : Registry [] ⟨db, []⟩ :=
  ⟨uids, logins, nofun, nofun⟩

/-- The next step leaves unique rows, and keeps all of it if it does not read for a login that
has a row. -/
theorem step (registry : Registry trace s) {action : RegistrationAction} {did : List Returned}
    (transition : RegistrationTransition md5hex s action did s') :
    UniqueUids s'.db ∧ UniqueLogins s'.db ∧
      (ReadsUnknown s action → Registry (trace ++ did) s') := by
  cases transition with
  | called login passwd =>
    refine ⟨registry.uids, registry.logins, fun _ => ⟨registry.uids, registry.logins, ?_, ?_⟩⟩
    · intro call member uid phase
      rcases List.mem_append.mp member with old | new
      · exact registry.read call old uid phase
      · cases List.mem_singleton.mp new
        cases phase
    · simpa using registry.returned
  | next i noise call phase db there advances =>
    have keeps (read : ∀ uid, phase = .insert uid → uid ∈ s.db.users.map User.uid ∨
        (uid = selectNextUid s.db ∧ call.login ∉ s.db.users.map User.login)) :
        Registry (trace ++ []) ⟨s.db, s.calls.set i { call with phase := phase }⟩ := by
      refine ⟨registry.uids, registry.logins, ?_, by simpa using registry.returned⟩
      intro call' member uid phase'
      rcases List.mem_or_eq_of_mem_set member with old | rfl
      · exact registry.read call' old uid phase'
      · exact read uid phase'
    cases advances with
    | unknown uid looked => exact ⟨registry.uids, registry.logins, fun _ => keeps nofun⟩
    | read uid reads =>
      refine ⟨registry.uids, registry.logins, fun met => keeps ?_⟩
      rintro uid' ⟨⟩
      by_cases taken : selectNextUid s.db ∈ s.db.users.map User.uid
      · exact .inl taken
      · exact .inr ⟨rfl, met call uid there reads taken⟩
  | returned i noise call uid db there advances =>
    have member := List.mem_of_getElem? there
    cases advances with
    | known _ row =>
      refine ⟨registry.uids, registry.logins, fun _ => ⟨registry.uids, registry.logins, ?_, ?_⟩⟩
      · exact fun call' member' => registry.read call' (List.mem_of_mem_eraseIdx member')
      · intro entry returned
        rcases List.mem_append.mp returned with old | new
        · exact registry.returned entry old
        · cases List.mem_singleton.mp new
          exact row
    | inserted _ phase free =>
      -- The uid is the next one, so nothing has gone through since it was read.
      obtain ⟨next, fresh⟩ := (registry.read call member uid phase).resolve_left free
      have uids := uniqueUids_append registry.uids ⟨uid, call.login, call.hash⟩ free
      have logins := (uniqueLogins_append_iff registry.logins ⟨uid, call.login, call.hash⟩).mpr fresh
      refine ⟨uids, logins, fun _ => ⟨uids, logins, ?_, ?_⟩⟩
      · intro call' member' uid' phase'
        left
        dsimp only
        rw [List.map_append, List.mem_append]
        -- Every other uid that was read is taken now.
        rcases registry.read call' (List.mem_of_mem_eraseIdx member') uid' phase' with taken | ⟨same, _⟩
        · exact .inl taken
        · exact .inr (by simp [same, next])
      · intro entry returned
        rcases List.mem_append.mp returned with old | new
        · refine (registry.returned entry old).imp id fun ⟨hash, row⟩ => ⟨hash, ?_⟩
          exact List.mem_append_left _ row
        · cases List.mem_singleton.mp new
          exact .inr ⟨call.hash, List.mem_append_right _ (by simp)⟩

theorem of_ran {db : Db} (uids : UniqueUids db) (logins : UniqueLogins db)
    (ran : Ran (registrationStep md5hex) ReadsUnknown ⟨db, []⟩ trace s) : Registry trace s := by
  induction ran with
  | start => exact .init uids logins
  | step _ met taken registry =>
    exact (registry.step (registrationStep_transition taken)).2.2 met

/-- Two calls for one login have not returned two uids. -/
theorem returned_eq (registry : Registry trace s) {login : Block} {uid uid' : Int32}
    (first : ⟨login, uid⟩ ∈ trace) (second : ⟨login, uid'⟩ ∈ trace) (valid : ¬uid < 0)
    (valid' : ¬uid' < 0) : uid = uid' := by
  obtain ⟨hash, row⟩ := (registry.returned _ first).resolve_left valid
  obtain ⟨hash', row'⟩ := (registry.returned _ second).resolve_left valid'
  have same := List.inj_on_of_nodup_map registry.logins row row' rfl
  cases same
  rfl

end Registry

/-- The primary key keeps the uids apart in every run. -/
theorem registration_uids_unique (md5hex : Block → Block) {db : Db} (uids : UniqueUids db)
    {cond : Registrations → RegistrationAction → Prop} {trace : List Returned} {s : Registrations}
    (ran : Ran (registrationStep md5hex) cond ⟨db, []⟩ trace s) : UniqueUids s.db := by
  induction ran with
  | start => exact uids
  | step _ _ taken unique =>
    cases registrationStep_transition taken with
    | called => exact unique
    | next i noise call phase db there advances =>
      cases advances <;> exact unique
    | returned i noise call uid db there advances =>
      cases advances with
      | known => exact unique
      | inserted _ _ fresh => exact uniqueUids_append unique _ fresh

/-- Where nothing interrupts it, a call that reads the next uid goes on to its INSERT. -/
theorem replay_nextUid {md5hex : Block → Block} {s s' : Registrations} {i : Nat} {call : LoginCall}
    {uid : Int32} {later : List Returned} (there : s.calls[i]? = some call)
    (phase : call.phase = .nextUid uid)
    (replayed : replay (registrationStep md5hex) s [.statement i [], .statement i []] = some (later, s')) :
    s'.db = if selectNextUid s.db ∈ s.db.users.map User.uid then s.db
      else { s.db with users := s.db.users ++ [⟨selectNextUid s.db, call.login, call.hash⟩] } := by
  have inside : i < s.calls.length := (List.getElem?_eq_some_iff.mp there).1
  have read : registrationStep md5hex s (.statement i []) =
      some ([], some ⟨s.db, s.calls.set i { call with phase := .insert (selectNextUid s.db) }⟩) := by
    simp only [registrationStep, there, Option.bind_eq_bind, Option.bind_some, loginStatement, phase]
    rfl
  rw [replay, read] at replayed
  simp only [replay, registrationStep, List.getElem?_set_self inside, Option.bind_eq_bind,
    Option.bind_some, loginStatement, insertUser] at replayed
  by_cases taken : selectNextUid s.db ∈ s.db.users.map User.uid
  · simp only [if_pos taken] at replayed ⊢
    cases replayed
    rfl
  · simp only [if_neg taken] at replayed ⊢
    cases replayed
    rfl

/-- In a run in which no call reads a free next uid for a login that has got a row since its
lookup, the logins and the uids stay unique, and calls for one login return one uid. Two
statements of one call after another keep the logins unique just when the first of them is
no such read. -/
theorem reads_unknown_iff_unique (md5hex : Block → Block) {db : Db} (uids : UniqueUids db)
    (logins : UniqueLogins db) {trace : List Returned} {s : Registrations}
    (ran : Ran (registrationStep md5hex) ReadsUnknown ⟨db, []⟩ trace s) :
    UniqueLogins s.db ∧ UniqueUids s.db ∧
    (∀ login uid uid', ⟨login, uid⟩ ∈ trace → ⟨login, uid'⟩ ∈ trace → ¬uid < 0 → ¬uid' < 0 → uid = uid') ∧
    ∀ i later s', replay (registrationStep md5hex) s [.statement i [], .statement i []] = some (later, s') →
      (UniqueLogins s'.db ↔ ReadsUnknown s (.statement i [])) := by
  have registry := Registry.of_ran uids logins ran
  refine ⟨registry.logins, registry.uids, fun _ _ _ => registry.returned_eq, ?_⟩
  intro i later s' replayed
  by_cases reading : ∃ call uid, s.calls[i]? = some call ∧ call.phase = .nextUid uid
  · obtain ⟨call, uid, there, phase⟩ := reading
    rw [replay_nextUid there phase replayed]
    by_cases taken : selectNextUid s.db ∈ s.db.users.map User.uid
    · -- The primary key refuses the INSERT.
      rw [if_pos taken]
      exact iff_of_true registry.logins fun _ _ _ _ fresh => absurd taken fresh
    · rw [if_neg taken, uniqueLogins_append_iff registry.logins]
      constructor
      · intro fresh call' uid' there' _ _
        rw [there] at there'
        cases there'
        exact fresh
      · exact fun met => met call uid there phase taken
  · have met : ReadsUnknown s (.statement i []) := fun call uid there phase _ =>
      absurd ⟨call, uid, there, phase⟩ reading
    refine iff_of_true ?_ met
    -- The first statement keeps what the second one needs.
    unfold replay at replayed
    split at replayed
    next did middle taken =>
      have after := (registry.step (registrationStep_transition taken)).2.2 met
      obtain ⟨⟨did', last⟩, replayed, same⟩ := Option.map_eq_some_iff.mp replayed
      cases same
      unfold replay at replayed
      split at replayed
      next did' last' taken' =>
        cases replayed
        exact (after.step (registrationStep_transition taken')).2.1
      next => cases replayed
    next => cases replayed

/-! ### Two runs -/

/-- A table with the row of root. -/
def rootOnly : Db := ⟨[⟨rootUid, [114, 111, 111, 116], []⟩], []⟩

/-- One call runs all of its three statements, then another one for the same login starts. -/
def registerTwice : List RegistrationAction :=
  [.call [97] [], .statement 0 [], .statement 0 [], .statement 0 [], .call [97] [], .statement 0 []]

theorem reads_unknown_iff_unique_twice : ∃ trace s,
    replay (registrationStep id) ⟨rootOnly, []⟩ registerTwice = some (trace, s) ∧
    trace = [⟨[97], 2⟩, ⟨[97], 2⟩] ∧ UniqueLogins s.db ∧ UniqueUids s.db := by
  have ran : ∃ trace s, replay (registrationStep id) ⟨rootOnly, []⟩ registerTwice = some (trace, s) ∧
      trace = [⟨[97], 2⟩, ⟨[97], 2⟩] := ⟨_, _, rfl, rfl⟩
  obtain ⟨trace, s, replayed, returned⟩ := ran
  have meets : Meets (registrationStep id) ReadsUnknown ⟨rootOnly, []⟩ registerTwice := by
    refine ⟨trivial, ?_, ?_, ?_, trivial, ?_, trivial⟩
    all_goals
      rintro call uid ⟨⟩ phase
      cases phase <;> decide
  obtain ⟨logins, unique, _⟩ := reads_unknown_iff_unique id (by decide : UniqueUids rootOnly)
    (by decide : UniqueLogins rootOnly) (ran_of_replay meets replayed)
  exact ⟨trace, s, replayed, returned, logins, unique⟩

/-- Two calls look one login up before either of them registers it, and the second reads the next
uid after the first has gone through. -/
def registerBetween : List RegistrationAction :=
  [.call [97] [], .call [97] [], .statement 0 [], .statement 1 [], .statement 0 [], .statement 0 [],
    .statement 0 [], .statement 0 []]

/-- Both register, and one login has two accounts. -/
theorem two_accounts : ¬∀ (md5hex : Block → Block) (db : Db), UniqueUids db → UniqueLogins db →
    ∀ (trace : List Returned) (s : Registrations),
    Ran (registrationStep md5hex) (fun _ _ => True) ⟨db, []⟩ trace s →
    UniqueLogins s.db ∧ UniqueUids s.db ∧ ∀ login uid uid', ⟨login, uid⟩ ∈ trace →
      ⟨login, uid'⟩ ∈ trace → ¬uid < 0 → ¬uid' < 0 → uid = uid' := by
  intro claim
  have ran : ∃ trace s, replay (registrationStep id) ⟨rootOnly, []⟩ registerBetween = some (trace, s) ∧
      trace = [⟨[97], 2⟩, ⟨[97], 3⟩] := ⟨_, _, rfl, rfl⟩
  obtain ⟨trace, s, replayed, returned⟩ := ran
  obtain ⟨_, _, same⟩ := claim id rootOnly (by decide) (by decide) trace s
    (ran_of_replay (meets_of_forall (fun _ _ => trivial) _ _) replayed)
  rw [returned] at same
  have wrong := same [97] 2 3 (by simp) (by simp) (by decide) (by decide)
  cases wrong

end AcosChat

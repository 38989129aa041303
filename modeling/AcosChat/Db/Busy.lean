import AcosChat.Db.Accounts

/-!
# Results of `sqlite3_step`

The statements of `db.c` over any sequences of results, also those that no table gives. The
loops over rows forget every BUSY but one: a DONE that comes right after a BUSY is read by
the inner loop, which takes it for a failure.
-/
namespace AcosChat

open Bytes

variable {σ ρ : Type}

/-! ### A sequence of results -/

/-- The first result that is neither a row nor BUSY. -/
inductive StepEnding where
  | done
  | error
deriving DecidableEq, Repr

def ending : List (SqlStep ρ) → Option StepEnding
  | [] => none
  | .done :: _ => some .done
  | .error :: _ => some .error
  | .busy :: rest | .row _ :: rest => ending rest

/-- The rows before the ending. -/
def rowsBefore : List (SqlStep ρ) → List ρ
  | [] | .done :: _ | .error :: _ => []
  | .busy :: rest => rowsBefore rest
  | .row columns :: rest => columns :: rowsBefore rest

/-- The sequence ends with DONE, and the result before it is BUSY. -/
def doneAfterBusy : Bool → List (SqlStep ρ) → Bool
  | _, [] => false
  | waiting, .done :: _ => waiting
  | _, .error :: _ => false
  | _, .busy :: rest => doneAfterBusy true rest
  | _, .row _ :: rest => doneAfterBusy false rest

def isBusy : SqlStep ρ → Bool
  | .busy => true
  | _ => false

/-- The sequence as it would be without contention. -/
def withoutBusy (results : List (SqlStep ρ)) : List (SqlStep ρ) := results.filter fun r => !isBusy r

theorem ending_withoutBusy (results : List (SqlStep ρ)) : ending (withoutBusy results) = ending results := by
  induction results with
  | nil => rfl
  | cons result results ih =>
    cases result with
    | row => exact ih
    | done => rfl
    | busy => exact ih
    | error => rfl

theorem rowsBefore_withoutBusy (results : List (SqlStep ρ)) :
    rowsBefore (withoutBusy results) = rowsBefore results := by
  induction results with
  | nil => rfl
  | cons result results ih =>
    cases result with
    | row columns => exact congrArg (columns :: ·) ih
    | done => rfl
    | busy => exact ih
    | error => rfl

/-- Sequences that differ in BUSY results end alike, after the same rows. -/
theorem ending_congr {results results' : List (SqlStep ρ)} (same : withoutBusy results = withoutBusy results') :
    ending results = ending results' ∧ rowsBefore results = rowsBefore results' := by
  rw [← ending_withoutBusy results, ← rowsBefore_withoutBusy results, same, ending_withoutBusy,
    rowsBefore_withoutBusy]
  exact ⟨rfl, rfl⟩

theorem doneAfterBusy_ending {results : List (SqlStep ρ)} {waiting : Bool}
    (late : doneAfterBusy waiting results = true) : ending results = some .done := by
  induction results generalizing waiting with
  | nil => cases late
  | cons result results ih =>
    cases result with
    | row => exact ih late
    | done => rfl
    | busy => exact ih late
    | error => cases late

/-- A statement that ends with DONE has given all of its rows. -/
theorem rowsBefore_answers {rows : List ρ} {noise : List Noise}
    (ends : ending (answers rows noise) = some .done) : rowsBefore (answers rows noise) = rows := by
  induction noise generalizing rows with
  | nil =>
    induction rows with
    | nil => rfl
    | cons row rows ih => exact congrArg (row :: ·) (ih ends)
  | cons n noise ih =>
    cases n with
    | busy => exact ih ends
    | error => cases ends
    | ok =>
      cases rows with
      | nil => rfl
      | cons row rows => exact congrArg (row :: ·) (ih ends)

/-! ### The loops -/

/-- What the loop over the rows of a statement makes of any sequence of results. -/
theorem eachRow_eq (body : σ → ρ → σ) (waiting : Bool) (state : σ) (results : List (SqlStep ρ)) :
    eachRow body waiting state results =
      match ending results with
      | none => .running
      | some .error => .failed ((rowsBefore results).foldl body state)
      | some .done =>
        if doneAfterBusy waiting results then .failed ((rowsBefore results).foldl body state)
        else .done ((rowsBefore results).foldl body state) := by
  induction results generalizing waiting state with
  | nil => rfl
  | cons result results ih =>
    cases result with
    | row columns => exact ih false (body state columns)
    | done => cases waiting <;> rfl
    | busy => exact ih true state
    | error => rfl

/-- The loop goes through just where no failure ends it and no BUSY comes right before the DONE. -/
theorem eachRow_done_iff (body : σ → ρ → σ) (state last : σ) (results : List (SqlStep ρ)) :
    eachRow body false state results = .done last ↔
      ending results = some .done ∧ doneAfterBusy false results = false ∧
        (rowsBefore results).foldl body state = last := by
  rw [eachRow_eq]
  cases ending results with
  | none => simp
  | some e =>
    cases e with
    | error => simp
    | done => cases doneAfterBusy false results <;> simp

/-- The loop over the results of an INSERT waits for as long as it takes. -/
theorem insertLoop_eq (results : List (SqlStep ρ)) :
    insertLoop results = (ending results).map fun e => decide (e = .done) := by
  induction results with
  | nil => rfl
  | cons result results ih =>
    cases result with
    | row => exact ih
    | done => rfl
    | busy => exact ih
    | error => rfl

/-! ### Registration -/

/-- The body of the first loop of `login_or_register`. -/
def lookupRow (hash : Block) (state : Nat × Int32) (columns : Int32 × Block) : Nat × Int32 :=
  (state.1 + 1, if columns.2 = hash then columns.1 else state.2)

theorem foldl_lookupRow (hash : Block) (rows : List (Int32 × Block)) (count : Nat) (uid : Int32) :
    rows.foldl (lookupRow hash) (count, uid) =
      (count + rows.length, ((rows.filter fun row => row.2 = hash).getLast?.map Prod.fst).getD uid) := by
  induction rows generalizing count uid with
  | nil => rfl
  | cons row rows ih =>
    rw [List.foldl_cons, lookupRow, ih, List.length_cons, Nat.add_right_comm, ← Nat.add_assoc]
    by_cases same : row.2 = hash
    · rw [List.filter_cons_of_pos (by simpa using same), List.getLast?_cons, if_pos same]
      cases (rows.filter fun row => row.2 = hash).getLast? <;> rfl
    · rw [List.filter_cons_of_neg (by simpa using same), if_neg same]

/-- The loop over these rows goes through. -/
def EndsWell (results : List (SqlStep ρ)) : Prop :=
  ending results = some .done ∧ doneAfterBusy false results = false

theorem endsWell_of_done {rows : List ρ} {noise : List Noise} {body : σ → ρ → σ} {state last : σ}
    (ended : eachRow body false state (answers rows noise) = .done last) :
    EndsWell (answers rows noise) ∧ rows.foldl body state = last := by
  obtain ⟨ends, onTime, folded⟩ := (eachRow_done_iff _ _ _ _).mp ended
  rw [rowsBefore_answers ends] at folded
  exact ⟨⟨ends, onTime⟩, folded⟩

theorem endsWell_of_quiet (rows : List ρ) {noise : List Noise} (quiet : ∀ n ∈ noise, n = .ok) :
    EndsWell (answers rows noise) := by
  have loop := eachRow_quiet (fun (_ : Unit) (_ : ρ) => ()) rows noise quiet ()
  exact (endsWell_of_done loop).1

theorem eachRow_answers {rows : List ρ} {noise : List Noise} (endsWell : EndsWell (answers rows noise))
    (body : σ → ρ → σ) (state : σ) :
    eachRow body false state (answers rows noise) = .done (rows.foldl body state) :=
  (eachRow_done_iff _ _ _ _).mpr ⟨endsWell.1, endsWell.2, by rw [rowsBefore_answers endsWell.1]⟩

theorem selectByLogin_eq_nil {db : Db} {login : Block} (unknown : login ∉ db.users.map User.login) :
    selectByLogin db login = [] := by
  rw [selectByLogin, List.map_eq_nil_iff, List.filter_eq_nil_iff]
  intro user member
  simp only [decide_eq_true_eq]
  rintro rfl
  exact unknown (List.mem_map_of_mem member)

/-- The login has no row, the next uid is free, and the three statements get through. -/
structure Registers (script : Script) (login : Block) (db : Db) : Prop where
  unknown : selectByLogin db login = []
  free : selectNextUid db ∉ db.users.map User.uid
  lookup : EndsWell (answers ([] : List (Int32 × Block)) (script 0))
  next : EndsWell (answers [selectNextUid db] (script 1))
  insert : ending (answers ([] : List Unit) (script 2)) = some .done

/-- Then the login is registered under the next uid. -/
theorem Registers.returns {script : Script} {login : Block} {db : Db} (registers : Registers script login db)
    (md5hex : Block → Block) (passwd : Block) : loginOrRegister md5hex script login passwd db =
      some (selectNextUid db, { db with users := db.users ++ [⟨selectNextUid db, login, md5hex passwd⟩] }) := by
  have inserted : insertLoop (insertUser db ⟨selectNextUid db, login, md5hex passwd⟩ (script 2)) = some true := by
    rw [insertUser, if_neg registers.free, insertLoop_eq, registers.insert]
    rfl
  unfold loginOrRegister
  dsimp only
  rw [registers.unknown, eachRow_answers registers.lookup]
  simp only [List.foldl_nil, ite_true]
  rw [eachRow_answers registers.next]
  simp only [List.foldl_cons, List.foldl_nil, inserted]

/-- Otherwise the table is left as it is. -/
theorem loginOrRegister_unchanged {md5hex : Block → Block} {script : Script} {login passwd : Block} {db db' : Db}
    {uid : Int32} (other : ¬Registers script login db)
    (returned : loginOrRegister md5hex script login passwd db = some (uid, db')) : db' = db := by
  unfold loginOrRegister at returned
  dsimp only at returned
  split at returned
  next => cases returned
  next =>
    cases returned
    rfl
  next rows found looked =>
    split at returned
    next nobody =>
      split at returned
      next => cases returned
      next =>
        cases returned
        rfl
      next uid' read =>
        split at returned
        next => cases returned
        next =>
          cases returned
          rfl
        next inserted =>
          have none_ : selectByLogin db login = [] := by
            have counted : (selectByLogin db login).foldl (lookupRow (md5hex passwd))
                (0, -(Int32.ofNat msgStatusAuthError)) = (rows, found) := (endsWell_of_done looked).2
            rw [foldl_lookupRow, Prod.mk.injEq, Nat.zero_add, nobody] at counted
            exact List.length_eq_zero_iff.mp counted.1
          obtain rfl : selectNextUid db = uid' := (endsWell_of_done read).2
          have free := insertUser_done inserted
          -- All three have got through.
          refine absurd ⟨?_, ?_, ?_, ?_, ?_⟩ other
          · exact none_
          · exact free
          · rw [none_] at looked
            exact (endsWell_of_done looked).1
          · exact (endsWell_of_done read).1
          · rw [insertUser, if_neg free, insertLoop_eq] at inserted
            obtain ⟨last, ends, done⟩ := Option.map_eq_some_iff.mp inserted
            rw [ends, of_decide_eq_true done]
    next =>
      cases returned
      rfl

/-! ### The functions over sequences of results -/

/-- A statement of `login_or_register`, with what is bound to it. -/
inductive LoginStatement where
  /-- `SELECT uid, password_hash FROM users WHERE login = ?001;` -/
  | byLogin (login : Block)
  /-- `SELECT MAX(uid) + 1 FROM USERS;` -/
  | nextUid
  /-- `INSERT INTO users VALUES (?001, ?002, ?003);` -/
  | insertUser (user : User)
deriving DecidableEq, Repr

/-- What `login_or_register` does when nobody has the login, over the results of the two statements:
the value returned unless it runs on, and the statements executed. -/
def registerOverResults (hash login : Block) (uid : Int32) (next : List (SqlStep Int32))
    (insert : User → List (SqlStep Unit)) : Option Int32 × List LoginStatement :=
  let regError : Int32 := -(Int32.ofNat msgStatusRegError)
  match eachRow (fun _ next => next) false uid next with
  | .running => (none, [.nextUid])
  | .failed _ => (some regError, [.nextUid])
  | .done uid =>
    let user : User := ⟨uid, login, hash⟩
    match insertLoop (insert user) with
    | none => (none, [.nextUid, .insertUser user])
    | some false => (some regError, [.nextUid, .insertUser user])
    | some true => (some uid, [.nextUid, .insertUser user])

/-- `login_or_register` over the results of its three statements. -/
def loginOverResults (hash login : Block) (lookup : List (SqlStep (Int32 × Block)))
    (next : List (SqlStep Int32)) (insert : User → List (SqlStep Unit)) :
    Option Int32 × List LoginStatement :=
  let authError : Int32 := -(Int32.ofNat msgStatusAuthError)
  match eachRow (lookupRow hash) false (0, authError) lookup with
  | .running => (none, [.byLogin login])
  | .failed _ => (some authError, [.byLogin login])
  | .done (rows, uid) =>
    if rows = 0 then
      let (value, executed) := registerOverResults hash login uid next insert
      (value, .byLogin login :: executed)
    else (some uid, [.byLogin login])

/-- `get_login_by_uid` over the results of its statement; the null pointer is the inner `none`. -/
def nameOverResults (results : List (SqlStep Block)) : Option (Option Block) :=
  match eachRow (fun _ login => some login) false none results with
  | .running => none
  | .failed _ => some none
  | .done login => some login

/-- On a table the functions are what they are over the results that it gives. -/
theorem loginOrRegister_eq_overResults (md5hex : Block → Block) (script : Script) (login passwd : Block)
    (db : Db) : (loginOrRegister md5hex script login passwd db).map Prod.fst =
      (loginOverResults (md5hex passwd) login (answers (selectByLogin db login) (script 0))
        (answers [selectNextUid db] (script 1)) fun user => insertUser db user (script 2)).1 := by
  have row : lookupRow (md5hex passwd) = fun state columns =>
      (state.1 + 1, if columns.2 = md5hex passwd then columns.1 else state.2) := rfl
  simp only [loginOrRegister, loginOverResults, registerOverResults, row]
  cases eachRow _ false _ (answers (selectByLogin db login) (script 0)) with
  | running => rfl
  | failed => rfl
  | done found =>
    obtain ⟨rows, uid⟩ := found
    by_cases unknown : rows = 0
    · simp only [if_pos unknown]
      cases eachRow _ false uid (answers [selectNextUid db] (script 1)) with
      | running => rfl
      | failed => rfl
      | done uid =>
        dsimp only
        cases insertLoop (insertUser db ⟨uid, login, md5hex passwd⟩ (script 2)) with
        | none => rfl
        | some done => cases done <;> rfl
    · simp only [if_neg unknown]
      rfl

theorem getLoginByUid_eq_overResults (noise : List Noise) (uid : Int32) (db : Db) :
    getLoginByUid noise uid db = nameOverResults (answers (selectLogin db uid) noise) := rfl

/-! ### Contention -/

/-- The loop over the rows takes the end of both sequences alike. -/
def SameDone (results results' : List (SqlStep ρ)) : Prop :=
  doneAfterBusy false results = doneAfterBusy false results'

/-- The lookup finds no row, and no BUSY comes right before its DONE. -/
def FindsNobody (lookup : List (SqlStep (Int32 × Block))) : Prop :=
  ending lookup = some .done ∧ doneAfterBusy false lookup = false ∧ rowsBefore lookup = []

/-- There are rows, and the last one with the digest, if any, has the uid of the refusal. -/
def Refuses (hash : Block) (lookup : List (SqlStep (Int32 × Block))) : Prop :=
  rowsBefore lookup ≠ [] ∧ ∀ row ∈ ((rowsBefore lookup).filter fun row => row.2 = hash).getLast?,
    row.1 = -(Int32.ofNat msgStatusAuthError)

/-- The uid that the lookup leaves is that of the refusal just where no row gives another one. -/
theorem foldl_lookupRow_refuses (hash : Block) (lookup : List (SqlStep (Int32 × Block)))
    (some_ : rowsBefore lookup ≠ []) :
    ((rowsBefore lookup).foldl (lookupRow hash) (0, -(Int32.ofNat msgStatusAuthError))).2 =
      -(Int32.ofNat msgStatusAuthError) ↔ Refuses hash lookup := by
  rw [foldl_lookupRow, Refuses]
  cases ((rowsBefore lookup).filter fun row => row.2 = hash).getLast? with
  | none => simp [some_]
  | some row => simp [some_]

/-- Where they take the DONE alike, the loops end alike. -/
theorem eachRow_congr {results results' : List (SqlStep ρ)} (same : withoutBusy results = withoutBusy results')
    (alike : SameDone results results') (body : σ → ρ → σ) (state : σ) :
    eachRow body false state results = eachRow body false state results' := by
  obtain ⟨ends, rows⟩ := ending_congr same
  rw [eachRow_eq, eachRow_eq, ends, rows, alike]

/-- Where they do not, one of the loops goes through and the other one fails after the same rows. -/
theorem eachRow_of_not_sameDone {results results' : List (SqlStep ρ)}
    (same : withoutBusy results = withoutBusy results') (other : ¬SameDone results results')
    (body : σ → ρ → σ) (state : σ) :
    (eachRow body false state results = .done ((rowsBefore results).foldl body state) ∧
      eachRow body false state results' = .failed ((rowsBefore results).foldl body state)) ∨
    (eachRow body false state results = .failed ((rowsBefore results).foldl body state) ∧
      eachRow body false state results' = .done ((rowsBefore results).foldl body state)) := by
  obtain ⟨ends, rows⟩ := ending_congr same
  rw [eachRow_eq, eachRow_eq, ← ends, ← rows]
  unfold SameDone at other
  cases late : doneAfterBusy false results with
  | true =>
    have onTime : doneAfterBusy false results' = false := by simpa [late] using other
    right
    simp [doneAfterBusy_ending late, onTime]
  | false =>
    have late' : doneAfterBusy false results' = true := by simpa [late] using other
    left
    simp [ends, doneAfterBusy_ending late', late']

theorem findsNobody_iff (lookup : List (SqlStep (Int32 × Block))) (hash : Block) (uid : Int32) :
    FindsNobody lookup ↔ eachRow (lookupRow hash) false (0, uid) lookup = .done (0, uid) := by
  rw [eachRow_done_iff, foldl_lookupRow, FindsNobody, Nat.zero_add, Prod.mk.injEq, List.length_eq_zero_iff]
  constructor
  · rintro ⟨ends, onTime, none_⟩
    exact ⟨ends, onTime, none_, by rw [none_]; rfl⟩
  · rintro ⟨ends, onTime, none_, _⟩
    exact ⟨ends, onTime, none_⟩

/-- The INSERT is executed after a DONE that is taken for one. -/
theorem registerOverResults_executed (hash login : Block) (uid : Int32) (next : List (SqlStep Int32))
    (insert : User → List (SqlStep Unit)) :
    (registerOverResults hash login uid next insert).2 =
      match eachRow (fun _ next => next) false uid next with
      | .done uid => [.nextUid, .insertUser ⟨uid, login, hash⟩]
      | .failed _ | .running => [.nextUid] := by
  unfold registerOverResults
  cases eachRow (fun _ next => next) false uid next with
  | running => rfl
  | failed => rfl
  | done uid =>
    dsimp only
    split <;> rfl

/-- A registration differs where its SELECT takes the DONE otherwise. -/
theorem registerOverResults_eq_iff (hash login : Block) (uid : Int32) {next next' : List (SqlStep Int32)}
    {insert insert' : User → List (SqlStep Unit)} (sameNext : withoutBusy next = withoutBusy next')
    (sameInsert : ∀ user, withoutBusy (insert user) = withoutBusy (insert' user)) :
    registerOverResults hash login uid next insert = registerOverResults hash login uid next' insert' ↔
      SameDone next next' := by
  have inserts : ∀ user, insertLoop (insert user) = insertLoop (insert' user) := by
    intro user
    rw [insertLoop_eq, insertLoop_eq, (ending_congr (sameInsert user)).1]
  constructor
  · intro equal
    by_contra other
    have statements := congrArg Prod.snd equal
    rw [registerOverResults_executed, registerOverResults_executed] at statements
    rcases eachRow_of_not_sameDone sameNext other (fun _ next => next) uid with ⟨here, there⟩ | ⟨here, there⟩
    · rw [here, there] at statements
      cases statements
    · rw [here, there] at statements
      cases statements
  · intro alike
    simp only [registerOverResults, eachRow_congr sameNext alike, inserts]

/-- After a lookup that goes through, the refusal is the answer just where the rows refuse. -/
theorem loginOverResults_refuses_iff (hash login : Block) {lookup : List (SqlStep (Int32 × Block))}
    (next : List (SqlStep Int32)) (insert : User → List (SqlStep Unit))
    (passed : eachRow (lookupRow hash) false (0, -(Int32.ofNat msgStatusAuthError)) lookup =
      .done ((rowsBefore lookup).foldl (lookupRow hash) (0, -(Int32.ofNat msgStatusAuthError)))) :
    loginOverResults hash login lookup next insert =
        (some (-(Int32.ofNat msgStatusAuthError)), [.byLogin login]) ↔ Refuses hash lookup := by
  simp only [loginOverResults, passed]
  by_cases nobody : rowsBefore lookup = []
  · refine iff_of_false ?_ fun refuses => refuses.1 nobody
    simp only [nobody, List.foldl_nil, ite_true]
    -- At least one more statement has been executed.
    intro same
    have statements := congrArg Prod.snd same
    simp only [registerOverResults_executed, List.cons.injEq, true_and] at statements
    split at statements <;> cases statements
  · have counted : ((rowsBefore lookup).foldl (lookupRow hash) (0, -(Int32.ofNat msgStatusAuthError))).1 ≠ 0 := by
      rw [foldl_lookupRow]
      have := List.length_pos_of_ne_nil nobody
      dsimp only
      omega
    rw [← foldl_lookupRow_refuses hash lookup nobody, if_neg counted]
    simp

/-- Two sequences of results that differ in BUSY only give `login_or_register` the same value and
the same statements just where it takes the DONE of each SELECT alike, or refuses the login
either way. -/
theorem loginOverResults_eq_iff (hash login : Block) {lookup lookup' : List (SqlStep (Int32 × Block))}
    {next next' : List (SqlStep Int32)} {insert insert' : User → List (SqlStep Unit)}
    (sameLookup : withoutBusy lookup = withoutBusy lookup') (sameNext : withoutBusy next = withoutBusy next')
    (sameInsert : ∀ user, withoutBusy (insert user) = withoutBusy (insert' user)) :
    loginOverResults hash login lookup next insert = loginOverResults hash login lookup' next' insert' ↔
      (SameDone lookup lookup' ∨ Refuses hash lookup) ∧ (FindsNobody lookup → SameDone next next') := by
  by_cases alike : SameDone lookup lookup'
  · have register := fun uid => registerOverResults_eq_iff hash login uid sameNext sameInsert
    simp only [alike, true_or, true_and, findsNobody_iff lookup hash (-(Int32.ofNat msgStatusAuthError)),
      loginOverResults, eachRow_congr sameLookup alike]
    cases ended : eachRow (lookupRow hash) false (0, -(Int32.ofNat msgStatusAuthError)) lookup' with
    | running => simp
    | failed => simp
    | done found =>
      obtain ⟨rows, uid⟩ := found
      by_cases unknown : rows = 0
      · -- Without a row the uid is still the one from before the loop.
        obtain ⟨_, _, folded⟩ := (eachRow_done_iff _ _ _ _).mp ended
        rw [foldl_lookupRow, Nat.zero_add, unknown, Prod.mk.injEq, List.length_eq_zero_iff] at folded
        obtain ⟨nobody, rfl⟩ := folded
        have same := register (-(Int32.ofNat msgStatusAuthError))
        rw [nobody]
        subst unknown
        simpa [Prod.ext_iff] using same
      · simp [unknown]
  · have rows := (ending_congr sameLookup).2
    have refuses : Refuses hash lookup ↔ Refuses hash lookup' := by rw [Refuses, Refuses, rows]
    have failed : ∀ (results : List (SqlStep (Int32 × Block))) (next : List (SqlStep Int32))
        (insert : User → List (SqlStep Unit)) (last : Nat × Int32),
        eachRow (lookupRow hash) false (0, -(Int32.ofNat msgStatusAuthError)) results = .failed last →
        loginOverResults hash login results next insert =
          (some (-(Int32.ofNat msgStatusAuthError)), [.byLogin login]) := by
      intro results next insert last ended
      simp only [loginOverResults, ended]
    have somebody : Refuses hash lookup → ¬FindsNobody lookup := fun refuses nobody => refuses.1 nobody.2.2
    have condition : ((SameDone lookup lookup' ∨ Refuses hash lookup) ∧
        (FindsNobody lookup → SameDone next next')) ↔ Refuses hash lookup := by
      constructor
      · rintro ⟨first, _⟩
        exact first.resolve_left alike
      · intro first
        exact ⟨.inr first, fun nobody => absurd nobody (somebody first)⟩
    rw [condition]
    -- One of the two refuses for the BUSY, and the other one goes by the rows.
    rcases eachRow_of_not_sameDone sameLookup alike (lookupRow hash)
      (0, -(Int32.ofNat msgStatusAuthError)) with ⟨here, there⟩ | ⟨here, there⟩
    · rw [failed lookup' next' insert' _ there]
      exact loginOverResults_refuses_iff hash login next insert here
    · rw [failed lookup next insert _ here, eq_comm, refuses]
      rw [rows] at there
      exact loginOverResults_refuses_iff hash login next' insert' there

theorem nameOverResults_eq_iff {results results' : List (SqlStep Block)}
    (same : withoutBusy results = withoutBusy results') :
    nameOverResults results = nameOverResults results' ↔ SameDone results results' ∨ rowsBefore results = [] := by
  by_cases alike : SameDone results results'
  · exact iff_of_true (by simp only [nameOverResults, eachRow_congr same alike]) (.inl alike)
  · have last : (rowsBefore results).foldl (fun (_ : Option Block) login => some login) none = none ↔
        rowsBefore results = [] := by
      rcases List.eq_nil_or_concat (rowsBefore results) with nobody | ⟨front, login, split⟩
      · simp [nobody]
      · simp [split]
    simp only [alike, false_or, ← last]
    rcases eachRow_of_not_sameDone same alike (fun (_ : Option Block) login => some login) none with
      ⟨here, there⟩ | ⟨here, there⟩
    · simp [nameOverResults, here, there]
    · simp [nameOverResults, here, there, eq_comm]

/-- Whatever BUSY results are put before the others or taken away, `login_or_register` returns the
same and executes the same statements, and `get_login_by_uid` returns the same, if and only
if each of their SELECTs that is stepped to its DONE has a BUSY right before the DONE in both
sequences or in neither, or the outcome is a refusal or the null pointer anyway. -/
theorem busy_transparent_iff (hash login : Block) {lookup lookup' : List (SqlStep (Int32 × Block))}
    {next next' : List (SqlStep Int32)} {insert insert' : User → List (SqlStep Unit)}
    {results results' : List (SqlStep Block)} (sameLookup : withoutBusy lookup = withoutBusy lookup')
    (sameNext : withoutBusy next = withoutBusy next')
    (sameInsert : ∀ user, withoutBusy (insert user) = withoutBusy (insert' user))
    (sameResults : withoutBusy results = withoutBusy results') :
    (loginOverResults hash login lookup next insert = loginOverResults hash login lookup' next' insert' ↔
      (SameDone lookup lookup' ∨ Refuses hash lookup) ∧ (FindsNobody lookup → SameDone next next')) ∧
    (nameOverResults results = nameOverResults results' ↔
      SameDone results results' ∨ rowsBefore results = []) :=
  ⟨loginOverResults_eq_iff hash login sameLookup sameNext sameInsert, nameOverResults_eq_iff sameResults⟩

/-- A registration, and the lookup of a name, that wait in each statement, but not at its end. -/
theorem busy_transparent_iff_waiting :
    loginOverResults [] [97] [.done] [.busy, .row 2, .done] (fun _ => [.busy, .busy, .done]) =
        loginOverResults [] [97] [.done] [.row 2, .done] (fun _ => [.done]) ∧
    nameOverResults [.busy, .row [97], .done] = nameOverResults [.row [97], .done] := by
  obtain ⟨login, name⟩ := @busy_transparent_iff [] [97] [.done] [.done] [.busy, .row 2, .done] [.row 2, .done]
    (fun _ => [.busy, .busy, .done]) (fun _ => [.done]) [.busy, .row [97], .done] [.row [97], .done]
    rfl rfl (fun _ => rfl) rfl
  exact ⟨login.mpr ⟨.inl rfl, fun _ => rfl⟩, name.mpr (.inl rfl)⟩

/-- An unknown login is not registered if the lookup is busy once before its DONE. -/
theorem busy_before_done : ¬∀ (hash login : Block) (lookup lookup' : List (SqlStep (Int32 × Block)))
    (next next' : List (SqlStep Int32)) (insert insert' : User → List (SqlStep Unit)),
    withoutBusy lookup = withoutBusy lookup' → withoutBusy next = withoutBusy next' →
    (∀ user, withoutBusy (insert user) = withoutBusy (insert' user)) →
    loginOverResults hash login lookup next insert = loginOverResults hash login lookup' next' insert' := by
  intro claim
  have wrong := claim [] [97] [.done] [.busy, .done] [.row 2, .done] [.row 2, .done] (fun _ => [.done])
    (fun _ => [.done]) rfl rfl (fun _ => rfl)
  revert wrong
  decide

end AcosChat

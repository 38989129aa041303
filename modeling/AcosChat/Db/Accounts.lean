import AcosChat.Db.Model

/-!
# Accounts

What `login_or_register` and `get_login_by_uid` say about the table `users`, whatever
the statements run into, as long as its uids are unique.
-/
namespace AcosChat

open Bytes

variable {σ ρ : Type}

/-! ### Loops over rows -/

/-- What every row keeps, the end of the loop has, unless it runs on. -/
theorem eachRow_invariant (body : σ → ρ → σ) (Inv : σ → Prop) (rows : List ρ)
    (kept : ∀ state row, row ∈ rows → Inv state → Inv (body state row)) (noise : List Noise)
    (waiting : Bool) (state : σ) (initial : Inv state) :
    match eachRow body waiting state (answers rows noise) with
    | .done last | .failed last => Inv last
    | .running => True := by
  induction noise generalizing rows waiting state with
  | nil =>
    induction rows generalizing waiting state with
    | nil => cases waiting <;> exact initial
    | cons row rows ih =>
      exact ih (fun s r member => kept s r (by simp [member])) false (body state row)
        (kept state row (by simp) initial)
  | cons noise later ih =>
    cases noise with
    | busy => exact ih rows kept true state initial
    | error => exact initial
    | ok =>
      cases rows with
      | nil => cases waiting <;> exact initial
      | cons row rows =>
        exact ih rows (fun s r member => kept s r (by simp [member])) false (body state row)
          (kept state row (by simp) initial)

/-- Where nothing interrupts it, the loop goes over the rows. -/
theorem eachRow_quiet (body : σ → ρ → σ) (rows : List ρ) (noise : List Noise)
    (quiet : ∀ n ∈ noise, n = .ok) (state : σ) :
    eachRow body false state (answers rows noise) = .done (rows.foldl body state) := by
  induction rows generalizing noise state with
  | nil =>
    cases noise with
    | nil => rfl
    | cons n noise =>
      obtain rfl := quiet n (by simp)
      rfl
  | cons row rows ih =>
    cases noise with
    | nil => exact ih [] (by simp) (body state row)
    | cons n noise =>
      obtain rfl := quiet n (by simp)
      exact ih noise (fun m member => quiet m (by simp [member])) (body state row)

/-! ### The table `users` -/

/-- The primary key of `users`. -/
def UniqueUids (db : Db) : Prop := (db.users.map User.uid).Nodup

theorem selectLogin_of_mem {db : Db} (unique : UniqueUids db) {user : User}
    (member : user ∈ db.users) : selectLogin db user.uid = [user.login] := by
  unfold UniqueUids at unique
  unfold selectLogin
  generalize db.users = users at unique member
  induction users with
  | nil => cases member
  | cons first users ih =>
    rw [List.map_cons, List.nodup_cons] at unique
    rcases List.mem_cons.mp member with rfl | later
    · have others : users.filter (fun other => other.uid = user.uid) = [] := by
        rw [List.filter_eq_nil_iff]
        intro other inside
        simp only [decide_eq_true_eq]
        intro same
        exact unique.1 (same ▸ List.mem_map_of_mem inside)
      rw [List.filter_cons_of_pos (by simp), others]
      rfl
    · have other : first.uid ≠ user.uid := by
        intro same
        exact unique.1 (same ▸ List.mem_map_of_mem later)
      rw [List.filter_cons_of_neg (by simp [other])]
      exact ih unique.2 later

/-- The table is as it was, or has one more row, under a new uid. -/
inductive Grows (db : Db) : Db → Prop
  | same : Grows db db
  | added (user : User) (fresh : user.uid ∉ db.users.map User.uid) :
      Grows db { db with users := db.users ++ [user] }

theorem Grows.unique {db db' : Db} (grows : Grows db db') (unique : UniqueUids db) :
    UniqueUids db' := by
  cases grows with
  | same => exact unique
  | added user fresh =>
    unfold UniqueUids at unique ⊢
    rw [List.map_append, List.nodup_append]
    refine ⟨unique, by simp, ?_⟩
    intro uid there other here same
    simp only [List.map_cons, List.map_nil, List.mem_singleton] at here
    exact fresh (here ▸ same ▸ there)

theorem Grows.mem {db db' : Db} (grows : Grows db db') {user : User} (member : user ∈ db.users) :
    user ∈ db'.users := by
  cases grows with
  | same => exact member
  | added => exact List.mem_append_left _ member

theorem insertUser_done {db : Db} {user : User} {noise : List Noise}
    (inserted : insertLoop (insertUser db user noise) = some true) :
    user.uid ∉ db.users.map User.uid := by
  intro there
  rw [insertUser, if_pos there] at inserted
  have busy : ∀ waits : List Noise, (∀ n ∈ waits, n = .busy) →
      insertLoop (answers ([] : List Unit) (waits ++ [.error])) = some false := by
    intro waits all
    induction waits with
    | nil => rfl
    | cons n waits ih =>
      obtain rfl := all n (by simp)
      exact ih fun m member => all m (by simp [member])
  rw [busy _ (by simp)] at inserted
  cases inserted

/-- The loop of `login_or_register` over the rows of a login ends with the refusal, or with the
uid of one of them. -/
theorem lookup_uid {db : Db} {login hash : Block} {noise : List Noise} {rows : Nat} {uid : Int32}
    (P : Int32 → Prop) (authError : P (-(Int32.ofNat msgStatusAuthError)))
    (users : ∀ user ∈ db.users, user.login = login → P user.uid)
    (ended : eachRow (fun (state : Nat × Int32) (columns : Int32 × Block) =>
        (state.1 + 1, if columns.2 = hash then columns.1 else state.2)) false
      (0, -(Int32.ofNat msgStatusAuthError)) (answers (selectByLogin db login) noise) = .done (rows, uid)) :
    P uid := by
  have found := eachRow_invariant
    (fun (state : Nat × Int32) (columns : Int32 × Block) =>
      (state.1 + 1, if columns.2 = hash then columns.1 else state.2))
    (fun state => P state.2) (selectByLogin db login) (by
      intro state row member known
      dsimp only
      split
      · obtain ⟨user, inside, rfl⟩ := List.mem_map.mp member
        simp only [List.mem_filter, decide_eq_true_eq] at inside
        exact users user inside.1 inside.2
      · exact known)
    noise false (0, -(Int32.ofNat msgStatusAuthError)) authError
  rw [ended] at found
  exact found

/-- Such a uid is negative, or that of a row with this login. -/
theorem lookup_row {db : Db} {login hash : Block} {noise : List Noise} {rows : Nat} {uid : Int32}
    (ended : eachRow (fun (state : Nat × Int32) (columns : Int32 × Block) =>
        (state.1 + 1, if columns.2 = hash then columns.1 else state.2)) false
      (0, -(Int32.ofNat msgStatusAuthError)) (answers (selectByLogin db login) noise) = .done (rows, uid)) :
    uid < 0 ∨ ∃ hash, ⟨uid, login, hash⟩ ∈ db.users := by
  apply lookup_uid (fun uid => uid < 0 ∨ ∃ hash, ⟨uid, login, hash⟩ ∈ db.users) (.inl (by decide)) _ ended
  rintro user member rfl
  exact .inr ⟨user.passwordHash, member⟩

/-- A uid that `login_or_register` returns is a refusal, or that of a row with this login. -/
theorem loginOrRegister_grows (md5hex : Block → Block) (script : Script) (login passwd : Block)
    (db db' : Db) (uid : Int32)
    (returned : loginOrRegister md5hex script login passwd db = some (uid, db')) :
    Grows db db' ∧ (uid < 0 ∨ ∃ hash, ⟨uid, login, hash⟩ ∈ db'.users) := by
  unfold loginOrRegister at returned
  dsimp only at returned
  split at returned
  next => cases returned
  next =>
    cases returned
    exact ⟨.same, .inl (by decide)⟩
  next rows found ended =>
    split at returned
    next =>
      split at returned
      next => cases returned
      next =>
        cases returned
        exact ⟨.same, .inl (by decide)⟩
      next =>
        split at returned
        next => cases returned
        next =>
          cases returned
          exact ⟨.same, .inl (by decide)⟩
        next inserted =>
          -- all three statements have ended, and the row is in the table
          cases returned
          exact ⟨.added _ (insertUser_done inserted), .inr ⟨md5hex passwd, List.mem_append_right _ (by simp)⟩⟩
    next =>
      cases returned
      exact ⟨.same, lookup_row ended⟩

/-- What holds of the uids of the table, of the next uid and of the failures holds of what
`login_or_register` returns and stores. -/
theorem loginOrRegister_uid (md5hex : Block → Block) (script : Script) (login passwd : Block)
    (db db' : Db) (uid : Int32) (P : Int32 → Prop) (users : ∀ user ∈ db.users, P user.uid)
    (next : P (selectNextUid db)) (authError : P (-(Int32.ofNat msgStatusAuthError)))
    (regError : P (-(Int32.ofNat msgStatusRegError)))
    (returned : loginOrRegister md5hex script login passwd db = some (uid, db')) :
    P uid ∧ ∀ user ∈ db'.users, P user.uid := by
  unfold loginOrRegister at returned
  dsimp only at returned
  split at returned
  next => cases returned
  next =>
    cases returned
    exact ⟨authError, users⟩
  next rows found ended =>
    have known : P found := lookup_uid P authError (fun user member _ => users user member) ended
    split at returned
    next =>
      -- Nobody has the login: the uid is the next one of the table.
      have chosen := eachRow_invariant (fun (_ : Int32) next => next) P [selectNextUid db] (by
        intro _ row member _
        rw [List.mem_singleton.mp member]
        exact next) (script 1) false found known
      split at returned
      next => cases returned
      next =>
        cases returned
        exact ⟨regError, users⟩
      next uid' ended' =>
        rw [ended'] at chosen
        split at returned
        next => cases returned
        next =>
          cases returned
          exact ⟨regError, users⟩
        next =>
          cases returned
          refine ⟨chosen, ?_⟩
          intro user member
          rcases List.mem_append.mp member with before | here
          · exact users user before
          · rw [List.mem_singleton.mp here]
            exact chosen
    next =>
      cases returned
      exact ⟨known, users⟩

/-- Root is there, or another account with a positive uid, and `NULL_UID` is nobody's. -/
structure Accounts (db : Db) : Prop where
  positive : ∃ user ∈ db.users, 0 < user.uid
  nonzero : ∀ user ∈ db.users, user.uid ≠ nullUid

theorem Accounts.selectNextUid_ne {db : Db} (accounts : Accounts db) : selectNextUid db ≠ nullUid := by
  obtain ⟨user, member, positive⟩ := accounts.positive
  unfold selectNextUid
  have inside : user.uid.toInt ∈ db.users.map fun user => user.uid.toInt := List.mem_map_of_mem member
  have low := Int32.lt_iff_toInt_lt.mp positive
  rw [Int32.toInt_zero] at low
  split
  next none_ =>
    rw [List.max?_eq_none_iff] at none_
    rw [none_] at inside
    cases inside
  next uid most =>
    obtain ⟨there, above⟩ := List.max?_eq_some_iff.mp most
    obtain ⟨last, _, rfl⟩ := List.mem_map.mp there
    have high := Int32.toInt_lt last.uid
    have least := above _ inside
    intro wrong
    have zero := congrArg Int32.toInt wrong
    rw [Int32.toInt_ofInt, nullUid, Int32.toInt_zero, Int.bmod_def] at zero
    norm_num at zero high
    split at zero <;> omega

/-- `login_or_register` never returns `NULL_UID`, and stores it for nobody. -/
theorem loginOrRegister_accounts (md5hex : Block → Block) (script : Script) (login passwd : Block)
    (db db' : Db) (uid : Int32) (accounts : Accounts db)
    (returned : loginOrRegister md5hex script login passwd db = some (uid, db')) :
    uid ≠ nullUid ∧ Accounts db' := by
  obtain ⟨nonzero, users⟩ := loginOrRegister_uid md5hex script login passwd db db' uid (· ≠ nullUid)
    accounts.nonzero accounts.selectNextUid_ne (by decide) (by decide) returned
  obtain ⟨user, member, positive⟩ := accounts.positive
  obtain ⟨grows, _⟩ := loginOrRegister_grows md5hex script login passwd db db' uid returned
  exact ⟨nonzero, ⟨user, grows.mem member, positive⟩, users⟩

/-- What `get_login_by_uid` returns: the login of the uid, or null if it was interrupted. -/
theorem getLoginByUid_cases {noise : List Noise} {uid : Int32} {db : Db} {name : Block}
    {login : Option Block} (row : selectLogin db uid = [name])
    (returned : getLoginByUid noise uid db = some login) :
    login = some name ∨ (login = none ∧ ¬∀ n ∈ noise, n = .ok) := by
  unfold getLoginByUid at returned
  have known := eachRow_invariant (fun (_ : Option Block) login => some login)
    (fun login => login = none ∨ login = some name) (selectLogin db uid) (by
      intro _ other member _
      rw [row, List.mem_singleton] at member
      exact .inr (congrArg some member)) noise false none (.inl rfl)
  by_cases quiet : ∀ n ∈ noise, n = .ok
  · rw [eachRow_quiet _ _ _ quiet, row] at returned
    cases returned
    exact .inl rfl
  · split at returned
    next => cases returned
    next =>
      cases returned
      exact .inr ⟨rfl, quiet⟩
    next ended =>
      rw [ended] at known
      cases returned
      rcases known with rfl | rfl
      · exact .inr ⟨rfl, quiet⟩
      · exact .inl rfl

end AcosChat

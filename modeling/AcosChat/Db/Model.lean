import AcosChat.Lib.Bytes
import AcosChat.Defines
import Mathlib.Data.List.Sort

/-!
# The database

`server/db.c`. SQLite is not part of the repository: a statement is the sequence of the
results that `sqlite3_step` returns for it, which is the rows of the query, interrupted by
what the environment adds. `md5hex` is a parameter.
-/
namespace AcosChat

open Bytes

/-- A row of the table `users`; every uid is bound as an `int`. -/
structure User where
  uid : Int32
  login : Block
  passwordHash : Block
deriving DecidableEq, Repr

/-- A row of the table `messages`. -/
structure StoredMessage where
  uid : Int32
  msg : Block
  tstamp : Int64
deriving DecidableEq, Repr

structure Db where
  users : List User
  messages : List StoredMessage
deriving DecidableEq, Repr

/-! ### Statements -/

/-- A result of `sqlite3_step`. -/
inductive SqlStep (ρ : Type) where
  | row (columns : ρ)
  | done
  | busy
  | error
deriving DecidableEq, Repr

/-- What the environment makes of one call of `sqlite3_step`. -/
inductive Noise where
  | ok
  | busy
  | error
deriving DecidableEq, Repr

/-- The results for a statement that has these rows. -/
def answers {ρ : Type} : List ρ → List Noise → List (SqlStep ρ)
  | rows, [] => rows.map .row ++ [.done]
  | rows, .busy :: noise => .busy :: answers rows noise
  | _, .error :: _ => [.error]
  | row :: rows, .ok :: noise => .row row :: answers rows noise
  | [], .ok :: _ => [.done]

/-- How a loop over the rows of a statement ends. -/
inductive RowsEnd (σ : Type) where
  | done (state : σ)
  /-- A result other than `SQLITE_ROW` where a row is expected. -/
  | failed (state : σ)
  | running
deriving DecidableEq, Repr

variable {σ ρ : Type}

/-- The loop that the queries of `db.c` share. Inside its inner loop, which waits while the
result is `SQLITE_BUSY`, also `SQLITE_DONE` is taken for a failure. -/
def eachRow (body : σ → ρ → σ) : Bool → σ → List (SqlStep ρ) → RowsEnd σ
  | _, _, [] => .running
  | _, state, .busy :: rest => eachRow body true state rest
  | _, state, .row columns :: rest => eachRow body false (body state columns) rest
  | false, state, .done :: _ => .done state
  -- The inner loop takes every result but a row for a failure.
  | true, state, .done :: _ => .failed state
  | _, state, .error :: _ => .failed state

/-- The loop over the results of an INSERT: `none` while it runs, else whether it is done. -/
def insertLoop : List (SqlStep ρ) → Option Bool
  | [] => none
  | .done :: _ => some true
  | .error :: _ => some false
  | .busy :: rest | .row _ :: rest => insertLoop rest

/-! ### Accounts -/

/-- `SELECT uid, password_hash FROM users WHERE login = ?001;` -/
def selectByLogin (db : Db) (login : Block) : List (Int32 × Block) :=
  (db.users.filter fun user => user.login = login).map fun user => (user.uid, user.passwordHash)

/-- `SELECT MAX(uid) + 1 FROM USERS;` as `sqlite3_column_int` reads it; NULL is read as 0. -/
def selectNextUid (db : Db) : Int32 :=
  match (db.users.map fun user => user.uid.toInt).max? with
  | none => 0
  | some uid => Int32.ofInt (uid + 1)

/-- `SELECT login FROM users WHERE uid = ?001;` -/
def selectLogin (db : Db) (uid : Int32) : List Block :=
  (db.users.filter fun user => user.uid = uid).map User.login

/-- The results of the INSERT into `users`; a uid that is there, the primary key, is an error. -/
def insertUser (db : Db) (user : User) (noise : List Noise) : List (SqlStep Unit) :=
  if user.uid ∈ db.users.map User.uid then answers [] (noise.filter (· = .busy) ++ [.error])
  else answers [] noise

/-- What the statements of one handler run into, by their order. -/
abbrev Script := Nat → List Noise

/-- `login_or_register`: the value returned and the database; `none` while it runs. -/
def loginOrRegister (md5hex : Block → Block) (script : Script) (login passwd : Block) (db : Db) :
    Option (Int32 × Db) :=
  let hash := md5hex passwd
  let authError : Int32 := -(Int32.ofNat msgStatusAuthError)
  let regError : Int32 := -(Int32.ofNat msgStatusRegError)
  -- Every row of the login counts, and the last one with the digest decides.
  let row := fun (state : Nat × Int32) (columns : Int32 × Block) =>
    (state.1 + 1, if columns.2 = hash then columns.1 else state.2)
  match eachRow row false (0, authError) (answers (selectByLogin db login) (script 0)) with
  | .running => none
  | .failed _ => some (authError, db)
  | .done (rows, uid) =>
    -- Nobody has the login: it is registered under the next uid.
    if rows = 0 then
      match eachRow (fun _ next => next) false uid (answers [selectNextUid db] (script 1)) with
      | .running => none
      | .failed _ => some (regError, db)
      | .done uid =>
        let user : User := ⟨uid, login, hash⟩
        match insertLoop (insertUser db user (script 2)) with
        | none => none
        | some false => some (regError, db)
        | some true => some (uid, { db with users := db.users ++ [user] })
    else some (uid, db)

/-- `get_login_by_uid`: the login or the null pointer; `none` while it runs. -/
def getLoginByUid (noise : List Noise) (uid : Int32) (db : Db) : Option (Option Block) :=
  match eachRow (fun _ login => some login) false none (answers (selectLogin db uid) noise) with
  | .running => none
  | .failed _ => some none
  | .done login => some login

/-! ### Messages -/

/-- The INSERT of `broadcast_message_event_handler`. -/
def insertMessage (noise : List Noise) (message : StoredMessage) (db : Db) : Option Db :=
  match insertLoop (answers ([] : List Unit) noise) with
  | none => none
  | some false => some db
  | some true => some { db with messages := db.messages ++ [message] }

/-- `to_range` -/
def toRange (min val max : Int) : Int := if val < min then min else if val > max then max else val

/-- The rows of `SELECT * FROM (SELECT * FROM messages ORDER BY tstamp DESC LIMIT ?001) AS t
ORDER BY tstamp;` -/
def selectHistory (db : Db) (limit : Nat) : List StoredMessage :=
  ((db.messages.mergeSort fun x y => y.tstamp ≤ x.tstamp).take limit).mergeSort
    fun x y => x.tstamp ≤ y.tstamp

/-- `browse_history` up to its calls of the callback. Where a result is not a row, it calls the
callback on a finalized statement; that is `none`. -/
def browseHistory (noise : List Noise) (cnt : Int) (db : Db) : Option (List StoredMessage) :=
  let limit := (toRange 0 cnt maxHistoryLength).toNat
  match eachRow (fun rows row => rows ++ [row]) false [] (answers (selectHistory db limit) noise) with
  | .done rows => some rows
  | .failed _ | .running => none

end AcosChat

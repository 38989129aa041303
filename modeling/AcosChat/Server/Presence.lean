import AcosChat.Lib.Run
import AcosChat.Server.Core

/-!
# Presence

LOGIN handlers and `close_connection` as the sequences of their calls of the connection
manager, which any number of workers and the listener interleave. The number of sessions
is read before it is changed, and the announcement is made after that; both belong to the
uid that was read first. A LOGIN may run on any socket, also on one that is closed by then.
-/
namespace AcosChat

open Std Run

inductive Presence where
  | loggedIn
  | loggedOut
deriving DecidableEq, Repr

def Presence.other : Presence → Presence
  | .loggedIn => .loggedOut
  | .loggedOut => .loggedIn

/-- A META event `User '...' has logged in` or `has logged out`, for a uid. -/
structure Announcement where
  uid : Int32
  presence : Presence
deriving DecidableEq, Repr

/-- The last call that a LOGIN handler has made. -/
inductive LoginStage where
  /-- `conn_mgr_get_number_of_sessions` -/
  | counted
  /-- `conn_mgr_add_uid` -/
  | added
  /-- `conn_mgr_connect_sid_uid` -/
  | connected
deriving DecidableEq, Repr

structure Login where
  sid : Int32
  uid : Int32
  sessions : Int32
  stage : LoginStage
deriving DecidableEq, Repr

/-- The last call that `close_connection` has made, and what it has read. -/
inductive Closing where
  /-- `conn_mgr_get_uid` -/
  | gotUid (sid uid : Int32)
  /-- `conn_mgr_get_number_of_sessions` -/
  | counted (sid uid sessions : Int32)
  /-- `conn_mgr_del_sid` -/
  | deleted (sid uid sessions : Int32)
deriving DecidableEq, Repr

structure PresenceState where
  mgr : ConnMgr
  /-- The LOGIN handlers that are in progress. -/
  logins : List Login
  /-- The close that the listener is at. -/
  closing : Option Closing

inductive PresenceAction where
  /-- `accept_connection` -/
  | accept (sid : Int32)
  /-- A LOGIN for which `login_or_register` has returned this uid. -/
  | login (sid uid : Int32)
  | loginNext (i : Nat)
  | close (sid : Int32)
  | closeNext

namespace PresenceState

/-- The uids of the table are registered, and nobody is there. -/
def init (db : Db) : PresenceState := ⟨(Core.init db).mgr, [], none⟩

/-- The next call of a LOGIN handler, or its announcement. -/
def loginNext (s : PresenceState) (i : Nat) (login : Login) : List Announcement × PresenceState :=
  match login.stage with
  | .counted => ([], { s with
      mgr := s.mgr.addUid login.uid
      logins := s.logins.set i { login with stage := .added } })
  | .added => ([], { s with
      mgr := s.mgr.connectSidUid login.sid login.uid
      logins := s.logins.set i { login with stage := .connected } })
  | .connected =>
    -- What was read at the start decides, whatever has happened since.
    (if login.sessions = 0 then [⟨login.uid, .loggedIn⟩] else [],
      { s with logins := s.logins.eraseIdx i })

/-- The next call of `close_connection`, or its announcement. -/
def closeNext (s : PresenceState) : Closing → List Announcement × PresenceState
  | .gotUid sid uid =>
    ([], { s with closing := some (.counted sid uid (s.mgr.getNumberOfSessions uid)) })
  | .counted sid uid sessions =>
    ([], { s with mgr := s.mgr.delSid sid, closing := some (.deleted sid uid sessions) })
  | .deleted _ uid sessions =>
    -- The uid is the one that was read, too.
    (if sessions = 1 then [⟨uid, .loggedOut⟩] else [], { s with closing := none })

end PresenceState

/-- `accept` returns a number that no open socket has, and `login_or_register` never
returns `NULL_UID`. -/
def presenceStep : Step PresenceState PresenceAction Announcement
  | s, .accept sid =>
    -- Accepts and closes are of one thread.
    if s.closing = none ∧ 0 < sid ∧ wordOfInt sid ∉ s.mgr.sidToUid then
      some ([], some { s with mgr := s.mgr.addSid sid })
    else none
  | s, .login sid uid =>
    if 0 < uid then
      let login : Login := ⟨sid, uid, s.mgr.getNumberOfSessions uid, .counted⟩
      some ([], some { s with logins := s.logins ++ [login] })
    else none
  | s, .loginNext i => do
    let login ← s.logins[i]?
    let (did, s) := s.loginNext i login
    some (did, some s)
  | s, .close sid =>
    if s.closing = none then
      some ([], some { s with closing := some (.gotUid sid (s.mgr.getUid sid)) })
    else none
  | s, .closeNext => do
    let closing ← s.closing
    let (did, s) := s.closeNext closing
    some (did, some s)

/-! ### What is announced -/

/-- The announcements for a uid. -/
def presences (trace : List Announcement) (uid : Int32) : List Presence :=
  trace.filterMap fun announcement =>
    if announcement.uid = uid then some announcement.presence else none

/-- The announcements alternate, and this is the first. -/
def Alternates : Presence → List Presence → Prop
  | _, [] => True
  | next, presence :: later => presence = next ∧ Alternates next.other later

instance decidableAlternates (next : Presence) : (list : List Presence) → Decidable (Alternates next list)
  | [] => .isTrue trivial
  | presence :: later =>
    have := decidableAlternates next.other later
    inferInstanceAs (Decidable (presence = next ∧ Alternates next.other later))

theorem alternates_concat (next presence : Presence) (list : List Presence) :
    Alternates next (list ++ [presence]) ↔
      Alternates next list ∧ presence = (list.getLast?.map Presence.other).getD next := by
  induction list generalizing next with
  | nil => simp [Alternates]
  | cons first later ih =>
    rw [List.cons_append, Alternates, Alternates, ih, List.getLast?_cons, and_assoc]
    refine and_congr_right fun same => and_congr_right fun _ => ?_
    subst same
    cases later.getLast? <;> rfl

/-- 1 while the latest announcement for a uid is of a login. -/
def latest (trace : List Announcement) (uid : Int32) : Nat :=
  if (presences trace uid).getLast? = some .loggedIn then 1 else 0

/-! ### What is still to be announced -/

/-- The handler has connected its socket, and will announce it for this uid. -/
def Login.due (uid : Int32) (login : Login) : Bool :=
  login.uid = uid ∧ login.stage = .connected ∧ login.sessions = 0

/-- The socket is deleted, and that will be announced for this uid. -/
def Closing.due (uid : Int32) : Closing → Bool
  | .deleted _ uid' sessions => uid' = uid ∧ sessions = 1
  | _ => false

namespace PresenceState

def loginsDue (s : PresenceState) (uid : Int32) : Nat := s.logins.countP (Login.due uid)

def logoutsDue (s : PresenceState) (uid : Int32) : Nat := s.closing.toList.countP (Closing.due uid)

/-- 1 while a uid has sessions. -/
def present (s : PresenceState) (uid : Int32) : Nat :=
  if 0 < s.mgr.getNumberOfSessions uid then 1 else 0

end PresenceState

/-! ### The condition -/

/-- A LOGIN for this uid that connects its socket has read 0 just if it brings the first
session, and one for another uid does not take this one its only session. It announces a
login when the latest announcement is of a logout. -/
def Login.InTurn (uid : Int32) (s : PresenceState) (login : Login) : Prop :=
  match login.stage with
  | .counted => True
  | .added =>
    if login.uid = uid then
      (login.sessions = 0 ↔ wordOfInt login.sid ∈ s.mgr.sidToUid ∧ s.mgr.getNumberOfSessions uid = 0)
    else s.mgr.getUid login.sid = uid → s.mgr.getNumberOfSessions uid ≠ 1
  | .connected =>
    login.uid = uid → login.sessions = 0 → s.loginsDue uid = s.present uid + s.logoutsDue uid

/-- A close has read this uid and 1 just if it deletes the only session of this uid. It
announces a logout when no login is outstanding that came before. -/
def Closing.InTurn (uid : Int32) (s : PresenceState) : Closing → Prop
  | .gotUid .. => True
  | .counted sid read sessions =>
    (read = uid ∧ sessions = 1 ↔ s.mgr.getUid sid = uid ∧ s.mgr.getNumberOfSessions uid = 1)
  | .deleted _ read sessions => read = uid → sessions = 1 → s.loginsDue uid = s.present uid

/-- The LOGIN handlers and the closes are in turn with what they do to this uid. -/
def InTurn (uid : Int32) (s : PresenceState) : PresenceAction → Prop
  | .loginNext i => ∀ login, s.logins[i]? = some login → login.InTurn uid s
  | .closeNext => ∀ closing, s.closing = some closing → closing.InTurn uid s
  | _ => True

end AcosChat

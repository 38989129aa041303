import AcosChat.Server.Invariant
import AcosChat.Server.Presence

/-!
# Announcements and sessions

The announcements that have been made for a uid and those that are due account for whether
it has sessions, as long as the LOGIN handlers and the closes are in turn. Two LOGIN
handlers that both read 0, or a socket that moves to another account, break this.
-/
namespace AcosChat

open Std Run Bytes

/-! ### The uids of the handlers -/

/-- A LOGIN that the handler lets pass is one of those of `presenceStep`, and `NULL_UID` stays
nobody's: that is what `login_or_register` returns and stores. -/
theorem handleLogin_admitted {md5hex : Block → Block} {env : Env} {sockid : Int32} {tokens : List Token}
    {mgr mgr' : ConnMgr} {db db' : Db} {effects : List Effect} (accounts : Accounts db)
    (ran : handleLogin md5hex env sockid tokens mgr db = some (effects, mgr', db')) :
    Accounts db' ∧ ∀ login uid, .loggedIn login uid ∈ effects →
      ∀ s, ∃ s', presenceStep s (.login sockid uid) = some ([], some s') := by
  unfold handleLogin at ran
  split at ran
  · cases ran
    exact ⟨accounts, by simp [sendStatusCode]⟩
  simp only [Option.bind_eq_bind, Option.bind_eq_some_iff, Prod.exists] at ran
  obtain ⟨_, _, login, _, _, _, passwd, _, uid, after, returned, ran⟩ := ran
  obtain ⟨nonzero, accounts'⟩ := loginOrRegister_accounts _ _ _ _ _ _ _ accounts returned
  split at ran
  next =>
    cases ran
    exact ⟨accounts', by simp [sendStatusCode]⟩
  next signed =>
    cases ran
    refine ⟨accounts', ?_⟩
    intro login' uid' member s
    -- the handler has turned the negative numbers away
    have positive : 0 < uid := by
      rw [nullUid, ne_eq, ← Int32.toInt_inj, Int32.toInt_zero] at nonzero
      rw [Int32.lt_iff_toInt_lt, Int32.toInt_zero] at signed ⊢
      omega
    have same : uid' = uid := by
      rcases List.mem_append.mp member with first | announcement
      · simp only [List.mem_cons, Effect.loggedIn.injEq, sendStatusCode, reduceCtorEq, List.not_mem_nil,
          or_false] at first
        exact first.2
      · split at announcement <;> simp [metaEvent] at announcement
    rw [presenceStep, if_pos (same ▸ positive)]
    exact ⟨_, rfl⟩

/-! ### How the number of sessions changes -/

/-- The sockets that are mapped to a uid are one of them and the others. -/
theorem ncard_fibre (f g : Int32 → Int32) (sid u : Int32) (same : ∀ s, s ≠ sid → f s = g s) :
    ({s | f s = u} : Set Int32).ncard =
      ({s | s ≠ sid ∧ g s = u} : Set Int32).ncard + if f sid = u then 1 else 0 := by
  split
  next here =>
    have absent : sid ∉ ({s | s ≠ sid ∧ g s = u} : Set Int32) := fun inside => inside.1 rfl
    rw [← Set.ncard_insert_of_notMem absent]
    congr 1
    ext s
    by_cases first : s = sid
    · simp [first, here]
    · simp [first, same s first]
  next away =>
    rw [Nat.add_zero]
    congr 1
    ext s
    by_cases first : s = sid
    · simp [first, away]
    · simp [first, same s first]

namespace Agrees

variable {mgr mgr' : ConnMgr} {registered registered' : Int32 → Bool}

theorem sessions_zero (agrees : Agrees mgr registered) : mgr.getNumberOfSessions nullUid = 0 := by
  rw [ConnMgr.getNumberOfSessions, agrees.sessions_null]

theorem sessions_pos (agrees : Agrees mgr registered) (sid : Int32) (nonzero : mgr.getUid sid ≠ nullUid) :
    0 < (mgr.getNumberOfSessions (mgr.getUid sid)).toInt := by
  rw [agrees.sessions_ncard _ nonzero]
  have here : sid ∈ ({s | mgr.getUid s = mgr.getUid sid} : Set Int32) := rfl
  exact Int.natCast_pos.mpr ((Set.ncard_pos (Set.toFinite _)).mpr ⟨sid, here⟩)

/-- The same sockets, the same number of sessions. -/
theorem sessions_congr (agrees : Agrees mgr registered) (agrees' : Agrees mgr' registered')
    (same : ∀ s, mgr'.getUid s = mgr.getUid s) (u : Int32) :
    mgr'.getNumberOfSessions u = mgr.getNumberOfSessions u := by
  by_cases null : u = nullUid
  · rw [null, agrees.sessions_zero, agrees'.sessions_zero]
  · rw [← Int32.toInt_inj, agrees.sessions_ncard u null, agrees'.sessions_ncard u null]
    simp only [same]

/-- A uid loses the socket, and another may get it. -/
theorem sessions_moved (agrees : Agrees mgr registered) (agrees' : Agrees mgr' registered')
    (sid uid : Int32) (moved : ∀ s, mgr'.getUid s = if s = sid then uid else mgr.getUid s) (u : Int32)
    (nonzero : u ≠ nullUid) :
    (mgr'.getNumberOfSessions u).toInt = (mgr.getNumberOfSessions u).toInt +
      (if u = uid then 1 else 0) - (if u = mgr.getUid sid then 1 else 0) := by
  rw [agrees.sessions_ncard u nonzero, agrees'.sessions_ncard u nonzero]
  rw [ncard_fibre mgr.getUid mgr.getUid sid u fun _ _ => rfl,
    ncard_fibre mgr'.getUid mgr.getUid sid u fun s other => by rw [moved, if_neg other]]
  rw [moved, if_pos rfl]
  simp only [eq_comm (a := uid), eq_comm (a := mgr.getUid sid)]
  split <;> split <;> push_cast <;> omega

theorem sessions_nonneg (agrees : Agrees mgr registered) (u : Int32) :
    0 ≤ (mgr.getNumberOfSessions u).toInt := by
  by_cases null : u = nullUid
  · rw [null, agrees.sessions_zero]
    decide
  · rw [agrees.sessions_ncard u null]
    exact Int.natCast_nonneg _

/-- A uid that does not get the socket loses its presence just with its only session. -/
theorem present_lost (agrees : Agrees mgr registered) (agrees' : Agrees mgr' registered')
    (sid uid : Int32) (moved : ∀ s, mgr'.getUid s = if s = sid then uid else mgr.getUid s) (u : Int32)
    (other : u = uid → u = nullUid) :
    0 < mgr'.getNumberOfSessions u ↔
      0 < mgr.getNumberOfSessions u ∧ ¬(mgr.getUid sid = u ∧ mgr.getNumberOfSessions u = 1) := by
  by_cases null : u = nullUid
  · rw [null, agrees.sessions_zero, agrees'.sessions_zero]
    simp
  · have change := agrees.sessions_moved agrees' sid uid moved u null
    have least := agrees.sessions_nonneg u
    have single : mgr.getNumberOfSessions u = 1 ↔ (mgr.getNumberOfSessions u).toInt = 1 :=
      Int32.toInt_inj.symm
    rw [if_neg fun same => null (other same)] at change
    rw [single, Int32.lt_iff_toInt_lt, Int32.lt_iff_toInt_lt, Int32.toInt_zero]
    by_cases own : u = mgr.getUid sid
    · have positive := agrees.sessions_pos sid (own ▸ null)
      rw [← own] at positive
      rw [if_pos own] at change
      simp only [own.symm, true_and]
      omega
    · rw [if_neg own] at change
      simp only [Ne.symm own, false_and, not_false_eq_true, and_true]
      omega

/-- The uid that gets the socket has a session. -/
theorem present_gained (agrees : Agrees mgr' registered') {sid uid : Int32}
    (own : mgr'.getUid sid = uid) (nonzero : uid ≠ nullUid) : 0 < mgr'.getNumberOfSessions uid := by
  rw [Int32.lt_iff_toInt_lt, ← own]
  exact agrees.sessions_pos sid (own ▸ nonzero)

end Agrees

/-! ### What holds of every run -/

/-- The indexes agree, and a LOGIN registers its uid before it connects a socket to it. -/
def PresenceState.Sound (s : PresenceState) : Prop :=
  ∃ registered, Agrees s.mgr registered ∧ ∀ login ∈ s.logins, login.uid ≠ nullUid ∧
    (login.stage ≠ .counted → registered login.uid = true)

namespace PresenceState.Sound

variable {s s' : PresenceState}

theorem init (db : Db) (accounts : Accounts db) : PresenceState.Sound (.init db) := by
  have registers : ∀ (users : List User) (mgr : ConnMgr), (∀ user ∈ users, user.uid ≠ nullUid) →
      (∃ registered, Agrees mgr registered) →
      ∃ registered, Agrees (users.foldl (fun mgr user => mgr.addUid user.uid) mgr) registered := by
    intro users
    induction users with
    | nil => exact fun _ _ known => known
    | cons user users ih =>
      rintro mgr nonzero ⟨registered, agrees⟩
      refine ih _ (fun user member => nonzero user (List.mem_cons_of_mem _ member)) ⟨_, agrees.addUid user.uid ?_⟩
      exact nonzero user List.mem_cons_self
  obtain ⟨registered, agrees⟩ : ∃ registered, Agrees (PresenceState.init db).mgr registered :=
    registers db.users initConnMgr accounts.nonzero ⟨_, .init⟩
  refine ⟨registered, agrees, ?_⟩
  intro login member
  exact absurd member List.not_mem_nil

/-- A LOGIN handler makes its next call. -/
theorem set_ {i : Nat} {login login' : Login} {mgr : ConnMgr} {registered registered' : Int32 → Bool}
    (there : s.logins[i]? = some login) (agrees : Agrees mgr registered')
    (known : ∀ login ∈ s.logins, login.uid ≠ nullUid ∧
      (login.stage ≠ .counted → registered login.uid = true))
    (grows : ∀ uid, registered uid = true → registered' uid = true) (uid : login'.uid = login.uid)
    (own : registered' login'.uid = true) :
    PresenceState.Sound { s with mgr := mgr, logins := s.logins.set i login' } := by
  refine ⟨registered', agrees, ?_⟩
  intro login'' inside
  rcases List.mem_or_eq_of_mem_set inside with old | rfl
  · obtain ⟨nonzero, later⟩ := known login'' old
    exact ⟨nonzero, fun stage => grows _ (later stage)⟩
  · exact ⟨uid ▸ (known login (List.mem_of_getElem? there)).1, fun _ => own⟩

theorem step (sound : s.Sound) {action : PresenceAction} {did : List Announcement}
    (taken : presenceStep s action = some (did, some s')) : s'.Sound := by
  obtain ⟨registered, agrees, known⟩ := sound
  cases action with
  | accept sid =>
    simp only [presenceStep] at taken
    split at taken
    next guard =>
      cases taken
      exact ⟨registered, agrees.addSid sid guard.2.1, known⟩
    next => cases taken
  | login sid uid =>
    simp only [presenceStep] at taken
    split at taken
    next positive =>
      cases taken
      refine ⟨registered, agrees, ?_⟩
      intro login member
      rcases List.mem_append.mp member with old | new
      · exact known login old
      · rw [List.mem_singleton.mp new]
        refine ⟨?_, fun later => absurd rfl later⟩
        rintro rfl
        exact absurd positive (by decide)
    next => cases taken
  | loginNext i =>
    simp only [presenceStep, Option.bind_eq_bind, Option.bind_eq_some_iff] at taken
    obtain ⟨login, there, taken⟩ := taken
    obtain ⟨nonzero, later⟩ := known login (List.mem_of_getElem? there)
    cases stage : login.stage with
    | counted =>
      -- from here on the uid has a set of sessions, which may be empty
      simp only [PresenceState.loginNext, stage] at taken
      cases taken
      exact set_ there (agrees.addUid login.uid nonzero) known (by simp +contextual) rfl (by simp)
    | added =>
      -- the session joins the set that `add_uid` has made for its uid
      simp only [PresenceState.loginNext, stage] at taken
      cases taken
      have own := later (by simp [stage])
      exact set_ there (agrees.connectSidUid login.sid login.uid own) known (fun _ => id) rfl own
    | connected =>
      simp only [PresenceState.loginNext, stage] at taken
      cases taken
      exact ⟨registered, agrees, fun login' member => known login' (List.mem_of_mem_eraseIdx member)⟩
  | close sid =>
    simp only [presenceStep] at taken
    split at taken <;> cases taken
    exact ⟨registered, agrees, known⟩
  | closeNext =>
    simp only [presenceStep, Option.bind_eq_bind, Option.bind_eq_some_iff] at taken
    obtain ⟨closing, _, taken⟩ := taken
    cases closing with
    | gotUid sid uid =>
      cases taken
      exact ⟨registered, agrees, known⟩
    | counted sid uid sessions =>
      cases taken
      exact ⟨registered, agrees.delSid sid, known⟩
    | deleted sid uid sessions =>
      cases taken
      exact ⟨registered, agrees, known⟩

end PresenceState.Sound

/-! ### The account of a uid -/

/-- The announcements that have been made and those that are due account for whether the uid
has sessions. -/
def Accounted (trace : List Announcement) (s : PresenceState) (uid : Int32) : Prop :=
  latest trace uid + s.loginsDue uid = s.present uid + s.logoutsDue uid

/-- The announcements for a uid alternate, and account for its sessions. -/
structure Matched (trace : List Announcement) (s : PresenceState) (uid : Int32) : Prop where
  alternate : Alternates .loggedIn (presences trace uid)
  accounted : Accounted trace s uid

theorem presences_append (trace did : List Announcement) (uid : Int32) :
    presences (trace ++ did) uid = presences trace uid ++ presences did uid := List.filterMap_append

/-- A LOGIN handler goes on. -/
theorem loginsDue_set {s s' : PresenceState} {i : Nat} {login login' : Login}
    (there : s.logins[i]? = some login) (logins : s'.logins = s.logins.set i login') (uid : Int32) :
    s'.loginsDue uid + (login.due uid).toNat = s.loginsDue uid + (login'.due uid).toNat := by
  obtain ⟨inside, rfl⟩ := List.getElem?_eq_some_iff.mp there
  have counted := List.countP_set (p := Login.due uid) (a := login') inside
  have least := List.boole_getElem_le_countP (p := Login.due uid) inside
  simp only [PresenceState.loginsDue, logins, counted, Bool.toNat, Bool.cond_eq_ite] at least ⊢
  omega

/-- A LOGIN handler ends. -/
theorem loginsDue_erase {s s' : PresenceState} {i : Nat} {login : Login}
    (there : s.logins[i]? = some login) (logins : s'.logins = s.logins.eraseIdx i) (uid : Int32) :
    s'.loginsDue uid + (login.due uid).toNat = s.loginsDue uid := by
  obtain ⟨inside, rfl⟩ := List.getElem?_eq_some_iff.mp there
  have erased := (List.getElem_cons_eraseIdx_perm inside).countP_eq (Login.due uid)
  rw [List.countP_cons] at erased
  simpa only [PresenceState.loginsDue, logins, Bool.toNat, Bool.cond_eq_ite] using erased

namespace Matched

variable {trace : List Announcement} {s s' : PresenceState} {uid : Int32}

/-- Without an announcement for the uid, the account decides. -/
theorem silent_iff (matched : Matched trace s uid) {did : List Announcement}
    (silent : presences did uid = []) :
    Matched (trace ++ did) s' uid ↔ latest trace uid + s'.loginsDue uid = s'.present uid + s'.logoutsDue uid := by
  have same : presences (trace ++ did) uid = presences trace uid := by
    rw [presences_append, silent, List.append_nil]
  have latest_ : latest (trace ++ did) uid = latest trace uid := by rw [latest, latest, same]
  constructor
  · intro matched'
    have accounted := matched'.accounted
    rwa [Accounted, latest_] at accounted
  · intro accounted
    exact ⟨same ▸ matched.alternate, by rwa [Accounted, latest_]⟩

/-- An announcement for the uid that was due is made in turn just when it is the other one
than the latest. -/
theorem announced_iff (matched : Matched trace s uid) (presence : Presence)
    (logins : s'.loginsDue uid + (if presence = .loggedIn then 1 else 0) = s.loginsDue uid)
    (logouts : s'.logoutsDue uid + (if presence = .loggedOut then 1 else 0) = s.logoutsDue uid)
    (present : s'.present uid = s.present uid) :
    Matched (trace ++ [⟨uid, presence⟩]) s' uid ↔
      latest trace uid = if presence = .loggedIn then 0 else 1 := by
  have made : presences (trace ++ [⟨uid, presence⟩]) uid = presences trace uid ++ [presence] := by
    rw [presences_append]
    simp [presences]
  have latest_ : latest (trace ++ [⟨uid, presence⟩]) uid = if presence = .loggedIn then 1 else 0 := by
    simp only [latest, made, List.getLast?_concat, Option.some.injEq]
  have turn : Alternates .loggedIn (presences trace uid ++ [presence]) ↔
      latest trace uid = if presence = .loggedIn then 0 else 1 := by
    rw [alternates_concat, and_iff_right matched.alternate, latest]
    cases (presences trace uid).getLast? with
    | none => cases presence <;> simp
    | some before => cases before <;> cases presence <;> simp [Presence.other]
  have accounted := matched.accounted
  constructor
  · intro matched'
    exact turn.mp (made ▸ matched'.alternate)
  · intro next
    refine ⟨made ▸ turn.mpr next, ?_⟩
    rw [Accounted, latest_, present]
    rw [Accounted, next] at accounted
    cases presence <;> simp at logins logouts accounted ⊢ <;> omega

/-- `conn_mgr_connect_sid_uid` -/
theorem connected_iff (matched : Matched trace s uid) (sound : s.Sound) {i : Nat} {login : Login}
    (there : s.logins[i]? = some login) (stage : login.stage = .added)
    (mgr : s'.mgr = s.mgr.connectSidUid login.sid login.uid)
    (logins : s'.logins = s.logins.set i { login with stage := .connected })
    (closing : s'.logoutsDue uid = s.logoutsDue uid) :
    Matched (trace ++ []) s' uid ↔ login.InTurn uid s := by
  obtain ⟨registered, agrees, known⟩ := sound
  obtain ⟨nonzero, later⟩ := known login (List.mem_of_getElem? there)
  have agrees' := agrees.connectSidUid login.sid login.uid (later (by simp [stage]))
  have before : login.due uid = false := by simp [Login.due, stage]
  have due := loginsDue_set there logins uid
  have accounted := matched.accounted
  rw [before, Bool.toNat_false] at due
  rw [Accounted] at accounted
  rw [matched.silent_iff rfl, closing]
  -- The account of the uid stays right just when the LOGIN is due for what it does to it.
  have account : latest trace uid + s'.loginsDue uid = s'.present uid + s.logoutsDue uid ↔
      s.present uid + (Login.due uid { login with stage := .connected }).toNat = s'.present uid := by
    omega
  have least := agrees.sessions_nonneg uid
  have nobody : s.mgr.getNumberOfSessions uid = 0 ↔ ¬0 < s.mgr.getNumberOfSessions uid := by
    rw [← Int32.toInt_inj, Int32.lt_iff_toInt_lt, Int32.toInt_zero]
    omega
  rw [account, Login.InTurn, stage]
  dsimp only
  rw [PresenceState.present, PresenceState.present, mgr]
  by_cases inside : wordOfInt login.sid ∈ s.mgr.sidToUid
  · have moved := fun sid => s.mgr.getUid_connectSidUid login.sid login.uid sid
      (ExtTreeMap.contains_iff_mem.mpr inside)
    by_cases own : login.uid = uid
    · subst own
      have gained := agrees'.present_gained (by rw [moved, if_pos rfl]) nonzero
      rw [if_pos gained, if_pos rfl, nobody, and_iff_right inside]
      by_cases zero : login.sessions = 0 <;> by_cases somebody : 0 < s.mgr.getNumberOfSessions login.uid <;>
        simp [Login.due, zero, somebody]
    · have lost := agrees.present_lost agrees' login.sid login.uid moved uid fun same => absurd same.symm own
      rw [if_neg own]
      simp only [Login.due, own, false_and, decide_false, Bool.toNat_false, Nat.add_zero, lost]
      by_cases single : s.mgr.getNumberOfSessions uid = 1
      · by_cases here : s.mgr.getUid login.sid = uid <;> simp [single, here]
      · simp [single]
  · have failed : s.mgr.connectSidUid login.sid login.uid = s.mgr := by
      rw [ConnMgr.connectSidUid, if_neg fun connected => inside (ExtTreeMap.contains_iff_mem.mp connected)]
    rw [failed]
    by_cases own : login.uid = uid
    · simp [own, inside, Login.due]
    · rw [if_neg own]
      simp only [Login.due, own, false_and, decide_false, Bool.toNat_false, Nat.add_zero, true_iff]
      rintro rfl
      have unmapped : s.mgr.getUid login.sid = nullUid := by
        rw [ConnMgr.getUid, ExtTreeMap.getElem?_eq_none inside]
        rfl
      rw [unmapped, agrees.sessions_zero]
      decide

/-- `conn_mgr_del_sid` -/
theorem deleted_iff (matched : Matched trace s uid) (sound : s.Sound) {sid read sessions : Int32}
    (closing : s.closing = some (.counted sid read sessions)) (mgr : s'.mgr = s.mgr.delSid sid)
    (logins : s'.logins = s.logins) (closing' : s'.closing = some (.deleted sid read sessions)) :
    Matched (trace ++ []) s' uid ↔ Closing.InTurn uid s (.counted sid read sessions) := by
  obtain ⟨registered, agrees, _⟩ := sound
  have lost := agrees.present_lost (agrees.delSid sid) sid nullUid (s.mgr.getUid_delSid sid) uid id
  have nothing : s.logoutsDue uid = 0 := by simp [PresenceState.logoutsDue, closing, Closing.due]
  have due : s'.logoutsDue uid = if read = uid ∧ sessions = 1 then 1 else 0 := by
    simp [PresenceState.logoutsDue, closing', List.countP_cons, Closing.due]
  have same : s'.loginsDue uid = s.loginsDue uid := by simp only [PresenceState.loginsDue, logins]
  have accounted := matched.accounted
  rw [Accounted, nothing, Nat.add_zero] at accounted
  rw [matched.silent_iff rfl, due, same, accounted, Closing.InTurn, PresenceState.present,
    PresenceState.present, mgr]
  simp only [lost]
  by_cases single : s.mgr.getUid sid = uid ∧ s.mgr.getNumberOfSessions uid = 1
  · by_cases announces : read = uid ∧ sessions = 1 <;> simp [single, announces]
  · by_cases announces : read = uid ∧ sessions = 1 <;> by_cases somebody : 0 < s.mgr.getNumberOfSessions uid <;>
      simp [single, announces]

/-- A step keeps the announcements matched just when it is in turn. -/
theorem step_iff (matched : Matched trace s uid) (sound : s.Sound) {action : PresenceAction}
    {did : List Announcement} (taken : presenceStep s action = some (did, some s')) :
    Matched (trace ++ did) s' uid ↔ InTurn uid s action := by
  have accounted := matched.accounted
  rw [Accounted] at accounted
  -- Most steps announce nothing, and leave the uid present or absent.
  have still : ∀ s' : PresenceState, s'.loginsDue uid = s.loginsDue uid → s'.present uid = s.present uid →
      s'.logoutsDue uid = s.logoutsDue uid → Matched (trace ++ []) s' uid := by
    intro s' logins present logouts
    rw [matched.silent_iff rfl, logins, present, logouts]
    exact accounted
  cases action with
  | accept sid =>
    simp only [presenceStep] at taken
    split at taken
    next guard =>
      cases taken
      obtain ⟨registered, agrees, _⟩ := sound
      have agrees' := agrees.addSid sid guard.2.1
      refine iff_of_true (still _ rfl ?_ rfl) trivial
      rw [PresenceState.present, PresenceState.present,
        agrees.sessions_congr agrees' (fun s' => s.mgr.getUid_addSid sid s')]
    next => cases taken
  | login sid uid' =>
    simp only [presenceStep] at taken
    split at taken <;> cases taken
    refine iff_of_true (still _ ?_ rfl rfl) trivial
    simp [PresenceState.loginsDue, Login.due]
  | loginNext i =>
    simp only [presenceStep, Option.bind_eq_bind, Option.bind_eq_some_iff] at taken
    obtain ⟨login, there, taken⟩ := taken
    have only : InTurn uid s (.loginNext i) ↔ login.InTurn uid s := by
      simp only [InTurn, there, Option.some.injEq, forall_eq']
    rw [only]
    cases stage : login.stage with
    | counted =>
      simp only [PresenceState.loginNext, stage] at taken
      cases taken
      obtain ⟨registered, agrees, known⟩ := sound
      have agrees' := agrees.addUid login.uid (known login (List.mem_of_getElem? there)).1
      refine iff_of_true (still _ ?_ ?_ rfl) (by simp only [Login.InTurn, stage])
      · have due : PresenceState.loginsDue { s with
            mgr := s.mgr.addUid login.uid
            logins := s.logins.set i { login with stage := .added } } uid + (login.due uid).toNat =
            s.loginsDue uid + (Login.due uid { login with stage := .added }).toNat :=
          loginsDue_set there rfl uid
        simpa [Login.due, stage] using due
      · rw [PresenceState.present, PresenceState.present, agrees.sessions_congr agrees' fun _ => rfl]
    | added =>
      simp only [PresenceState.loginNext, stage] at taken
      cases taken
      exact matched.connected_iff sound there stage rfl rfl rfl
    | connected =>
      simp only [PresenceState.loginNext, stage] at taken
      cases taken
      have erased : PresenceState.loginsDue { s with logins := s.logins.eraseIdx i } uid +
          (login.due uid).toNat = s.loginsDue uid := loginsDue_erase there rfl uid
      -- The handler ends, and with it the announcement that was due.
      by_cases own : login.uid = uid ∧ login.sessions = 0
      · obtain ⟨rfl, zero⟩ := own
        rw [if_pos zero]
        refine (matched.announced_iff .loggedIn ?_ ?_ ?_).trans ?_
        · simpa [Login.due, stage, zero] using erased
        · rfl
        · rfl
        · simp only [Login.InTurn, stage, zero, forall_const, ↓reduceIte]
          omega
      · have silent : presences (if login.sessions = 0 then [⟨login.uid, .loggedIn⟩] else []) uid = [] := by
          split
          next zero =>
            have other : login.uid ≠ uid := fun same => own ⟨same, zero⟩
            simp [presences, other]
          next => rfl
        have idle : login.due uid = false := by simpa [Login.due, stage] using own
        rw [idle, Bool.toNat_false, Nat.add_zero] at erased
        rw [matched.silent_iff silent, erased, Login.InTurn, stage]
        exact iff_of_true accounted fun same zero => absurd ⟨same, zero⟩ own
  | close sid =>
    simp only [presenceStep] at taken
    split at taken
    next idle =>
      cases taken
      refine iff_of_true (still _ rfl rfl ?_) trivial
      simp [PresenceState.logoutsDue, idle, Closing.due]
    next => cases taken
  | closeNext =>
    simp only [presenceStep, Option.bind_eq_bind, Option.bind_eq_some_iff] at taken
    obtain ⟨closing, there, taken⟩ := taken
    have only : InTurn uid s .closeNext ↔ closing.InTurn uid s := by
      simp only [InTurn, there, Option.some.injEq, forall_eq']
    rw [only]
    cases closing with
    | gotUid sid read =>
      cases taken
      refine iff_of_true (still _ rfl rfl ?_) trivial
      simp [PresenceState.logoutsDue, PresenceState.closeNext, there, Closing.due]
    | counted sid read sessions =>
      cases taken
      exact matched.deleted_iff sound there rfl rfl rfl
    | deleted sid read sessions =>
      simp only [PresenceState.closeNext] at taken
      cases taken
      have due : s.logoutsDue uid = if read = uid ∧ sessions = 1 then 1 else 0 := by
        simp [PresenceState.logoutsDue, there, List.countP_cons, Closing.due]
      -- What was read decides, and not the number of sessions by now.
      by_cases own : read = uid ∧ sessions = 1
      · obtain ⟨rfl, one⟩ := own
        rw [if_pos ⟨rfl, one⟩] at due
        rw [if_pos one]
        refine (matched.announced_iff .loggedOut ?_ ?_ ?_).trans ?_
        · rfl
        · exact due.symm
        · rfl
        · simp only [Closing.InTurn, one, forall_const, reduceCtorEq, ↓reduceIte]
          omega
      · have silent : presences (if sessions = 1 then [⟨read, .loggedOut⟩] else []) uid = [] := by
          split
          next one =>
            have other : read ≠ uid := fun same => own ⟨same, one⟩
            simp [presences, other]
          next => rfl
        rw [if_neg own] at due
        rw [matched.silent_iff silent, Closing.InTurn]
        refine iff_of_true ?_ fun same one => absurd ⟨same, one⟩ own
        rwa [due] at accounted

theorem init (db : Db) (accounts : Accounts db) (uid : Int32) : Matched [] (.init db) uid := by
  obtain ⟨registered, agrees, _⟩ := PresenceState.Sound.init db accounts
  have nobody : ¬0 < (PresenceState.init db).mgr.getNumberOfSessions uid := by
    by_cases null : uid = nullUid
    · rw [null, agrees.sessions_zero]
      decide
    · have unmapped : ∀ s, (PresenceState.init db).mgr.getUid s = nullUid := by
        intro s
        rw [ConnMgr.getUid, PresenceState.init, Core.sidToUid_init, ExtTreeMap.getElem?_empty]
        decide
      rw [Int32.lt_iff_toInt_lt, agrees.sessions_ncard uid null]
      simp [unmapped, Ne.symm null]
  refine ⟨trivial, ?_⟩
  rw [Accounted, PresenceState.present, if_neg nobody]
  rfl

end Matched

/-- In a run in turn for a uid its announcements alternate, the first being of a login, and
while no LOGIN and no close is in progress the latest says whether the uid has sessions. The
next step keeps the announcements alternating and in account with the sessions just when it
is in turn, too. -/
theorem announcements_match (db : Db) (accounts : Accounts db) (uid : Int32)
    {trace : List Announcement} {s : PresenceState}
    (ran : Ran presenceStep (InTurn uid) (.init db) trace s) :
    Alternates .loggedIn (presences trace uid) ∧
    (s.logins = [] → s.closing = none →
      ((presences trace uid).getLast? = some .loggedIn ↔ 0 < s.mgr.getNumberOfSessions uid)) ∧
    ∀ action did s', presenceStep s action = some (did, some s') →
      (Alternates .loggedIn (presences (trace ++ did) uid) ∧ Accounted (trace ++ did) s' uid ↔
        InTurn uid s action) := by
  obtain ⟨sound, matched⟩ : s.Sound ∧ Matched trace s uid := by
    induction ran with
    | start => exact ⟨.init db accounts, .init db accounts uid⟩
    | step _ met taken ih => exact ⟨ih.1.step taken, (ih.2.step_iff ih.1 taken).mpr met⟩
  refine ⟨matched.alternate, ?_, ?_⟩
  · intro quiet closed
    have accounted := matched.accounted
    simp only [Accounted, PresenceState.loginsDue, PresenceState.logoutsDue, quiet, closed, List.countP_nil,
      Option.toList_none, Nat.add_zero, latest, PresenceState.present] at accounted
    split at accounted <;> split at accounted <;> simp_all
  · intro action did s' taken
    rw [← matched.step_iff sound taken]
    exact ⟨fun ⟨alternate, accounted⟩ => ⟨alternate, accounted⟩,
      fun matched' => ⟨matched'.alternate, matched'.accounted⟩⟩

/-! ### Two runs -/

/-- A LOGIN on a socket, and its close. -/
def loginThenClose : List PresenceAction :=
  [.accept 5, .login 5 1, .loginNext 0, .loginNext 0, .loginNext 0, .close 5, .closeNext, .closeNext,
    .closeNext]

theorem accounts_preparedDb (hash : Block) : Accounts (preparedDb hash) := by
  refine ⟨⟨_, List.mem_singleton.mpr rfl, (by decide : 0 < rootUid)⟩, ?_⟩
  intro user member
  rw [List.mem_singleton.mp member]
  exact (by decide : rootUid ≠ nullUid)

theorem announcements_match_loginThenClose : ∃ s,
    replay presenceStep (.init (preparedDb emptyDigest)) loginThenClose =
      some ([⟨1, .loggedIn⟩, ⟨1, .loggedOut⟩], s) ∧
    Alternates .loggedIn (presences [⟨1, .loggedIn⟩, ⟨1, .loggedOut⟩] 1) ∧
    (s.logins = [] → s.closing = none →
      ((presences [⟨1, .loggedIn⟩, ⟨1, .loggedOut⟩] 1).getLast? = some .loggedIn ↔
        0 < s.mgr.getNumberOfSessions 1)) := by
  have ran : ∃ s, replay presenceStep (.init (preparedDb emptyDigest)) loginThenClose =
      some ([⟨1, .loggedIn⟩, ⟨1, .loggedOut⟩], s) := ⟨_, rfl⟩
  obtain ⟨s, replayed⟩ := ran
  have meets : Meets presenceStep (InTurn 1) (.init (preparedDb emptyDigest)) loginThenClose := by
    refine ⟨trivial, trivial, ?_, ?_, ?_, trivial, ?_, ?_, ?_, trivial⟩
    · rintro login ⟨⟩
      exact trivial
    · rintro login ⟨⟩
      unfold Login.InTurn
      dsimp only
      decide
    · rintro login ⟨⟩
      unfold Login.InTurn
      dsimp only
      decide
    · rintro closing ⟨⟩
      exact trivial
    · rintro closing ⟨⟩
      unfold Closing.InTurn
      decide
    · rintro closing ⟨⟩
      unfold Closing.InTurn
      decide
  obtain ⟨alternate, quiet, _⟩ :=
    announcements_match _ (accounts_preparedDb _) 1 (ran_of_replay meets replayed)
  exact ⟨s, replayed, alternate, quiet⟩

/-- Two LOGIN handlers for one account both read that it has no session. -/
def loginTwice : List PresenceAction :=
  [.accept 5, .accept 6, .login 5 1, .login 6 1, .loginNext 0, .loginNext 0, .loginNext 0, .loginNext 0,
    .loginNext 0, .loginNext 0]

/-- Both announce that the user has logged in. -/
theorem loggedIn_announced_twice : ¬∀ (db : Db), Accounts db → ∀ (trace : List Announcement)
    (s : PresenceState), Ran presenceStep (fun _ _ => True) (.init db) trace s → ∀ uid,
    Alternates .loggedIn (presences trace uid) ∧
    (s.logins = [] → s.closing = none →
      ((presences trace uid).getLast? = some .loggedIn ↔ 0 < s.mgr.getNumberOfSessions uid)) := by
  intro claim
  have ran : ∃ s, replay presenceStep (.init (preparedDb emptyDigest)) loginTwice =
      some ([⟨1, .loggedIn⟩, ⟨1, .loggedIn⟩], s) := ⟨_, rfl⟩
  obtain ⟨s, replayed⟩ := ran
  have wrong := (claim _ (accounts_preparedDb _) _ s
    (ran_of_replay (meets_of_forall (fun _ _ => trivial) _ _) replayed) 1).1
  exact absurd wrong (by decide)

end AcosChat

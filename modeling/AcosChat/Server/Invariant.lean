import AcosChat.ConnMgr.Members
import AcosChat.Server.Outcomes

/-!
# What every handler keeps

The three stores that know the sockets agree: the live connections, the listener's map
`clients` and the keys of `sid_to_uid`. The handlers keep this, each as a whole.
-/
namespace AcosChat

open Std Store

structure CoreInv (core : Core) : Prop where
  keys : ∀ w, w ∈ core.mgr.sidToUid ↔ w ∈ core.clients
  owners : ∀ w ptr, core.clients[w]? = some ptr → ∃ c conn, ptr = some c ∧
    core.conns.read c = some conn ∧ w = wordOfInt conn.sockid
  listed : ∀ c conn, core.conns.read c = some conn → core.client conn.sockid = some c
  bounded : ∀ c conn, core.conns.read c = some conn → c < core.conns.next
  members : MembersMapped core.mgr

/-- Nobody is there at the start. -/
theorem Core.sidToUid_init (db : Db) : (Core.init db).mgr.sidToUid = ∅ := by
  have users : ∀ (users : List User) (mgr : ConnMgr),
      (users.foldl (fun mgr user => mgr.addUid user.uid) mgr).sidToUid = mgr.sidToUid := by
    intro users
    induction users with
    | nil => exact fun _ => rfl
    | cons user users ih => exact fun mgr => ih _
  exact users db.users initConnMgr

namespace CoreInv

variable {core : Core}

theorem mem_openSockets (inv : CoreInv core) (sockid : Int32) :
    sockid ∈ core.openSockets ↔ ∃ c conn, core.conns.read c = some conn ∧ conn.sockid = sockid := by
  simp only [Core.openSockets, List.mem_filterMap, List.mem_range, Option.map_eq_some_iff]
  constructor
  · rintro ⟨c, _, conn, there, same⟩
    exact ⟨c, conn, there, same⟩
  · rintro ⟨c, conn, there, same⟩
    exact ⟨c, inv.bounded c conn there, conn, there, same⟩

theorem client_eq_some (inv : CoreInv core) {sockid : Int32} {c : Nat}
    (found : core.client sockid = some c) :
    ∃ conn, core.conns.read c = some conn ∧ conn.sockid = sockid := by
  obtain ⟨conn, there, same⟩ : ∃ conn, core.conns.read c = some conn ∧
      wordOfInt sockid = wordOfInt conn.sockid := by
    obtain ⟨c', conn, same, there, key⟩ := inv.owners _ (some c) (Option.join_eq_some_iff.mp found)
    cases same
    exact ⟨conn, there, key⟩
  exact ⟨conn, there, (wordOfInt_inj.mp same).symm⟩

/-- Two live connections have two sockets. -/
theorem sockid_inj (inv : CoreInv core) {c c' : Nat} {conn conn' : Connection}
    (there : core.conns.read c = some conn) (there' : core.conns.read c' = some conn')
    (same : conn.sockid = conn'.sockid) : c = c' := by
  have listed := inv.listed c conn there
  rw [same, inv.listed c' conn' there'] at listed
  exact (Option.some.inj listed).symm

theorem mem_clients (inv : CoreInv core) (sockid : Int32) :
    wordOfInt sockid ∈ core.clients ↔ ∃ c, core.client sockid = some c := by
  rw [ExtTreeMap.mem_iff_isSome_getElem?, Option.isSome_iff_exists]
  constructor
  · rintro ⟨ptr, found⟩
    obtain ⟨c, _, rfl, _⟩ := inv.owners _ ptr found
    exact ⟨c, Option.join_eq_some_iff.mpr found⟩
  · rintro ⟨c, found⟩
    exact ⟨some c, Option.join_eq_some_iff.mp found⟩

theorem init (db : Db) : CoreInv (Core.init db) := by
  have mapped : ∀ (users : List User) (mgr : ConnMgr), MembersMapped mgr →
      MembersMapped (users.foldl (fun mgr user => mgr.addUid user.uid) mgr) := by
    intro users
    induction users with
    | nil => exact fun mgr mapped => mapped
    | cons user users ih => exact fun mgr mapped => ih _ (mapped.addUid user.uid)
  constructor
  · intro w
    rw [Core.sidToUid_init]
    simp [Core.init]
  · intro w ptr found
    simp [Core.init] at found
  · intro c conn there
    cases there
  · intro c conn there
    cases there
  · exact mapped db.users initConnMgr .init

/-- `accept_connection` with a socket that is not open. -/
theorem acceptConnection (inv : CoreInv core) (sockid : Int32)
    (unused : sockid ∉ core.openSockets) : CoreInv (core.acceptConnection sockid) := by
  unfold Core.acceptConnection
  split
  -- No connection has the socket, so it is not a key.
  · have absent : wordOfInt sockid ∉ core.clients := by
      intro inside
      obtain ⟨c, found⟩ := (inv.mem_clients sockid).mp inside
      obtain ⟨conn, there, same⟩ := inv.client_eq_some found
      exact unused ((inv.mem_openSockets sockid).mpr ⟨c, conn, there, same⟩)
    constructor
    · intro w
      simp only [ConnMgr.addSid, ExtTreeMap.mem_insertIfNew, inv.keys w]
    · intro w ptr found
      simp only [ExtTreeMap.getElem?_insertIfNew, Std.compare_eq_iff_eq, absent, not_false_eq_true,
        and_true] at found
      split at found
      next same =>
        cases found
        exact ⟨core.conns.next, newConnection sockid, rfl, by simp [read_alloc], same.symm⟩
      next =>
        obtain ⟨c, conn, rfl, there, key⟩ := inv.owners w ptr found
        have old : c ≠ core.conns.next := Nat.ne_of_lt (inv.bounded c conn there)
        exact ⟨c, conn, rfl, by simp [read_alloc, old, there], key⟩
    · intro c conn there
      rw [Core.client, ExtTreeMap.getElem?_insertIfNew]
      simp only [read_alloc] at there
      split at there
      next fresh =>
        cases there
        rw [if_pos ⟨Std.compare_eq_iff_eq.mpr rfl, absent⟩, fresh]
        rfl
      next =>
        have other : wordOfInt sockid ≠ wordOfInt conn.sockid := by
          intro same
          exact unused ((inv.mem_openSockets sockid).mpr ⟨c, conn, there, (wordOfInt_inj.mp same).symm⟩)
        rw [if_neg fun here => other (Std.compare_eq_iff_eq.mp here.1)]
        exact inv.listed c conn there
    · intro c conn there
      simp only [read_alloc] at there
      split at there
      next fresh => exact fresh ▸ Nat.lt_succ_self _
      next => exact Nat.lt_succ_of_lt (inv.bounded c conn there)
    · exact inv.members.addSid sockid
  · exact inv

/-- A connection stays where it is. -/
theorem read_acceptConnection (inv : CoreInv core) {c : Nat} {conn : Connection}
    (there : core.conns.read c = some conn) (sockid : Int32) :
    (core.acceptConnection sockid).conns.read c = some conn := by
  unfold Core.acceptConnection
  split
  · simp only [read_alloc, if_neg (Nat.ne_of_lt (inv.bounded c conn there)), there]
  · exact there

/-- A close of a socket that is open destroys the connection that has it. -/
theorem closeConnection_eq (inv : CoreInv core) {c : Nat} {conn : Connection}
    (there : core.conns.read c = some conn) (env : Env) {effects : List Effect} {rest : Option Core}
    (ran : core.closeConnection env conn.sockid = some (effects, rest)) :
    ∃ conns events, core.conns.free c = some conns ∧
      Core.logoutEvents env (core.mgr.getUid conn.sockid)
        (core.mgr.getNumberOfSessions (core.mgr.getUid conn.sockid)) core.db = some events ∧
      effects = .deleted c :: events ∧
      rest = some ⟨conns, core.clients.erase (wordOfInt conn.sockid), core.mgr.delSid conn.sockid, core.db⟩ := by
  obtain ⟨conns, freed⟩ : ∃ conns, core.conns.free c = some conns := by
    rw [free]
    exact ⟨_, congrArg _ there⟩
  simp only [Core.closeConnection, inv.listed c conn there, Option.bind_some, freed] at ran
  simp only [Option.bind_eq_bind, Option.bind_eq_some_iff] at ran
  obtain ⟨events, announced, ran⟩ := ran
  cases ran
  exact ⟨conns, events, freed, announced, rfl, rfl⟩

/-- `close_connection` of a socket that is open. -/
theorem closeConnection (inv : CoreInv core) {c : Nat} {conn : Connection}
    (there : core.conns.read c = some conn) {conns : Store Connection}
    (freed : core.conns.free c = some conns) :
    CoreInv ⟨conns, core.clients.erase (wordOfInt conn.sockid), core.mgr.delSid conn.sockid, core.db⟩ := by
  obtain ⟨_, _, next, reads⟩ := free_eq_some freed
  -- What is left has other sockets.
  have others : ∀ c' conn', conns.read c' = some conn' →
      core.conns.read c' = some conn' ∧ conn'.sockid ≠ conn.sockid := by
    intro c' conn' there'
    rw [reads] at there'
    split at there'
    next => cases there'
    next other => exact ⟨there', fun same => other (inv.sockid_inj there' there same)⟩
  constructor
  · intro w
    rw [ConnMgr.delSid, ConnMgr.sidToUid_updateSessions, ExtTreeMap.mem_erase, ExtTreeMap.mem_erase, inv.keys w]
  · intro w ptr found
    rw [ExtTreeMap.getElem?_erase] at found
    split at found
    next => cases found
    next other =>
      obtain ⟨c', conn', rfl, there', key⟩ := inv.owners w ptr found
      refine ⟨c', conn', rfl, ?_, key⟩
      rw [reads, if_neg, there']
      rintro rfl
      rw [there] at there'
      cases there'
      exact other (Std.compare_eq_iff_eq.mpr key.symm)
  · intro c' conn' there'
    obtain ⟨there', other⟩ := others c' conn' there'
    rw [Core.client, ExtTreeMap.getElem?_erase, if_neg]
    · exact inv.listed c' conn' there'
    · intro same
      exact other (wordOfInt_inj.mp (Std.compare_eq_iff_eq.mp same)).symm
  · intro c' conn' there'
    rw [next]
    exact inv.bounded c' conn' (others c' conn' there').1
  · exact inv.members.delSid conn.sockid

/-- A handler changes the connection manager by a LOGIN only. -/
theorem handled (inv : CoreInv core) {c : Nat} {conn : Connection} {env : Env} {type : UInt8}
    {effects : List Effect} {mgr : ConnMgr} {db : Db} (there : core.conns.read c = some conn)
    (outcome : Outcome env conn.sockid core.mgr core.db type effects mgr db) :
    CoreInv { core with mgr := mgr, db := db } := by
  cases outcome with
  | loggedIn _ login uid =>
    have connected : wordOfInt conn.sockid ∈ (core.mgr.addUid uid).sidToUid :=
      (inv.keys _).mpr ((inv.mem_clients _).mpr ⟨c, inv.listed c conn there⟩)
    constructor
    · intro w
      rw [ConnMgr.mem_connectSidUid _ _ _ _ connected]
      exact inv.keys w
    · exact inv.owners
    · exact inv.listed
    · exact inv.bounded
    · exact (inv.members.addUid _).connectSidUid _ _
  | answered | refused | loggedOut | regular | kicked =>
    exact ⟨inv.keys, inv.owners, inv.listed, inv.bounded, inv.members⟩

/-- A step on one connection that leaves its socket alone. -/
theorem modify (inv : CoreInv core) {c : Nat} {f : Connection → Connection}
    (socket : ∀ conn, core.conns.read c = some conn → (f conn).sockid = conn.sockid)
    {conns : Store Connection} (changed : core.conns.modify c f = some conns) :
    CoreInv { core with conns := conns } := by
  obtain ⟨old, there, next, reads⟩ := modify_eq_some changed
  have same := socket old there
  -- Every connection has the socket that it had.
  have kept : ∀ c' conn', conns.read c' = some conn' →
      ∃ before, core.conns.read c' = some before ∧ before.sockid = conn'.sockid := by
    intro c' conn' there'
    rw [reads] at there'
    split at there'
    next here =>
      cases there'
      exact ⟨old, here ▸ there, same.symm⟩
    next => exact ⟨conn', there', rfl⟩
  constructor
  · exact inv.keys
  · intro w ptr found
    obtain ⟨c', conn', rfl, there', key⟩ := inv.owners w ptr found
    by_cases here : c' = c
    · subst here
      rw [there] at there'
      cases there'
      exact ⟨c', f old, rfl, by rw [reads, if_pos rfl], by rw [same, key]⟩
    · exact ⟨c', conn', rfl, by rw [reads, if_neg here, there'], key⟩
  · intro c' conn' there'
    obtain ⟨before, there, socket⟩ := kept c' conn' there'
    rw [← socket]
    exact inv.listed c' before there
  · intro c' conn' there'
    obtain ⟨before, there, _⟩ := kept c' conn' there'
    exact next ▸ inv.bounded c' before there
  · exact inv.members

end CoreInv

end AcosChat

import AcosChat.Connection.Reassembly
import AcosChat.Server.Custody

/-!
# Closes

A CLOSE_CONNECTION event is a socket number that waits in the listener's queue. The server
does nothing about a second request, or an end of file, for a socket whose close is
already queued: the event then finds no client, or one that has the number by then. While
that does not happen to a socket, every close of it deletes the connection that it was
requested for.
-/
namespace AcosChat

open Std Store Run Bytes

/-! ### The condition -/

/-- The sockets for which CLOSE_CONNECTION events are queued. -/
def ServerState.queued (s : ServerState) : List Int32 := s.listenerQueue.map CloseRequest.sockid

/-- What the next round of the listener's loop closes: a connection that hung up, or one
that `process_connection` gives up. -/
def ServerState.closing (s : ServerState) (wire : Wire) : Option PollFd :=
  match s.listener with
  | .serving false ((fd, .hangup) :: _) => some fd
  | .serving false ((fd, .readable) :: _) =>
    match (s.core.client fd.fd).bind s.core.conns.read with
    | none => none
    | some conn =>
      match AcosChat.processConnection conn wire with
      | .closed _ => some fd
      | _ => none
  | _ => none

/-- The socket whose close an effect asks for. -/
def Effect.asks : Effect → Option Int32
  | .closeEvent sockid => some sockid
  | _ => none

/-- The sockets whose close the next job asks for, by a LOGOUT or a KICK. -/
def ServerState.asked (md5hex : Block → Block) (s : ServerState) (env : Env) : List Int32 :=
  match s.workersQueue with
  | .processMessage c msg :: _ =>
    match (s.core.conns.read c).bind fun conn => s.core.handleJob md5hex env conn msg with
    | none => []
    | some (effects, _) => effects.filterMap Effect.asks
  | _ => []

/-- Nothing closes this socket, or asks for it, while its close is already queued. -/
def RequestedOnce (md5hex : Block → Block) (sockid : Int32) (s : ServerState) : ThreadAction → Prop
  | .serve wire _ => (s.closing wire).map PollFd.fd = some sockid → sockid ∉ s.queued
  | .handleJob env => sockid ∈ s.asked md5hex env → sockid ∉ s.queued
  | _ => True

/-! ### The invariant -/

/-- A queued close of this socket is that of the connection that has it, and there is one
at most. -/
structure Requests (s : ServerState) (sockid : Int32) : Prop where
  owned : ∀ request ∈ s.listenerQueue, request.sockid = sockid →
    ∃ c, request.requested = some c ∧ s.core.client sockid = some c
  once : s.queued.count sockid ≤ 1

theorem requests_eq (core : Core) (effects : List Effect) :
    effects.filterMap (Effect.request core) =
      (effects.filterMap Effect.asks).map fun sockid => ⟨sockid, core.client sockid⟩ := by
  rw [List.map_filterMap]
  congr 1
  funext effect
  cases effect <;> rfl

theorem asks_kicked (mgr : ConnMgr) (kuid : Int32) (reason : Block) :
    (mgr.forallUid kuid (kickCallback reason) []).filterMap Effect.asks =
      (((mgr.sessions kuid).map ExtTreeMap.keys).getD []).map intOfWord := by
  rw [forallUid_kickCallback, List.filterMap_flatMap]
  generalize ((mgr.sessions kuid).map ExtTreeMap.keys).getD [] = keys
  induction keys with
  | nil => rfl
  | cons key keys ih =>
    rw [List.flatMap_cons, ih]
    rfl

/-- A LOGOUT asks for the socket of its connection, a KICK for those of a uid. -/
theorem Outcome.asked {env : Env} {core : Core} {conn : Connection} {c : Nat} {type : UInt8}
    {effects : List Effect} {mgr : ConnMgr} {db : Db} (agree : CoreInv core)
    (there : core.conns.read c = some conn)
    (outcome : Outcome env conn.sockid core.mgr core.db type effects mgr db) :
    (effects.filterMap Effect.asks).Nodup ∧
      ∀ sockid ∈ effects.filterMap Effect.asks, ∃ c, core.client sockid = some c := by
  have silent : (∀ effect ∈ effects, effect.asks = none) → (effects.filterMap Effect.asks).Nodup ∧
      ∀ sockid ∈ effects.filterMap Effect.asks, ∃ c, core.client sockid = some c := by
    intro nothing
    rw [List.filterMap_eq_nil_iff.mpr nothing]
    simp
  cases outcome with
  | answered type effects plain =>
    apply silent
    intro effect member
    obtain ⟨_, rfl, _⟩ := plain effect member
    rfl
  | refused => exact silent (by simp [sendStatusCode, Effect.asks])
  | loggedIn _ login uid announced _ _ announces =>
    apply silent
    intro effect member
    rcases List.mem_append.mp member with first | announcement
    · rcases List.mem_cons.mp first with rfl | status
      · rfl
      · rw [List.mem_singleton.mp status]
        rfl
    · obtain ⟨_, _, rfl⟩ := announces effect announcement
      rfl
  | loggedOut =>
    refine ⟨by simp [Effect.asks], ?_⟩
    intro sockid member
    simp only [Effect.asks, List.filterMap_cons, List.filterMap_nil, List.mem_singleton] at member
    exact ⟨c, member ▸ agree.listed c conn there⟩
  | regular => exact silent (by simp [Effect.asks])
  | kicked kuid reason text root =>
    have announced : Effect.asks (metaEvent env.tstamp text) = none := rfl
    rw [List.filterMap_append, asks_kicked, List.filterMap_cons_none announced, List.filterMap_nil,
      List.append_nil]
    cases found : core.mgr.sessions kuid with
    | none => simp
    | some m =>
      -- A key of the set is a socket, and a key of `sid_to_uid`.
      have member := agree.members kuid m found
      simp only [Option.map_some, Option.getD_some]
      constructor
      · apply List.Nodup.map_on _ ExtTreeMap.nodup_keys
        intro x inX y inY same
        obtain ⟨s, rfl, _⟩ := member x (ExtTreeMap.mem_keys.mp inX)
        obtain ⟨s', rfl, _⟩ := member y (ExtTreeMap.mem_keys.mp inY)
        rw [intOfWord_wordOfInt, intOfWord_wordOfInt] at same
        rw [same]
      · intro sockid inside
        obtain ⟨key, there', rfl⟩ := List.mem_map.mp inside
        obtain ⟨s, rfl, connected, _⟩ := member key (ExtTreeMap.mem_keys.mp there')
        rw [intOfWord_wordOfInt]
        exact (agree.mem_clients s).mp ((agree.keys _).mp connected)

namespace Requests

variable {md5hex : Block → Block} {s s' : ServerState} {sockid : Int32}

/-- A step that leaves the queue and the clients alone. -/
theorem moved (requests : Requests s sockid) (queue : s'.listenerQueue = s.listenerQueue)
    (clients : s'.core.clients = s.core.clients) : Requests s' sockid := by
  constructor
  · rw [queue]
    unfold Core.client
    rw [clients]
    exact requests.owned
  · rw [ServerState.queued, queue]
    exact requests.once

/-- A close of another socket, or of this one while it is not queued. -/
theorem closes (requests : Requests s sockid) {closing : Int32} {requested : Option Nat}
    {seen : List Sighting} (closed : Closes s closing requested seen s')
    (free : closing = sockid → sockid ∉ s.queued) : Requests s' sockid := by
  cases closed with
  | intro c conns events found freed =>
    refine ⟨?_, requests.once⟩
    intro request member own
    obtain ⟨c', same, there⟩ := requests.owned request member own
    refine ⟨c', same, ?_⟩
    rw [Core.client, ExtTreeMap.getElem?_erase, if_neg]
    · exact there
    · intro wrong
      rw [Std.compare_eq_iff_eq, wordOfInt_inj] at wrong
      exact free wrong (own ▸ List.mem_map_of_mem member)

theorem acceptConnection (requests : Requests s sockid) (accepted : Int32) (listener : ListenerPhase) :
    Requests { s with core := s.core.acceptConnection accepted, listener := listener } sockid := by
  refine ⟨?_, requests.once⟩
  intro request member own
  obtain ⟨c, same, there⟩ := requests.owned request member own
  refine ⟨c, same, ?_⟩
  unfold Core.acceptConnection
  split
  · have present : wordOfInt sockid ∈ s.core.clients := by
      rw [ExtTreeMap.mem_iff_isSome_getElem?, Option.join_eq_some_iff.mp there]
      rfl
    -- `ts_map_insert` does not overwrite.
    rw [Core.client, ExtTreeMap.getElem?_insertIfNew, if_neg]
    · exact there
    · rintro ⟨key, absent⟩
      rw [Std.compare_eq_iff_eq.mp key] at absent
      exact absent present
  · exact there

theorem emit (requests : Requests s sockid) (effects : List Effect)
    (distinct : (effects.filterMap Effect.asks).Nodup)
    (owned : ∀ asked ∈ effects.filterMap Effect.asks, ∃ c, s.core.client asked = some c)
    (fresh : sockid ∈ effects.filterMap Effect.asks → sockid ∉ s.queued) :
    Requests (s.emit effects) sockid := by
  constructor
  · intro request member own
    simp only [ServerState.emit, requests_eq, List.mem_append, List.mem_map] at member
    rcases member with before | ⟨asked, inside, rfl⟩
    · exact requests.owned request before own
    · obtain ⟨c, there⟩ := owned asked inside
      exact ⟨c, there, own ▸ there⟩
  · have sockets : (s.emit effects).queued = s.queued ++ effects.filterMap Effect.asks := by
      simp [ServerState.queued, ServerState.emit, requests_eq, Function.comp_def]
    rw [sockets, List.count_append]
    by_cases asked : sockid ∈ effects.filterMap Effect.asks
    · rw [List.count_eq_zero.mpr (fresh asked), Nat.zero_add]
      exact List.nodup_iff_count_le_one.mp distinct sockid
    · rw [List.count_eq_zero.mpr asked]
      exact requests.once

/-- Every step that requests or closes the socket once keeps it. -/
theorem step (requests : Requests s sockid) (custody : Custody s) {action : ThreadAction}
    {seen : List Sighting} (met : RequestedOnce md5hex sockid s action)
    (transition : Transition md5hex s action seen s') : Requests s' sockid := by
  cases transition with
  | hungUp wire env fd todo phase closed =>
    have before : Requests { s with listener := .serving false todo } sockid := requests.moved rfl rfl
    refine before.closes closed fun own => met ?_
    simp only [ServerState.closing, phase, Option.map_some]
    rw [own]
  | lost wire env fd todo c conn why phase found there received closed =>
    have before : Requests { s with listener := .serving false todo } sockid := requests.moved rfl rfl
    refine before.closes closed fun own => met ?_
    simp only [ServerState.closing, phase, found, Option.bind_some, there, received, Option.map_some]
    rw [own]
  | accepted accepted => exact requests.acceptConnection accepted _
  | closeEvent env request later phase queue closed =>
    have once := requests.once
    rw [ServerState.queued, queue, List.map_cons, List.count_cons] at once
    have popped : Requests { s with listenerQueue := later } sockid := by
      refine ⟨?_, Nat.le_trans (Nat.le_add_right _ _) once⟩
      intro request' member
      exact requests.owned request' (queue ▸ List.mem_cons_of_mem _ member)
    refine (popped.closes closed fun own => ?_).moved rfl rfl
    -- The request was the only one for its socket.
    rw [own, beq_self_eq_true, if_pos rfl] at once
    exact List.count_eq_zero.mp (Nat.le_zero.mp (Nat.le_of_succ_le_succ once))
  | processed env c conn msg later effects mgr db queue there handled outcome =>
    obtain ⟨distinct, owned⟩ := Outcome.asked custody.agree there outcome
    have before : Requests { s with
        core := { s.core with mgr := mgr, db := db }
        workersQueue := later
        workers := s.workers ++ [c] } sockid := requests.moved rfl rfl
    apply before.emit effects distinct owned
    intro member
    apply met
    simpa only [ServerState.asked, queue, there, Option.bind_some, handled] using member
  | skipped | pushed | pollFailed | polled | passed | kept | dispatched | noEvent | refused |
    unpacked | broadcast | reset | sent | deleted => exact requests.moved rfl rfl

theorem of_ran {db : Db} {trace : List Sighting}
    (ran : Ran (threadStep md5hex) (RequestedOnce md5hex sockid) (.init db) trace s) :
    Requests s sockid := by
  induction ran with
  | start => exact ⟨nofun, Nat.zero_le 1⟩
  | step before met taken requests =>
    exact requests.step (.of_ran before) met (threadStep_transition taken)

end Requests

/-! ### Every close is a requested one -/

/-- In a run that requests and closes a socket once, the socket is still that of a client
whenever it is closed, and the connection that is deleted is the one whose close was asked
for. -/
theorem close_deletes_requested (md5hex : Block → Block) (db : Db) (sockid : Int32)
    {trace : List Sighting} {s : ServerState}
    (ran : Ran (threadStep md5hex) (RequestedOnce md5hex sockid) (.init db) trace s)
    {action : ThreadAction} {seen : List Sighting} {rest : Option ServerState}
    (taken : threadStep md5hex s action = some (seen, rest))
    {requested deleted : Option Nat} (closed : .closed sockid requested deleted ∈ seen) :
    wordOfInt sockid ∈ s.core.clients ∧ ∃ c, requested = some c ∧ deleted = some c := by
  have custody := Custody.of_ran ran
  have shows_ := threadStep_shows taken _ closed
  have owned : ∃ c, s.core.client sockid = some c ∧ requested = some c := by
    cases shows_ with
    | served fd revents todo phase => exact ⟨fd.conn, (custody.served phase).1, rfl⟩
    | requested request queued =>
      obtain ⟨c, same, found⟩ := (Requests.of_ran ran).owned request queued rfl
      exact ⟨c, found, same⟩
  obtain ⟨c, found, same⟩ := owned
  refine ⟨(custody.agree.mem_clients sockid).mpr ⟨c, found⟩, c, same, ?_⟩
  cases shows_ <;> exact found

/-- One client connects and hangs up. -/
def hangUp : List ThreadAction :=
  [.poll (some (true, [])), .acceptConnection 5, .eventLoopIteration .calm, .pushBackConn,
    .poll (some (false, [.hangup]))]

/-- One client logs out, and the listener comes to the event in its next turn. -/
def logout : List ThreadAction :=
  hangUp.dropLast ++
    [.poll (some (false, [.readable])), .serve (wireOf (Frame.bytes ⟨messageClientLogout, []⟩)) .calm,
      .eventLoopIteration .calm, .handleEvent .calm, .inputMsgEventDeleter, .handleJob .calm,
      .processMessageJobDeleter 0, .pushBackConn, .poll (some (false, [.none])), .serve (wireOf []) .calm]

theorem close_deletes_requested_logout : ∃ trace s rest,
    replay (threadStep fun _ => emptyDigest) (.init (preparedDb emptyDigest)) logout = some (trace, s) ∧
    s.queued = [5] ∧
    threadStep (fun _ => emptyDigest) s (.eventLoopIteration .calm) =
      some ([.closed 5 (some 0) (some 0)], rest) ∧
    wordOfInt 5 ∈ s.core.clients ∧ ∃ c, some 0 = some c ∧ some 0 = some c := by
  have ran : ∃ trace s, replay (threadStep fun _ => emptyDigest) (.init (preparedDb emptyDigest))
      logout = some (trace, s) ∧ s.queued = [5] ∧ ∃ rest, threadStep (fun _ => emptyDigest) s
        (.eventLoopIteration .calm) = some ([.closed 5 (some 0) (some 0)], rest) := ⟨_, _, rfl, rfl, _, rfl⟩
  obtain ⟨trace, s, replayed, queued, rest, taken⟩ := ran
  have meets : Meets (threadStep fun _ => emptyDigest) (RequestedOnce (fun _ => emptyDigest) 5)
      (.init (preparedDb emptyDigest)) logout := by
    refine ⟨trivial, trivial, trivial, trivial, trivial, ?_, trivial, trivial, trivial, ?_, trivial, trivial,
      trivial, nofun, trivial⟩
    -- the two steps that close or ask for a close find no request
    · exact fun _ => by decide
    · exact fun _ => by decide
  exact ⟨trace, s, rest, replayed, queued, taken,
    close_deletes_requested _ _ 5 (ran_of_replay meets replayed) taken (by simp)⟩

/-- A client logs out and closes its end before the listener has come to the event. -/
def logoutThenEof : List ThreadAction :=
  logout.dropLast.dropLast ++ [.poll (some (false, [.hangup])), .serve (wireOf []) .calm]

/-- The event closes a socket that is closed already: `connection_deleter` gets the null
pointer. -/
theorem second_close_deletes_null : ¬∀ (md5hex : Block → Block) (db : Db) (trace : List Sighting)
    (s : ServerState), Ran (threadStep md5hex) (fun _ _ => True) (.init db) trace s →
    ∀ action seen rest, threadStep md5hex s action = some (seen, rest) →
    ∀ sockid requested deleted, .closed sockid requested deleted ∈ seen →
      wordOfInt sockid ∈ s.core.clients ∧ ∃ c, requested = some c ∧ deleted = some c := by
  intro claim
  have ran : ∃ trace s, replay (threadStep fun _ => emptyDigest) (.init (preparedDb emptyDigest))
      logoutThenEof = some (trace, s) ∧ ∃ rest, threadStep (fun _ => emptyDigest) s
        (.eventLoopIteration .calm) = some ([.closed 5 (some 0) none], rest) := ⟨_, _, rfl, _, rfl⟩
  obtain ⟨trace, s, replayed, rest, taken⟩ := ran
  obtain ⟨_, c, _, wrong⟩ := claim _ _ _ _
    (ran_of_replay (meets_of_forall (fun _ _ => trivial) _ _) replayed) _ _ _ taken 5 (some 0) none (by simp)
  cases wrong

end AcosChat

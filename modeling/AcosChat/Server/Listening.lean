import AcosChat.Connection.Calls
import AcosChat.Server.Closing

/-!
# The listener's calls of `recv`

The counters of every connection stay in range, whatever the peers announce and however
their input is cut. `poll` reports a socket once, and the listener answers a report with
one `recv`, unless that has a header complete to which a body belongs: it then calls `recv`
again, and waits in it if the body is not there.
-/
namespace AcosChat

open Std Store Bytes Run

/-! ### Counters of the connections -/

/-- The counters of every connection fit its buffers. -/
def Core.InRange (core : Core) : Prop :=
  ∀ c conn, core.conns.read c = some conn → AcosChat.InRange conn

namespace Core.InRange

variable {core core' : Core}

theorem modify (range : core.InRange) {c : Nat} {f : Connection → Connection} {conns : Store Connection}
    (written : core.conns.modify c f = some conns)
    (kept : ∀ conn, core.conns.read c = some conn → AcosChat.InRange (f conn)) :
    ({ core with conns := conns } : Core).InRange := by
  obtain ⟨old, there, _, reads⟩ := modify_eq_some written
  intro c' conn' read
  rw [reads] at read
  split at read
  next =>
    cases read
    exact kept old there
  next => exact range c' conn' read

theorem acceptConnection (range : core.InRange) (sockid : Int32) :
    (core.acceptConnection sockid).InRange := by
  unfold Core.acceptConnection
  split
  next =>
    intro c conn read
    rw [read_alloc] at read
    split at read
    next =>
      cases read
      exact inRange_newConnection sockid
    next => exact range c conn read
  next => exact range

theorem closes {s s' : ServerState} {sockid : Int32} {requested : Option Nat} {seen : List Sighting}
    (range : s.core.InRange) (closed : Closes s sockid requested seen s') : s'.core.InRange := by
  cases closed with
  | intro c conns events found freed =>
    obtain ⟨_, _, _, reads⟩ := free_eq_some freed
    intro c' conn read
    rw [reads] at read
    split at read
    next => cases read
    next => exact range c' conn read

/-- Every step keeps it. -/
theorem step {md5hex : Block → Block} {s s' : ServerState} {action : ThreadAction}
    {seen : List Sighting} (range : s.core.InRange) (transition : Transition md5hex s action seen s') :
    s'.core.InRange := by
  cases transition with
  | skipped | pushed | pollFailed | polled | passed | noEvent | unpacked | broadcast | sent | processed =>
    exact range
  | accepted sockid todo phase unused => exact range.acceptConnection sockid
  | hungUp wire env fd todo phase closed | lost wire env fd todo c conn why phase found there received closed =>
    have rest : ServerState.core { s with listener := .serving false todo } |>.InRange := range
    exact rest.closes closed
  | closeEvent env request later phase queue closed =>
    have rest : ServerState.core { s with listenerQueue := later } |>.InRange := range
    have after := rest.closes closed
    exact after
  | kept wire wire' env fd todo c conn conn' conns phase found there received written =>
    apply range.modify written
    intro _ _
    have ranged := processConnection_inRange (range c conn there) wire (by simp [received])
    rwa [received] at ranged
  | dispatched wire wire' env fd todo c conn conn' conns phase found there received written =>
    apply range.modify written
    intro _ _
    have ranged := processConnection_inRange (range c conn there) wire (by simp [received])
    rwa [received] at ranged
  | refused env c frame conn later conns idle queue there corrupt written =>
    exact range.modify written fun conn there => (range c conn there).setInWorker false
  | reset c conn frame conns handled there written =>
    exact range.modify written fun conn _ => inRange_resetConnection conn
  | deleted i c conns handled written =>
    exact range.modify written fun conn there => (range c conn there).setInWorker false

theorem of_ran {md5hex : Block → Block} {cond : ServerState → ThreadAction → Prop} {db : Db}
    {trace : List Sighting} {s : ServerState} (ran : Ran (threadStep md5hex) cond (.init db) trace s) :
    s.core.InRange := by
  induction ran with
  | start =>
    intro c conn read
    cases read
  | step _ _ taken range => exact range.step (threadStep_transition taken)

end Core.InRange

/-- In every state that the server reaches, the counters of a connection fit its buffers, and
the next call of `process_connection` on it receives into them only and keeps that, or
closes the connection, just when its header does not announce more than
`bytes_expected` can count. -/
theorem receives_inside_iff (md5hex : Block → Block) (db : Db) {trace : List Sighting} {s : ServerState}
    (ran : Ran (threadStep md5hex) (fun _ _ => True) (.init db) trace s) (c : Nat) (conn : Connection)
    (there : s.core.conns.read c = some conn) :
    InRange conn ∧ ∀ wire, ReceivesInside conn wire ↔ ¬Overflows conn wire := by
  have range := Core.InRange.of_ran ran c conn there
  exact ⟨range, fun wire => receivesInside_iff range wire⟩

/-- A client has connected. -/
def connected : List ThreadAction := [.poll (some (true, [])), .acceptConnection 7]

theorem receives_inside_iff_connected : ∃ trace s conn,
    replay (threadStep fun _ => emptyDigest) (.init (preparedDb emptyDigest)) connected = some (trace, s) ∧
    s.core.conns.read 0 = some conn ∧
    (ReceivesInside conn (wireOf (Frame.bytes ⟨messageClientRegular, [0, 0, 0, 2, 104, 105]⟩)) ↔
      ¬Overflows conn (wireOf (Frame.bytes ⟨messageClientRegular, [0, 0, 0, 2, 104, 105]⟩))) := by
  have ran : ∃ trace s conn, replay (threadStep fun _ => emptyDigest) (.init (preparedDb emptyDigest))
      connected = some (trace, s) ∧ s.core.conns.read 0 = some conn := ⟨_, _, _, rfl, rfl⟩
  obtain ⟨trace, s, conn, replayed, there⟩ := ran
  have reached := ran_of_replay (meets_of_forall (fun _ _ => trivial) _ _) replayed
  exact ⟨trace, s, conn, replayed, there, (receives_inside_iff _ _ reached 0 conn there).2 _⟩

/-- A header that announces `INT_MAX` bytes. -/
def longest : Block := wireHeader messageClientRegular 2147483647

/-- `bytes_expected += body_size` overflows on a length that is not negative. -/
theorem expected_overflows : ¬∀ (md5hex : Block → Block) (db : Db) (trace : List Sighting)
    (s : ServerState), Ran (threadStep md5hex) (fun _ _ => True) (.init db) trace s →
    ∀ c conn, s.core.conns.read c = some conn → ∀ wire, ReceivesInside conn wire := by
  intro claim
  have ran : ∃ trace s, replay (threadStep fun _ => emptyDigest) (.init (preparedDb emptyDigest))
      connected = some (trace, s) ∧ s.core.conns.read 0 = some (newConnection 7) := ⟨_, _, rfl, rfl⟩
  obtain ⟨trace, s, replayed, there⟩ := ran
  have reached := ran_of_replay (meets_of_forall (fun _ _ => trivial) _ _) replayed
  have inside := claim _ _ _ _ reached 0 _ there (wireOf longest)
  have overflows : Overflows (newConnection 7) (wireOf longest) :=
    ⟨rfl, 2147483647, rfl, by decide, rfl⟩
  exact (receivesInside_iff (inRange_newConnection 7) _).mp inside overflows

/-! ### Reports and calls -/

/-- What passes between the listener and the kernel. -/
inductive SocketEvent where
  /-- `poll` returns `POLLIN` for the socket. -/
  | reported (sockid : Int32)
  /-- `recv` is called on the socket. -/
  | received (sockid : Int32)
deriving DecidableEq, Repr

/-- The connection whose report the listener takes next. -/
def ServerState.served (s : ServerState) : Option (PollFd × Connection) :=
  match s.listener with
  | .serving false ((fd, .readable) :: _) =>
    ((s.core.client fd.fd).bind s.core.conns.read).map fun conn => (fd, conn)
  | _ => none

/-- The numbers of the entries for which `poll` returns `POLLIN`. -/
def readableFds (entries : List (PollFd × Revents)) : List Int32 :=
  (entries.filter fun entry => entry.2 = .readable).map fun entry => entry.1.fd

/-- The reports and the calls of `recv` of a step. -/
def ServerState.socketEvents (s : ServerState) : ThreadAction → List SocketEvent
  | .poll (some (_, revents)) =>
    match s.listener with
    | .collecting [] polled => (readableFds (polled.zip revents)).map .reported
    | _ => []
  | .serve wire _ =>
    match s.served with
    -- process_connection receives from the number that was polled.
    | some (fd, conn) => (recvCalls conn wire).map fun _ => .received fd.fd
    | none => []
  | _ => []

/-- A step of the threads, seen from the sockets of the listener. -/
def socketStep (md5hex : Block → Block) : Step ServerState ThreadAction SocketEvent := fun s action =>
  (threadStep md5hex s action).map fun (_, rest) => (s.socketEvents action, rest)

/-- There is a report for the socket that no `recv` has consumed. -/
def Unconsumed (trace : List SocketEvent) (sockid : Int32) : Prop :=
  ∃ before after, trace = before ++ .reported sockid :: after ∧ .received sockid ∉ after

/-- Every `recv` follows a report for its socket that no earlier one has consumed. -/
def Covered (trace : List SocketEvent) : Prop :=
  Follows (fun before event => ∀ sockid, event = .received sockid → Unconsumed before sockid) trace

/-- The step does not receive a header whose body `process_connection` goes on to. -/
def HeaderAlone (s : ServerState) : ThreadAction → Prop
  | .serve wire _ => ∀ fd conn, s.served = some (fd, conn) → ¬GoesOn conn wire
  | _ => True

theorem Unconsumed.append {trace later : List SocketEvent} {sockid : Int32}
    (unconsumed : Unconsumed trace sockid) (others : .received sockid ∉ later) :
    Unconsumed (trace ++ later) sockid := by
  obtain ⟨before, after, rfl, none⟩ := unconsumed
  refine ⟨before, after ++ later, by simp, ?_⟩
  simp [none, others]

/-- A `recv` consumes the report. -/
theorem not_unconsumed_received (trace : List SocketEvent) (sockid : Int32) :
    ¬Unconsumed (trace ++ [.received sockid]) sockid := by
  rintro ⟨before, after, same, none⟩
  rcases List.eq_nil_or_concat after with rfl | ⟨front, last, rfl⟩
  · have ends := congrArg List.getLast? same
    simp at ends
  · rw [List.concat_eq_append, ← List.cons_append, ← List.append_assoc] at same
    obtain ⟨_, ends⟩ := List.append_inj' same rfl
    cases ends
    simp at none

theorem covered_append_received (trace : List SocketEvent) (sockid : Int32) :
    Covered (trace ++ [.received sockid]) ↔ Covered trace ∧ Unconsumed trace sockid := by
  simp only [Covered, follows_append_singleton, SocketEvent.received.injEq, forall_eq']

/-- Reports need no cover. -/
theorem Covered.append_reported {trace : List SocketEvent} (covered : Covered trace)
    (sockids : List Int32) : Covered (trace ++ sockids.map .reported) := by
  apply Follows.append covered
  rintro event member before sockid rfl
  simp at member

theorem unconsumed_append_reported (trace : List SocketEvent) {sockid : Int32} {sockids : List Int32}
    (member : sockid ∈ sockids) : Unconsumed (trace ++ sockids.map .reported) sockid := by
  obtain ⟨front, back, rfl⟩ := List.append_of_mem member
  refine ⟨trace ++ front.map .reported, back.map .reported, by simp, ?_⟩
  simp

/-- A report covers one call. -/
theorem covered_append_calls_iff {trace : List SocketEvent} {sockid : Int32} (covered : Covered trace)
    (unconsumed : Unconsumed trace sockid) (calls : List RecvCall) :
    Covered (trace ++ calls.map fun _ => .received sockid) ↔ calls.length ≤ 1 := by
  match calls with
  | [] => simpa using covered
  | [call] => simpa using (covered_append_received trace sockid).mpr ⟨covered, unconsumed⟩
  | first :: second :: rest =>
    refine iff_of_false (fun covered => ?_) (by simp)
    -- Before the second call the report has gone.
    have again := covered (trace ++ [.received sockid]) (.received sockid)
      (rest.map fun _ => .received sockid) (by simp) sockid rfl
    exact not_unconsumed_received trace sockid again

/-- The reports that the listener has not come to are not consumed. -/
structure Polling (trace : List SocketEvent) (s : ServerState) : Prop where
  covered : Covered trace
  reported : ∀ accept todo, s.listener = .serving accept todo →
    ∀ fd, (fd, Revents.readable) ∈ todo → Unconsumed trace fd.fd

/-- No two entries of `polling_conns` have one number. -/
theorem Custody.served_apart {s : ServerState} (custody : Custody s) {accept : Bool} {fd fd' : PollFd}
    {revents revents' : Revents} {todo : List (PollFd × Revents)}
    (phase : s.listener = .serving accept ((fd, revents) :: todo)) (later : (fd', revents') ∈ todo) :
    fd'.fd ≠ fd.fd := by
  have sound := custody.phase
  rw [phase] at sound
  obtain ⟨distinct, polled⟩ := sound
  obtain ⟨conn, there, socket, _⟩ := polled (fd', revents') (List.mem_cons_of_mem _ later)
  have found := custody.agree.listed _ conn there
  intro same
  rw [socket, same, (custody.served phase).1, Option.some.injEq] at found
  rw [List.map_cons, List.nodup_cons] at distinct
  exact distinct.1 (List.mem_map.mpr ⟨(fd', revents'), later, found.symm⟩)

theorem ServerState.served_eq_some {s : ServerState} {fd : PollFd} {conn : Connection}
    (served : s.served = some (fd, conn)) :
    ∃ todo c, s.listener = .serving false ((fd, .readable) :: todo) ∧
      s.core.client fd.fd = some c ∧ s.core.conns.read c = some conn := by
  unfold ServerState.served at served
  split at served
  next fd' todo phase =>
    obtain ⟨conn', found, same⟩ := Option.map_eq_some_iff.mp served
    cases same
    obtain ⟨c, client, there⟩ := Option.bind_eq_some_iff.mp found
    exact ⟨todo, c, phase, client, there⟩
  next => cases served

namespace Polling

variable {md5hex : Block → Block} {trace : List SocketEvent} {s s' : ServerState}

/-- The next calls are covered just when the step receives no header with a body behind it. -/
theorem covered_iff (polling : Polling trace s) (range : s.core.InRange) (action : ThreadAction) :
    Covered (trace ++ s.socketEvents action) ↔ HeaderAlone s action := by
  have silent (nothing : s.socketEvents action = []) (met : HeaderAlone s action) :
      Covered (trace ++ s.socketEvents action) ↔ HeaderAlone s action := by
    rw [nothing, List.append_nil]
    exact iff_of_true polling.covered met
  cases action with
  | poll result =>
    refine iff_of_true ?_ trivial
    -- What `poll` reports only adds to what is covered.
    cases result with
    | none => simpa [ServerState.socketEvents] using polling.covered
    | some result =>
      simp only [ServerState.socketEvents]
      split
      next => exact polling.covered.append_reported _
      next => simpa using polling.covered
  | serve wire env =>
    cases served : s.served with
    | none =>
      apply silent (by simp [ServerState.socketEvents, served])
      simp [HeaderAlone, served]
    | some entry =>
      obtain ⟨fd, conn⟩ := entry
      obtain ⟨todo, c, phase, _, there⟩ := ServerState.served_eq_some served
      -- One report covers one call of `recv`.
      have report := polling.reported false _ phase fd (by simp)
      simp only [ServerState.socketEvents, HeaderAlone, served]
      rw [covered_append_calls_iff polling.covered report,
        (loggedReceive_spec (range c conn there) wire).2.1]
      constructor
      · rintro alone fd' conn' same
        cases same
        exact alone
      · exact fun alone => alone fd conn rfl
  | pushBackConn | acceptConnection | eventLoopIteration | handleEvent | inputMsgEventDeleter
  | handleJob | processMessageJobDeleter => exact silent rfl trivial

/-- The listener is in the same place, or in another turn. -/
theorem moved (polling : Polling trace s)
    (phase : ∀ accept todo, s'.listener = .serving accept todo →
      ∃ accept', s.listener = .serving accept' todo) : Polling (trace ++ []) s' where
  covered := by simpa using polling.covered
  reported accept todo here fd member := by
    obtain ⟨accept', before⟩ := phase accept todo here
    simpa using polling.reported accept' todo before fd member

/-- The listener has taken the first entry, and received from its socket. -/
theorem took (polling : Polling trace s) (custody : Custody s) {fd : PollFd} {revents : Revents}
    {todo : List (PollFd × Revents)} (phase : s.listener = .serving false ((fd, revents) :: todo))
    (after : s'.listener = .serving false todo) (calls : List RecvCall)
    (covered : Covered (trace ++ calls.map fun _ => .received fd.fd)) :
    Polling (trace ++ calls.map fun _ => .received fd.fd) s' where
  covered := covered
  reported accept later here fd' member := by
    rw [after] at here
    cases here
    have before := polling.reported false _ phase fd' (List.mem_cons_of_mem _ member)
    apply before.append
    intro received
    obtain ⟨_, _, same⟩ := List.mem_map.mp received
    exact custody.served_apart phase member (SocketEvent.received.inj same).symm

theorem step (polling : Polling trace s) (custody : Custody s) {action : ThreadAction}
    {seen : List Sighting} (covered : Covered (trace ++ s.socketEvents action))
    (transition : Transition md5hex s action seen s') :
    Polling (trace ++ s.socketEvents action) s' := by
  -- The report of a readable entry is that of the connection found under its number.
  have events {fd : PollFd} {todo : List (PollFd × Revents)} {c : Nat} {conn : Connection}
      (wire : Wire) (env : Env) (phase : s.listener = .serving false ((fd, .readable) :: todo))
      (found : s.core.client fd.fd = some c) (there : s.core.conns.read c = some conn) :
      s.socketEvents (.serve wire env) = (recvCalls conn wire).map fun _ => .received fd.fd := by
    simp [ServerState.socketEvents, ServerState.served, phase, found, there]
  cases transition with
  | skipped c todo polled phase => exact polling.moved nofun
  | pushed c conn todo polled phase there idle => exact polling.moved nofun
  | pollFailed => exact polling.moved nofun
  | polled polled accept revents phase all =>
    refine ⟨covered, ?_⟩
    intro accept' todo here fd member
    cases here
    simp only [ServerState.socketEvents, phase]
    apply unconsumed_append_reported
    refine List.mem_map.mpr ⟨(fd, .readable), List.mem_filter.mpr ⟨member, ?_⟩, rfl⟩
    simp
  | accepted sockid todo phase unused =>
    apply polling.moved
    intro accept later here
    cases here
    exact ⟨true, phase⟩
  | passed wire env fd todo phase =>
    have nothing : s.socketEvents (.serve wire env) = [] := by
      simp [ServerState.socketEvents, ServerState.served, phase]
    rw [nothing]
    exact polling.took custody phase rfl [] (by simpa using polling.covered)
  | hungUp wire env fd todo phase closed =>
    have nothing : s.socketEvents (.serve wire env) = [] := by
      simp [ServerState.socketEvents, ServerState.served, phase]
    rw [nothing]
    cases closed with
    | intro => exact polling.took custody phase rfl [] (by simpa using polling.covered)
  | kept wire wire' env fd todo c conn conn' conns phase found there received written =>
    rw [events wire env phase found there] at covered ⊢
    exact polling.took custody phase rfl _ covered
  | dispatched wire wire' env fd todo c conn conn' conns phase found there received written =>
    rw [events wire env phase found there] at covered ⊢
    exact polling.took custody phase rfl _ covered
  | lost wire env fd todo c conn why phase found there received closed =>
    rw [events wire env phase found there] at covered ⊢
    cases closed with
    | intro => exact polling.took custody phase rfl _ covered
  | noEvent env phase queue => exact polling.moved nofun
  | closeEvent env request later phase queue closed => exact polling.moved nofun
  | refused | unpacked | broadcast | reset | sent | processed | deleted =>
    exact polling.moved fun accept todo here => ⟨accept, here⟩

end Polling

/-- The sockets see steps of the threads. -/
theorem socketStep_eq_some {md5hex : Block → Block} {s : ServerState} {action : ThreadAction}
    {did : List SocketEvent} {rest : Option ServerState}
    (taken : socketStep md5hex s action = some (did, rest)) :
    did = s.socketEvents action ∧ ∃ seen, threadStep md5hex s action = some (seen, rest) := by
  obtain ⟨⟨seen, rest'⟩, step, same⟩ := Option.map_eq_some_iff.mp taken
  cases same
  exact ⟨rfl, seen, step⟩

theorem ran_of_socketStep {md5hex : Block → Block} {cond : ServerState → ThreadAction → Prop} {db : Db}
    {trace : List SocketEvent} {s : ServerState} (ran : Ran (socketStep md5hex) cond (.init db) trace s) :
    ∃ sightings, Ran (threadStep md5hex) cond (.init db) sightings s := by
  induction ran with
  | start => exact ⟨[], .start⟩
  | step _ met taken before =>
    obtain ⟨sightings, before⟩ := before
    obtain ⟨_, seen, step⟩ := socketStep_eq_some taken
    exact ⟨sightings ++ seen, before.step met step⟩

theorem Polling.of_ran {md5hex : Block → Block} {db : Db} {trace : List SocketEvent} {s : ServerState}
    (ran : Ran (socketStep md5hex) HeaderAlone (.init db) trace s) : Polling trace s := by
  induction ran with
  | start => exact ⟨follows_nil, nofun⟩
  | step before met taken polling =>
    obtain ⟨sightings, before⟩ := ran_of_socketStep before
    obtain ⟨rfl, seen, step⟩ := socketStep_eq_some taken
    have covered := (polling.covered_iff (.of_ran before) _).mpr met
    exact polling.step (.of_ran before) covered (threadStep_transition step)

/-- The client's socket is reported once. -/
def reported : List ThreadAction :=
  connected ++ [.eventLoopIteration .calm, .pushBackConn, .poll (some (false, [.readable]))]

end AcosChat

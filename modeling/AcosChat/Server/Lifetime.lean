import AcosChat.Server.Closing

/-!
# The lifetime of connections

An event or a job keeps the address of its connection until its deleter has run, and
`close_connection` does not look at `in_worker`. A connection that the listener only closes
when it is idle is not deleted while anything that is queued or being handled has it, and
any other close of it leaves something that does.
-/
namespace AcosChat

open Std Store Run Bytes

/-- An INPUT_MSG event or a PROCESS_MESSAGE job with this connection is queued or being
handled. -/
def ServerState.Uses (s : ServerState) (c : Nat) : Prop :=
  c ∈ s.held ∨ ∃ frame, s.controller = some (c, frame)

/-- `in_worker` is not set, and no `input_msg_event_deleter` is pending. -/
def ServerState.Idle (s : ServerState) (c : Nat) : Prop :=
  (∀ conn, s.core.conns.read c = some conn → conn.inWorker = false) ∧
    ∀ frame, s.controller ≠ some (c, frame)

/-- The listener closes this connection only when it is idle. -/
def ClosedIdle (c : Nat) (s : ServerState) : ThreadAction → Prop
  | .serve wire _ => (s.closing wire).map PollFd.conn = some c → s.Idle c
  | .eventLoopIteration _ =>
    (s.listenerQueue.head?.bind fun request => s.core.client request.sockid) = some c → s.Idle c
  | _ => True

/-- A connection that is queued or being handled is not deleted. -/
def ServerState.Alive (s : ServerState) (c : Nat) : Prop := s.Uses c → s.core.Live c

theorem Core.Live.modify {core : Core} {c c' : Nat} {f : Connection → Connection}
    {conns : Store Connection} (written : core.conns.modify c f = some conns) (live : core.Live c') :
    ({ core with conns := conns } : Core).Live c' := by
  obtain ⟨old, _, _, reads⟩ := modify_eq_some written
  obtain ⟨conn, there⟩ := live
  by_cases same : c' = c
  · exact ⟨f old, by rw [reads, if_pos same]⟩
  · exact ⟨conn, by rw [reads, if_neg same, there]⟩

namespace ServerState.Alive

variable {md5hex : Block → Block} {s s' : ServerState} {c : Nat}

/-- Nothing is deleted, and nothing new is used but what is alive. -/
theorem moved (alive : s.Alive c) (uses : s'.Uses c → s.Uses c ∨ s.core.Live c)
    (live : s.core.Live c → s'.core.Live c) : s'.Alive c := fun used =>
  live ((uses used).elim alive id)

/-- The connection is alive after a close just when it is another one or was idle. -/
theorem closes_iff (alive : s.Alive c) (custody : Custody s) {sockid : Int32} {requested : Option Nat}
    {seen : List Sighting} (closed : Closes s sockid requested seen s') :
    s'.Alive c ↔ (s.core.client sockid = some c → s.Idle c) := by
  cases closed with
  | intro c' conns events found freed =>
    obtain ⟨conn, there, _, reads⟩ := free_eq_some freed
    have uses : ServerState.Uses { s with
        core := ⟨conns, s.core.clients.erase (wordOfInt sockid), s.core.mgr.delSid sockid, s.core.db⟩
        controllerQueue := s.controllerQueue ++ events.map .broadcast } c ↔ s.Uses c := by
      have nothing : (events.map ControllerEvent.broadcast).filterMap ControllerEvent.holds = [] := by
        rw [List.filterMap_map, List.filterMap_eq_nil_iff]
        exact fun _ _ => rfl
      simp [ServerState.Uses, ServerState.held, nothing]
    by_cases own : c' = c
    · subst own
      have counted := custody.counted c' conn there
      constructor
      · intro kept _
        have unused : ¬s.Uses c' := by
          intro used
          obtain ⟨conn', there'⟩ := kept (uses.mpr used)
          simp only [reads, if_pos] at there'
          cases there'
        refine ⟨?_, fun frame handled => unused (.inr ⟨frame, handled⟩)⟩
        intro conn' there'
        rw [there] at there'
        cases there'
        cases busy : conn.inWorker with
        | false => rfl
        | true =>
          -- While `in_worker` is set, something holds the connection.
          rw [busy, Bool.toNat_true] at counted
          exact absurd (.inl (List.count_pos_iff.mp (by omega))) unused
      · intro idle used
        obtain ⟨free, unhandled⟩ := idle found
        rw [free conn there, Bool.toNat_false, List.count_eq_zero] at counted
        rcases uses.mp used with held | ⟨frame, handled⟩
        · exact absurd held counted
        · exact absurd handled (unhandled frame)
    · constructor
      · intro _ here
        rw [found] at here
        cases here
        exact absurd rfl own
      · intro _ used
        obtain ⟨conn', there'⟩ := alive (uses.mp used)
        exact ⟨conn', by simp only [reads, if_neg (Ne.symm own), there']⟩

/-- The connection stays alive just when the step does not close it while it is in use. -/
theorem step_iff (alive : s.Alive c) (custody : Custody s) {action : ThreadAction} {seen : List Sighting}
    (transition : Transition md5hex s action seen s') : s'.Alive c ↔ ClosedIdle c s action := by
  have kept : s'.Alive c → ClosedIdle c s action → (s'.Alive c ↔ ClosedIdle c s action) :=
    fun alive met => iff_of_true alive met
  cases transition with
  | skipped | pushed | pollFailed | polled => exact kept alive trivial
  | accepted sockid todo phase unused =>
    refine kept (alive.moved .inl ?_) trivial
    rintro ⟨conn, there⟩
    exact ⟨conn, custody.agree.read_acceptConnection there sockid⟩
  | passed wire env fd todo phase =>
    apply kept alive
    simp [ClosedIdle, ServerState.closing, phase]
  | kept wire wire' env fd todo c' conn conn' conns phase found there received written =>
    refine kept (alive.moved .inl fun live => live.modify written) ?_
    simp [ClosedIdle, ServerState.closing, phase, found, there, received]
  | dispatched wire wire' env fd todo c' conn conn' conns phase found there received written =>
    refine kept (alive.moved ?_ fun live => live.modify written) ?_
    -- The new event holds a connection that is alive.
    · rintro (held | handled)
      · simp only [ServerState.held, List.filterMap_append, List.filterMap_cons, ControllerEvent.holds,
          List.filterMap_nil, List.mem_append, List.mem_singleton] at held
        rcases held with ((held | rfl) | held) | held
        · exact .inl (.inl (by simp [ServerState.held, held]))
        · exact .inr ⟨conn, there⟩
        · exact .inl (.inl (by simp [ServerState.held, held]))
        · exact .inl (.inl (by simp [ServerState.held, held]))
      · exact .inl (.inr handled)
    · simp [ClosedIdle, ServerState.closing, phase, found, there, received]
  -- A close is the only step that can end its life.
  | hungUp wire env fd todo phase closed =>
    have rest : ServerState.Alive { s with listener := .serving false todo } c := alive
    rw [rest.closes_iff (custody.rest phase) closed, (custody.served phase).1]
    simp only [ClosedIdle, ServerState.closing, phase, Option.map_some]
    rfl
  | lost wire env fd todo c' conn why phase found there received closed =>
    have rest : ServerState.Alive { s with listener := .serving false todo } c := alive
    rw [rest.closes_iff (custody.rest phase) closed, (custody.served phase).1]
    simp only [ClosedIdle, ServerState.closing, phase, found, Option.bind_some, there, received,
      Option.map_some]
    rfl
  | noEvent env phase queue =>
    apply kept alive
    simp [ClosedIdle, queue]
  | closeEvent env request later phase queue closed =>
    have rest : ServerState.Alive { s with listenerQueue := later } c := alive
    have popped : Custody { s with listenerQueue := later } :=
      custody.moved rfl custody.agree custody.phase (fun _ => rfl) fun _ frame handled => .inr ⟨frame, handled⟩
    have after := rest.closes_iff popped closed
    simp only [ClosedIdle, queue, List.head?_cons, Option.bind_some]
    exact after
  | refused env c' frame conn later conns idle queue there corrupt written =>
    refine kept (alive.moved ?_ fun live => live.modify written) trivial
    rintro (held | ⟨frame', handled⟩)
    · left
      left
      simp only [ServerState.held, queue, List.filterMap_cons, ControllerEvent.holds] at held ⊢
      exact List.mem_cons_of_mem _ held
    · cases handled
      exact .inr ⟨conn, there⟩
  -- From here on the controller and the workers pass the connection on.
  | unpacked env c' frame conn msg later idle queue there unpacked =>
    refine kept (alive.moved ?_ fun live => live) trivial
    rintro (held | ⟨frame', handled⟩)
    · simp only [ServerState.held, List.filterMap_append, List.filterMap_cons, Job.holds,
        List.filterMap_nil, List.mem_append, List.mem_singleton] at held
      rcases held with (held | held | rfl) | held
      · exact .inl (.inl (by simp [ServerState.held, queue, ControllerEvent.holds, held]))
      · exact .inl (.inl (by simp [ServerState.held, held]))
      · exact .inr ⟨conn, there⟩
      · exact .inl (.inl (by simp [ServerState.held, held]))
    · cases handled
      exact .inr ⟨conn, there⟩
  | broadcast env evt later db sids queue =>
    refine kept (alive.moved ?_ fun live => live) trivial
    rintro (held | handled)
    · left
      left
      simpa [ServerState.held, queue, List.filterMap_cons, ControllerEvent.holds, holds_sendMessage] using held
    · exact .inl (.inr handled)
  | reset c' conn frame conns handled there written =>
    refine kept (alive.moved ?_ fun live => live.modify written) trivial
    rintro (held | ⟨frame', handled'⟩)
    · exact .inl (.inl held)
    · cases handled'
  | sent env sid evt later queue =>
    refine kept (alive.moved ?_ fun live => live) trivial
    rintro (held | handled)
    · left
      left
      simpa [ServerState.held, queue, List.filterMap_cons, Job.holds] using held
    · exact .inl (.inr handled)
  | processed env c' conn msg later effects mgr db queue there handled outcome =>
    refine kept (alive.moved ?_ fun live => live) trivial
    rintro (held | handled')
    · rw [ServerState.held_emit] at held
      simp only [ServerState.held, List.mem_append, List.mem_singleton] at held
      rcases held with (held | held) | held | rfl
      · exact .inl (.inl (by simp [ServerState.held, held]))
      · exact .inl (.inl (by simp [ServerState.held, queue, Job.holds, held]))
      · exact .inl (.inl (by simp [ServerState.held, held]))
      · exact .inr ⟨conn, there⟩
    · exact .inl (.inr handled')
  | deleted i c' conns handled written =>
    refine kept (alive.moved ?_ fun live => live.modify written) trivial
    rintro (held | handled')
    · simp only [ServerState.held, List.mem_append] at held
      rcases held with held | held
      · exact .inl (.inl (List.mem_append_left _ (List.mem_append.mpr held)))
      · exact .inl (.inl (List.mem_append_right _ (List.mem_of_mem_eraseIdx held)))
    · exact .inl (.inr handled')

/-- No step uses the connection after it is deleted. -/
theorem no_dangling (alive : s.Alive c) (custody : Custody s) {action : ThreadAction}
    {seen : List Sighting} {rest : Option ServerState}
    (taken : threadStep md5hex s action = some (seen, rest)) : .dangling c ∉ seen := by
  intro member
  cases threadStep_shows taken _ member with
  | dangling c gone used =>
    obtain ⟨conn, there⟩ : s.core.Live c := by
      rcases used with ⟨todo, polled, phase⟩ | ⟨sockid, found⟩ | used
      · have sound := custody.phase
        rw [phase] at sound
        exact sound.2.1 c (by simp)
      · obtain ⟨conn, there, _⟩ := custody.agree.client_eq_some found
        exact ⟨conn, there⟩
      · exact alive used
    rw [gone] at there
    cases there

theorem of_ran {db : Db} {trace : List Sighting}
    (ran : Ran (threadStep md5hex) (ClosedIdle c) (.init db) trace s) : s.Alive c := by
  induction ran with
  | start => rintro (held | ⟨frame, handled⟩) <;> contradiction
  | step before met taken alive =>
    exact (alive.step_iff (.of_ran before) (threadStep_transition taken)).mpr met

end ServerState.Alive

/-- In a run that closes a connection only when it is idle, the connection is not deleted
while anything queued or being handled has it, and no step uses it deleted. It stays so
after one more step just when that step does not close it while it is in use. -/
theorem closed_idle_iff_alive (md5hex : Block → Block) (db : Db) (c : Nat) {trace : List Sighting}
    {s : ServerState} (ran : Ran (threadStep md5hex) (ClosedIdle c) (.init db) trace s) :
    (s.Uses c → s.core.Live c) ∧
    (∀ action seen rest, threadStep md5hex s action = some (seen, rest) → .dangling c ∉ seen) ∧
    (∀ action seen s', threadStep md5hex s action = some (seen, some s') →
      ((s'.Uses c → s'.core.Live c) ↔ ClosedIdle c s action)) := by
  have custody := Custody.of_ran ran
  have alive := ServerState.Alive.of_ran ran
  exact ⟨alive, fun _ _ _ taken => alive.no_dangling custody taken,
    fun _ _ _ taken => alive.step_iff custody (threadStep_transition taken)⟩

/-! ### Two runs -/

/-- The listener closes a connection on a LOGOUT whose job has not been deleted. -/
def logoutBeforeDeleter : List ThreadAction :=
  hangUp.dropLast ++
    [.poll (some (false, [.readable])), .serve (wireOf (Frame.bytes ⟨messageClientLogout, []⟩)) .calm,
      .eventLoopIteration .calm, .handleEvent .calm, .inputMsgEventDeleter, .handleJob .calm,
      .pushBackConn, .poll (some (false, [])), .eventLoopIteration .calm]

/-- Up to the close the connection is alive while its frame is on the way and its job is handled. -/
theorem closed_idle_iff_alive_logout : ∃ trace s,
    replay (threadStep fun _ => emptyDigest) (.init (preparedDb emptyDigest)) logoutBeforeDeleter.dropLast =
      some (trace, s) ∧
    s.held = [0] ∧ s.core.Live 0 ∧
    ∃ seen s', threadStep (fun _ => emptyDigest) s (.eventLoopIteration .calm) = some (seen, some s') ∧
      ((s'.Uses 0 → s'.core.Live 0) ↔ ClosedIdle 0 s (.eventLoopIteration .calm)) := by
  have ran : ∃ trace s, replay (threadStep fun _ => emptyDigest) (.init (preparedDb emptyDigest))
      logoutBeforeDeleter.dropLast = some (trace, s) ∧ s.held = [0] ∧ ∃ seen s',
        threadStep (fun _ => emptyDigest) s (.eventLoopIteration .calm) = some (seen, some s') :=
    ⟨_, _, rfl, by rfl, _, _, rfl⟩
  obtain ⟨trace, s, replayed, held, seen, s', taken⟩ := ran
  have meets : Meets (threadStep fun _ => emptyDigest) (ClosedIdle 0) (.init (preparedDb emptyDigest))
      logoutBeforeDeleter.dropLast := by
    refine ⟨trivial, trivial, nofun, trivial, trivial, nofun, nofun, trivial, trivial, trivial, trivial, trivial,
      trivial⟩
  obtain ⟨alive, _, closes⟩ := closed_idle_iff_alive _ _ 0 (ran_of_replay meets replayed)
  have used : s.Uses 0 := .inl (by rw [held]; exact List.mem_singleton.mpr rfl)
  exact ⟨trace, s, replayed, held, alive used, seen, s', taken, closes _ _ _ taken⟩

/-- `process_message_job_deleter` writes to the deleted connection. -/
theorem deleter_uses_deleted : ¬∀ (md5hex : Block → Block) (db : Db) (trace : List Sighting)
    (s : ServerState), Ran (threadStep md5hex) (fun _ _ => True) (.init db) trace s →
    (∀ c, s.Uses c → s.core.Live c) ∧
    ∀ action seen rest, threadStep md5hex s action = some (seen, rest) → ∀ c, .dangling c ∉ seen := by
  intro claim
  have ran : ∃ trace s, replay (threadStep fun _ => emptyDigest) (.init (preparedDb emptyDigest))
      logoutBeforeDeleter = some (trace, s) ∧ ∃ rest, threadStep (fun _ => emptyDigest) s
        (.processMessageJobDeleter 0) = some ([.dangling 0], rest) := ⟨_, _, rfl, _, rfl⟩
  obtain ⟨trace, s, replayed, rest, taken⟩ := ran
  obtain ⟨_, never⟩ := claim _ _ _ _ (ran_of_replay (meets_of_forall (fun _ _ => trivial) _ _) replayed)
  exact never _ _ _ taken 0 (by simp)

end AcosChat

import AcosChat.Server.Closing

/-!
# The hand-over of a complete frame

From the dispatch of a frame until `input_msg_event_deleter` has reset its connection the
listener is kept out by `in_worker` alone. The flag is cleared too early for a frame that
`unpack_message_2` refuses, and by a worker that is done before the controller's deleter.
While neither happens to a connection its hand-over is exclusive.
-/
namespace AcosChat

open Std Store Run Bytes

/-- A frame of this connection has been dispatched, and the reset is still to come. -/
def ServerState.HandedOver (s : ServerState) (c : Nat) : Prop :=
  (∃ frame, .inputMsg c frame ∈ s.controllerQueue) ∨ ∃ frame, s.controller = some (c, frame)

/-- `in_worker` keeps the listener from the connection while it is handed over. -/
def ServerState.Guarded (s : ServerState) (c : Nat) : Prop :=
  ∀ conn, s.HandedOver c → s.core.conns.read c = some conn → conn.inWorker = true

/-- No frame of this connection is refused, and none of its jobs is deleted before the event
that it came from. -/
def ResetFirst (c : Nat) (s : ServerState) : ThreadAction → Prop
  | .handleEvent _ => ∀ frame conn, s.controllerQueue.head? = some (.inputMsg c frame) →
      s.core.conns.read c = some conn →
      unpackMessage2 (conn.header.getD []) (conn.body.getD []) ≠ .done none
  | .processMessageJobDeleter i => s.workers[i]? = some c → ∀ frame, s.controller ≠ some (c, frame)
  | _ => True

/-- While it is handed over, a connection is as it was when its frame was complete, and it
has no complete frame otherwise. -/
structure Handover (s : ServerState) (c : Nat) : Prop where
  queued : ∀ frame conn, .inputMsg c frame ∈ s.controllerQueue → s.core.conns.read c = some conn →
    conn = frame
  handled : ∀ frame conn, s.controller = some (c, frame) → s.core.conns.read c = some conn →
    conn = frame ∧ conn.inWorker = true ∧ ∀ frame', .inputMsg c frame' ∉ s.controllerQueue
  complete : ∀ conn, s.core.conns.read c = some conn → conn.bytesRead = conn.bytesExpected →
    s.HandedOver c
  header : ∀ conn, s.core.conns.read c = some conn → (msgHeaderSize : Int) ≤ conn.bytesExpected

theorem inputMsg_mem_emit {s : ServerState} {effects : List Effect} (c : Nat) (frame : Connection) :
    .inputMsg c frame ∈ (s.emit effects).controllerQueue ↔ .inputMsg c frame ∈ s.controllerQueue := by
  rw [ServerState.emit, List.mem_append, List.mem_filterMap, or_iff_left]
  rintro ⟨effect, _, sent⟩
  cases effect <;> cases sent

theorem Custody.busy_of_queued {s : ServerState} (custody : Custody s) {c : Nat} {frame conn : Connection}
    (queued : .inputMsg c frame ∈ s.controllerQueue) (there : s.core.conns.read c = some conn) :
    conn.inWorker = true := by
  have counted := custody.counted c conn there
  have member : c ∈ s.controllerQueue.filterMap ControllerEvent.holds :=
    List.mem_filterMap.mpr ⟨_, queued, rfl⟩
  have positive := List.count_pos_iff.mpr member
  rw [ServerState.count_held] at counted
  cases busy : conn.inWorker with
  | true => rfl
  | false =>
    rw [busy, Bool.toNat_false] at counted
    omega

theorem Custody.not_queued_of_worker {s : ServerState} (custody : Custody s) {i c : Nat}
    {frame conn : Connection} (handled : s.workers[i]? = some c)
    (there : s.core.conns.read c = some conn) : .inputMsg c frame ∉ s.controllerQueue := by
  intro queued
  have counted := custody.counted c conn there
  have bound := conn.inWorker.toNat_le
  have member : c ∈ s.controllerQueue.filterMap ControllerEvent.holds :=
    List.mem_filterMap.mpr ⟨_, queued, rfl⟩
  have queue := List.count_pos_iff.mpr member
  have worker := List.count_pos_iff.mpr (List.mem_of_getElem? handled)
  rw [ServerState.count_held] at counted
  omega

namespace Handover

variable {md5hex : Block → Block} {s s' : ServerState} {c : Nat}

theorem guarded (handover : Handover s c) (custody : Custody s) : s.Guarded c := by
  rintro conn (⟨frame, queued⟩ | ⟨frame, handled⟩) there
  · exact custody.busy_of_queued queued there
  · exact (handover.handled frame conn handled there).2.1

/-- Whatever the listener polls or reads is free, so it is not handed over. -/
theorem not_handedOver (handover : Handover s c) (custody : Custody s) {conn : Connection}
    (there : s.core.conns.read c = some conn) (idle : conn.inWorker = false) : ¬s.HandedOver c := by
  intro handed
  rw [handover.guarded custody conn handed there] at idle
  cases idle

/-- The listener serves a connection that is not handed over. -/
theorem served_free (handover : Handover s c) (custody : Custody s) {accept : Bool} {fd : PollFd}
    {revents : Revents} {todo : List (PollFd × Revents)}
    (phase : s.listener = .serving accept ((fd, revents) :: todo))
    (found : s.core.client fd.fd = some c) : ¬s.HandedOver c := by
  obtain ⟨here, conn, there, _, idle⟩ := custody.served phase
  rw [here] at found
  cases found
  exact handover.not_handedOver custody there idle

/-- The connection stays as it is, or is deleted, and its events stay. -/
theorem moved (handover : Handover s c)
    (conns : ∀ conn, s'.core.conns.read c = some conn → s.core.conns.read c = some conn)
    (queue : ∀ frame, .inputMsg c frame ∈ s'.controllerQueue ↔ .inputMsg c frame ∈ s.controllerQueue)
    (controller : ∀ frame, s'.controller = some (c, frame) ↔ s.controller = some (c, frame)) :
    Handover s' c := by
  constructor
  · intro frame conn queued there
    exact handover.queued frame conn ((queue frame).mp queued) (conns conn there)
  · intro frame conn handled there
    obtain ⟨same, busy, alone⟩ :=
      handover.handled frame conn ((controller frame).mp handled) (conns conn there)
    exact ⟨same, busy, fun frame' queued => alone frame' ((queue frame').mp queued)⟩
  · intro conn there complete
    rcases handover.complete conn (conns conn there) complete with ⟨frame, queued⟩ | ⟨frame, handled⟩
    · exact .inl ⟨frame, (queue frame).mpr queued⟩
    · exact .inr ⟨frame, (controller frame).mpr handled⟩
  · exact fun conn there => handover.header conn (conns conn there)

/-- The connection is changed, while `input_msg_event_handler` has not got it. -/
theorem renewed {conn : Connection} (own : s'.core.conns.read c = some conn)
    (queued : ∀ frame, .inputMsg c frame ∈ s'.controllerQueue → conn = frame)
    (unhandled : ∀ frame, s'.controller ≠ some (c, frame))
    (complete : conn.bytesRead = conn.bytesExpected → s'.HandedOver c)
    (header : (msgHeaderSize : Int) ≤ conn.bytesExpected) : Handover s' c := by
  have only : ∀ conn', s'.core.conns.read c = some conn' → conn = conn' := fun conn' there =>
    Option.some.inj (own.symm.trans there)
  constructor
  · exact fun frame conn' inside there => only conn' there ▸ queued frame inside
  · exact fun frame _ handled => absurd handled (unhandled frame)
  · intro conn' there all
    rw [← only conn' there] at all
    exact complete all
  · exact fun conn' there => only conn' there ▸ header

/-- Another connection is changed. -/
theorem apart (handover : Handover s c) {c' : Nat} {f : Connection → Connection}
    {conns : Store Connection} (other : c ≠ c') (written : s.core.conns.modify c' f = some conns)
    (core : s'.core.conns = conns)
    (queue : ∀ frame, .inputMsg c frame ∈ s'.controllerQueue ↔ .inputMsg c frame ∈ s.controllerQueue)
    (controller : ∀ frame, s'.controller = some (c, frame) ↔ s.controller = some (c, frame)) :
    Handover s' c := by
  obtain ⟨_, _, _, reads⟩ := modify_eq_some written
  refine handover.moved ?_ queue controller
  intro conn there
  rwa [core, reads, if_neg other] at there

theorem acceptConnection (handover : Handover s c) (custody : Custody s) {sockid : Int32}
    {todo : List (PollFd × Revents)} :
    Handover { s with core := s.core.acceptConnection sockid, listener := .serving false todo } c := by
  by_cases positive : sockid > 0
  · have reads : (s.core.acceptConnection sockid).conns.read c =
        if c = s.core.conns.next then some (newConnection sockid) else s.core.conns.read c := by
      rw [Core.acceptConnection, if_pos positive]
      exact read_alloc _ _ c
    by_cases fresh : c = s.core.conns.next
    · -- The address is new, so nothing has it.
      have unused : ¬s.HandedOver c := by
        rintro (⟨frame, queued⟩ | ⟨frame, handled⟩)
        · refine absurd (custody.known c (.inl ?_)) (fresh ▸ Nat.lt_irrefl _)
          simp only [ServerState.held, List.mem_append, List.mem_filterMap]
          exact .inl (.inl ⟨_, queued, rfl⟩)
        · exact absurd (custody.known c (.inr ⟨frame, handled⟩)) (fresh ▸ Nat.lt_irrefl _)
      rw [if_pos fresh] at reads
      refine renewed reads ?_ ?_ ?_ (Int.le_refl _)
      · exact fun frame queued => absurd (.inl ⟨frame, queued⟩) unused
      · exact fun frame handled => unused (.inr ⟨frame, handled⟩)
      · intro wrong
        simp [newConnection, msgHeaderSize] at wrong
    · rw [if_neg fresh] at reads
      exact handover.moved (fun _ there => reads ▸ there) (fun _ => .rfl) (fun _ => .rfl)
  · -- `accept` has failed, and no connection is made
    have failed : s.core.acceptConnection sockid = s.core := by
      rw [Core.acceptConnection, if_neg positive]
    rw [failed]
    exact handover.moved (fun _ there => there) (fun _ => .rfl) (fun _ => .rfl)

/-- A deleted connection is no more than that. -/
theorem closes (handover : Handover s c) {sockid : Int32} {requested : Option Nat}
    {seen : List Sighting} (closed : Closes s sockid requested seen s') : Handover s' c := by
  cases closed with
  | intro c' conns events found freed =>
    obtain ⟨_, _, _, reads⟩ := free_eq_some freed
    refine handover.moved ?_ ?_ (fun _ => .rfl)
    · intro conn there
      simp only [reads] at there
      split at there
      next => cases there
      next => exact there
    · simp

/-- `input_msg_event_handler` takes the event, and sends a job for it. -/
theorem unpacked (handover : Handover s c) (custody : Custody s) {frame : Connection}
    {msg : Message} {later : List ControllerEvent}
    (queue : s.controllerQueue = .inputMsg c frame :: later) :
    Handover { s with
      controllerQueue := later
      workersQueue := s.workersQueue ++ [.processMessage c msg]
      controller := some (c, frame) } c := by
  have inside : ∀ event ∈ later, event ∈ s.controllerQueue := fun event member =>
    queue ▸ List.mem_cons_of_mem _ member
  have head : .inputMsg c frame ∈ s.controllerQueue := by simp [queue]
  constructor
  · exact fun frame' conn queued there => handover.queued frame' conn (inside _ queued) there
  · intro frame' conn handled there
    cases handled
    refine ⟨handover.queued frame conn head there, custody.busy_of_queued head there, ?_⟩
    intro frame' queued
    -- Two events for one connection would count twice.
    have counted := custody.counted c conn there
    have bound := conn.inWorker.toNat_le
    have member : c ∈ later.filterMap ControllerEvent.holds := List.mem_filterMap.mpr ⟨_, queued, rfl⟩
    have positive := List.count_pos_iff.mpr member
    simp only [ServerState.count_held, queue, List.filterMap_cons, ControllerEvent.holds,
      List.count_cons_self] at counted
    omega
  · exact fun _ _ _ => .inr ⟨frame, rfl⟩
  · exact handover.header

/-- `input_msg_event_handler` takes an event of another connection. -/
theorem taken (handover : Handover s c) {c' : Nat} {frame : Connection}
    {later : List ControllerEvent} (other : c ≠ c') (idle : s.controller = none)
    (queue : s.controllerQueue = .inputMsg c' frame :: later)
    (conns : ∀ conn, s'.core.conns.read c = some conn → s.core.conns.read c = some conn)
    (rest : s'.controllerQueue = later) (controller : s'.controller = some (c', frame)) :
    Handover s' c := by
  refine handover.moved conns ?_ ?_
  · simp [rest, queue, other]
  · simp [controller, idle, Ne.symm other]

/-- Every step that resets this connection first keeps it. -/
theorem step (handover : Handover s c) (custody : Custody s) {action : ThreadAction}
    {seen : List Sighting} (met : ResetFirst c s action)
    (transition : Transition md5hex s action seen s') : Handover s' c := by
  cases transition with
  | skipped | pushed | pollFailed | polled | passed | noEvent | sent =>
    exact handover.moved (fun _ there => there) (fun _ => .rfl) (fun _ => .rfl)
  | accepted sockid todo phase unused => exact handover.acceptConnection custody
  -- A close takes the entry off the list first.
  | hungUp wire env fd todo phase closed =>
    have before : Handover { s with listener := .serving false todo } c :=
      handover.moved (fun _ there => there) (fun _ => .rfl) (fun _ => .rfl)
    exact before.closes closed
  | lost wire env fd todo c' conn why phase found there received closed =>
    have before : Handover { s with listener := .serving false todo } c :=
      handover.moved (fun _ there => there) (fun _ => .rfl) (fun _ => .rfl)
    exact before.closes closed
  | closeEvent env request later phase queue closed =>
    have before : Handover { s with listenerQueue := later } c :=
      handover.moved (fun _ there => there) (fun _ => .rfl) (fun _ => .rfl)
    exact (before.closes closed).moved (fun _ there => there) (fun _ => .rfl) (fun _ => .rfl)
  | kept wire wire' env fd todo c' conn conn' conns phase found there received written =>
    by_cases own : c = c'
    · subst own
      obtain ⟨_, _, _, reads⟩ := modify_eq_some written
      have free := handover.served_free custody phase found
      -- The frame is not complete, so nothing is handed over.
      obtain ⟨continues, missing⟩ := processConnection_kept received
      have header := handover.header conn there
      refine renewed (by rw [reads, if_pos rfl]) ?_ ?_ ?_ (header.trans continues.expected)
      · exact fun frame queued => absurd (.inl ⟨frame, queued⟩) free
      · exact fun frame handled => free (.inr ⟨frame, handled⟩)
      · exact fun all => absurd all (missing header)
    · exact handover.apart own written rfl (fun _ => .rfl) (fun _ => .rfl)
  | dispatched wire wire' env fd todo c' conn conn' conns phase found there received written =>
    by_cases own : c = c'
    · subst own
      obtain ⟨_, _, _, reads⟩ := modify_eq_some written
      have free := handover.served_free custody phase found
      -- The event has the frame as it was received.
      obtain ⟨_, _, expected⟩ := processConnection_dispatched received
      have header := handover.header conn there
      refine renewed (by rw [reads, if_pos rfl]) ?_ ?_ ?_ (header.trans expected)
      · intro frame queued
        rcases List.mem_append.mp queued with before | new
        · exact absurd (.inl ⟨frame, before⟩) free
        · cases List.mem_singleton.mp new
          rfl
      · exact fun frame handled => free (.inr ⟨frame, handled⟩)
      · exact fun _ => .inl ⟨conn', by simp⟩
    · exact handover.apart own written rfl (by simp [own]) (fun _ => .rfl)
  | refused env c' frame conn later conns idle queue there corrupt written =>
    by_cases own : c = c'
    · subst own
      exact absurd corrupt (met frame conn (by rw [queue]; rfl) there)
    · obtain ⟨_, _, _, reads⟩ := modify_eq_some written
      refine handover.taken own idle queue ?_ rfl rfl
      exact fun conn there => by rwa [reads, if_neg own] at there
  | unpacked env c' frame conn msg later idle queue there unpacked =>
    by_cases own : c = c'
    · subst own
      exact handover.unpacked custody queue
    · exact handover.taken own idle queue (fun _ there => there) rfl rfl
  | broadcast env evt later db sids queue =>
    refine handover.moved (fun _ there => there) ?_ (fun _ => .rfl)
    simp [queue]
  | reset c' conn frame conns handled there written =>
    by_cases own : c = c'
    · subst own
      obtain ⟨old, there', _, reads⟩ := modify_eq_some written
      -- The controller resets the frame that it has unpacked.
      obtain ⟨_, _, alone⟩ := handover.handled frame conn handled there
      refine renewed (by rw [reads, if_pos rfl]) ?_ nofun ?_ (Int.le_refl _)
      · exact fun frame' queued => absurd queued (alone frame')
      · intro all
        simp [resetConnection, msgHeaderSize] at all
    · exact handover.apart own written rfl (fun _ => .rfl) (by simp [handled, Ne.symm own])
  | processed env c' conn msg later effects mgr db queue there handled outcome =>
    have before : Handover { s with
        core := { s.core with mgr := mgr, db := db }
        workersQueue := later
        workers := s.workers ++ [c'] } c :=
      handover.moved (fun _ there => there) (fun _ => .rfl) (fun _ => .rfl)
    exact before.moved (fun _ there => there) (inputMsg_mem_emit c) (fun _ => .rfl)
  | deleted i c' conns handled written =>
    by_cases own : c = c'
    · subst own
      obtain ⟨old, there, _, reads⟩ := modify_eq_some written
      -- The connection comes back to the listener reset, by the condition.
      have free : ¬s.HandedOver c := by
        rintro (⟨frame, queued⟩ | ⟨frame, pending⟩)
        · exact custody.not_queued_of_worker handled there queued
        · exact met handled frame pending
      refine renewed (by rw [reads, if_pos rfl]) ?_ ?_ ?_ ?_
      · exact fun frame queued => absurd (.inl ⟨frame, queued⟩) free
      · exact fun frame pending => free (.inr ⟨frame, pending⟩)
      · exact fun all => absurd (handover.complete old there all) free
      · exact handover.header old there
    · exact handover.apart own written rfl (fun _ => .rfl) (fun _ => .rfl)

theorem init (db : Db) (c : Nat) : Handover (.init db) c := by
  constructor
  · exact fun frame conn queued => absurd queued List.not_mem_nil
  · exact fun frame conn handled => nomatch handled
  · exact fun conn there => nomatch there
  · exact fun conn there => nomatch there

theorem of_ran {db : Db} {trace : List Sighting}
    (ran : Ran (threadStep md5hex) (ResetFirst c) (.init db) trace s) : Handover s c := by
  induction ran with
  | start => exact init db c
  | step before met taken handover =>
    exact handover.step (.of_ran before) met (threadStep_transition taken)

/-- A step that does not reset first leaves a connection that is handed over to the listener. -/
theorem guarded_iff (handover : Handover s c) (custody : Custody s) {action : ThreadAction}
    {seen : List Sighting} (transition : Transition md5hex s action seen s') :
    s'.Guarded c ↔ ResetFirst c s action := by
  constructor
  · intro guarded
    cases transition with
    | refused env c' frame conn later conns idle queue there corrupt written =>
      obtain ⟨_, _, _, reads⟩ := modify_eq_some written
      -- the flag that was cleared is that of a connection whose event the controller still has
      intro frame' conn' head
      rw [queue] at head
      cases head
      have busy := guarded _ (.inr ⟨frame, rfl⟩) (by rw [reads, if_pos rfl])
      cases busy
    | deleted i c' conns handled written =>
      obtain ⟨_, _, _, reads⟩ := modify_eq_some written
      intro same frame pending
      rw [handled] at same
      cases same
      have busy := guarded _ (.inr ⟨frame, pending⟩) (by rw [reads, if_pos rfl])
      cases busy
    | unpacked env c' frame conn msg later idle queue there unpacked =>
      intro frame' conn' head there' corrupt
      rw [queue] at head
      cases head
      rw [there] at there'
      cases there'
      rw [unpacked] at corrupt
      cases corrupt
    | broadcast env evt later db sids queue =>
      intro frame conn head
      rw [queue] at head
      cases head
    | skipped | pushed | pollFailed | polled | accepted | passed | hungUp | kept | dispatched | lost |
      noEvent | closeEvent | reset | sent | processed => trivial
  · exact fun met => (handover.step custody met transition).guarded (custody.step transition)

end Handover

/-- In a run that resets a connection first, the listener neither polls nor reads it while it
is handed over, it does not read it with a complete frame, and a reset discards the frame
that was dispatched and nothing else. The flag keeps the listener out after one more step
just when that step resets first. -/
theorem handover_exclusive (md5hex : Block → Block) (db : Db) (c : Nat) {trace : List Sighting}
    {s : ServerState} (ran : Ran (threadStep md5hex) (ResetFirst c) (.init db) trace s) :
    (∀ action seen rest, threadStep md5hex s action = some (seen, rest) →
      (.polled c ∈ seen → ¬s.HandedOver c) ∧
      (∀ conn, .received c conn ∈ seen → ¬s.HandedOver c ∧ conn.bytesRead ≠ conn.bytesExpected) ∧
      ∀ conn frame, .reset c conn frame ∈ seen → conn = frame) ∧
    (∀ action seen s', threadStep md5hex s action = some (seen, some s') →
      (s'.Guarded c ↔ ResetFirst c s action)) := by
  have custody := Custody.of_ran ran
  have handover := Handover.of_ran ran
  refine ⟨fun action seen rest taken => ⟨?_, ?_, ?_⟩,
    fun _ _ _ taken => handover.guarded_iff custody (threadStep_transition taken)⟩
  · intro member
    cases threadStep_shows taken _ member with
    | polled c conn there idle => exact handover.not_handedOver custody there idle
  · intro conn member
    cases threadStep_shows taken _ member with
    | received c conn fd revents todo phase found there =>
      have free := handover.served_free custody phase found
      exact ⟨free, fun all => free (handover.complete conn there all)⟩
  · intro conn frame member
    cases threadStep_shows taken _ member with
    | reset c conn frame handled there => exact (handover.handled frame conn handled there).1

/-! ### Two runs -/

/-- A client sends a REGULAR message, and the controller has handled its event. -/
def regularFrame : List ThreadAction :=
  hangUp.dropLast ++
    [.poll (some (false, [.readable])), .serve (wireOf (Frame.bytes ⟨messageClientRegular, []⟩)) .calm,
      .eventLoopIteration .calm, .handleEvent .calm]

theorem handover_exclusive_regular : ∃ trace s,
    replay (threadStep fun _ => emptyDigest) (.init (preparedDb emptyDigest)) regularFrame = some (trace, s) ∧
    ∃ seen rest, threadStep (fun _ => emptyDigest) s .inputMsgEventDeleter = some (seen, rest) ∧
      ∀ conn frame, .reset 0 conn frame ∈ seen → conn = frame := by
  have ran : ∃ trace s, replay (threadStep fun _ => emptyDigest) (.init (preparedDb emptyDigest))
      regularFrame = some (trace, s) ∧ ∃ seen rest, threadStep (fun _ => emptyDigest) s
        .inputMsgEventDeleter = some (seen, rest) := ⟨_, _, rfl, _, _, rfl⟩
  obtain ⟨trace, s, replayed, seen, rest, taken⟩ := ran
  have meets : Meets (threadStep fun _ => emptyDigest) (ResetFirst 0) (.init (preparedDb emptyDigest))
      regularFrame := by
    refine ⟨trivial, trivial, trivial, trivial, trivial, trivial, trivial, ?_, trivial⟩
    intro frame conn head there
    cases head
    cases there
    exact nofun
  exact ⟨trace, s, replayed, seen, rest, taken,
    ((handover_exclusive _ _ 0 (ran_of_replay meets replayed)).1 _ _ _ taken).2.2⟩

/-- A worker is done with the message before the controller's deleter runs, and the
listener comes by. -/
def fastWorker : List ThreadAction :=
  regularFrame ++ [.handleJob .calm, .processMessageJobDeleter 0]

/-- The listener polls the connection, which stays open, before it is reset. -/
theorem listener_polls_handedOver : ¬∀ (md5hex : Block → Block) (db : Db) (trace : List Sighting)
    (s : ServerState), Ran (threadStep md5hex) (fun _ _ => True) (.init db) trace s →
    ∀ action seen rest, threadStep md5hex s action = some (seen, rest) →
    ∀ c, s.core.Live c → .polled c ∈ seen → ¬s.HandedOver c := by
  intro claim
  have ran : ∃ trace s, replay (threadStep fun _ => emptyDigest) (.init (preparedDb emptyDigest))
      fastWorker = some (trace, s) ∧ (∃ frame, s.controller = some (0, frame)) ∧ s.core.Live 0 ∧
        ∃ rest, threadStep (fun _ => emptyDigest) s .pushBackConn = some ([.polled 0], rest) :=
    ⟨_, _, rfl, ⟨_, rfl⟩, ⟨_, rfl⟩, _, rfl⟩
  obtain ⟨trace, s, replayed, handled, live, rest, taken⟩ := ran
  exact claim _ _ _ _ (ran_of_replay (meets_of_forall (fun _ _ => trivial) _ _) replayed) _ _ _ taken 0
    live (by simp) (.inr handled)

end AcosChat

import AcosChat.Server.Transitions

/-!
# Who holds a connection

A connection is held by each INPUT_MSG event in the controller's queue, each
PROCESS_MESSAGE job in the workers' queue and each job that a worker has handled and not
yet deleted. Of a connection that has not been deleted there is one such holder while
`in_worker` is set, and none otherwise, and the listener only polls those that are free.
-/
namespace AcosChat

open Std Store Run Bytes

theorem ServerState.count_held (s : ServerState) (c : Nat) : s.held.count c =
    (s.controllerQueue.filterMap ControllerEvent.holds).count c +
      (s.workersQueue.filterMap Job.holds).count c + s.workers.count c := by
  rw [held, List.count_append, List.count_append]

/-- What a handler sends holds no connection. -/
theorem ServerState.held_emit (s : ServerState) (effects : List Effect) :
    (s.emit effects).held = s.held := by
  have nothing : (effects.filterMap Effect.event).filterMap ControllerEvent.holds = [] := by
    rw [List.filterMap_filterMap, List.filterMap_eq_nil_iff]
    intro effect _
    cases effect <;> rfl
  simp [held, emit, nothing]

/-- A job that sends a message holds no connection. -/
theorem holds_sendMessage (sids : List Int32) (evt : Broadcast) :
    (sids.filterMap fun sid => (Job.sendMessage sid evt).holds) = [] := by
  rw [List.filterMap_eq_nil_iff]
  exact fun _ _ => rfl

def Core.Live (core : Core) (c : Nat) : Prop := ∃ conn, core.conns.read c = some conn

/-- A `pollfd` is that of a connection that nobody holds. -/
def Core.Polled (core : Core) (fd : PollFd) : Prop :=
  ∃ conn, core.conns.read fd.conn = some conn ∧ conn.sockid = fd.fd ∧ conn.inWorker = false

/-- What the listener knows of the connections in its turn. -/
def ListenerPhase.Sound (core : Core) : ListenerPhase → Prop
  | .collecting todo polled => (todo ++ polled.map PollFd.conn).Nodup ∧
      (∀ c ∈ todo, core.Live c) ∧ ∀ fd ∈ polled, core.Polled fd
  | .serving _ todo => (todo.map fun entry => entry.1.conn).Nodup ∧ ∀ entry ∈ todo, core.Polled entry.1
  | .stopped => True

structure Custody (s : ServerState) : Prop where
  agree : CoreInv s.core
  phase : s.listener.Sound s.core
  counted : ∀ c conn, s.core.conns.read c = some conn → s.held.count c = conn.inWorker.toNat
  /-- No address is held before it has been given out. -/
  known : ∀ c, c ∈ s.held ∨ (∃ frame, s.controller = some (c, frame)) → c < s.core.conns.next

/-! ### The listener's turn -/

namespace ListenerPhase

theorem sound_turn {core : Core} (agree : CoreInv core) : (ListenerPhase.turn core).Sound core := by
  -- Every entry of `clients` is a live connection under its own socket.
  have entry : ∀ key ptr, (key, ptr) ∈ core.clients.toList → ∃ c conn, ptr = some c ∧
      core.conns.read c = some conn ∧ key = wordOfInt conn.sockid := fun key ptr member =>
    agree.owners key ptr (ExtTreeMap.mem_toList_iff_getElem?_eq_some.mp member)
  refine ⟨?_, ?_, by simp⟩
  · rw [List.map_nil, List.append_nil, List.Nodup, List.pairwise_filterMap]
    have keys : core.clients.toList.Pairwise fun a b => ¬compare a.1 b.1 = .eq :=
      ExtTreeMap.distinct_keys_toList
    apply keys.imp_of_mem
    rintro ⟨key, ptr⟩ ⟨key', ptr'⟩ member member' apart c first c' second rfl
    obtain ⟨_, conn, rfl, there, rfl⟩ := entry key ptr member
    obtain ⟨_, conn', rfl, there', rfl⟩ := entry key' ptr' member'
    cases first
    cases second
    rw [there] at there'
    cases there'
    simp at apart
  · intro c member
    obtain ⟨⟨key, ptr⟩, inside, same⟩ := List.mem_filterMap.mp member
    obtain ⟨c', conn, rfl, there, _⟩ := entry key ptr inside
    cases same
    exact ⟨conn, there⟩

/-- What the other threads do to the connections does not matter to the listener. -/
theorem Sound.mono {core core' : Core} {phase : ListenerPhase} (sound : phase.Sound core)
    (live : ∀ c, core.Live c → core'.Live c) (polled : ∀ fd, core.Polled fd → core'.Polled fd) :
    phase.Sound core' := by
  cases phase with
  | collecting todo fds =>
    exact ⟨sound.1, fun c member => live c (sound.2.1 c member), fun fd member => polled fd (sound.2.2 fd member)⟩
  | serving accept todo => exact ⟨sound.1, fun entry member => polled _ (sound.2 entry member)⟩
  | stopped => trivial

/-- The rest of the loop over `polling_conns` is about other connections. -/
theorem Sound.rest {core core' : Core} {accept : Bool} {fd : PollFd} {revents : Revents}
    {todo : List (PollFd × Revents)} (sound : (ListenerPhase.serving accept ((fd, revents) :: todo)).Sound core)
    (others : ∀ c, c ≠ fd.conn → core'.conns.read c = core.conns.read c) :
    (ListenerPhase.serving accept todo).Sound core' := by
  obtain ⟨distinct, polled⟩ := sound
  rw [List.map_cons, List.nodup_cons] at distinct
  refine ⟨distinct.2, ?_⟩
  intro entry member
  obtain ⟨conn, there, facts⟩ := polled entry (List.mem_cons_of_mem _ member)
  have other : entry.1.conn ≠ fd.conn := by
    intro same
    exact distinct.1 (same ▸ List.mem_map_of_mem member)
  exact ⟨conn, by rw [others _ other, there], facts⟩

/-- The connection that is served has changed. -/
theorem Sound.rest_modify {core : Core} {accept : Bool} {fd : PollFd} {revents : Revents}
    {todo : List (PollFd × Revents)} (sound : (ListenerPhase.serving accept ((fd, revents) :: todo)).Sound core)
    {f : Connection → Connection} {conns : Store Connection}
    (written : core.conns.modify fd.conn f = some conns) :
    (ListenerPhase.serving accept todo).Sound { core with conns := conns } := by
  obtain ⟨_, _, _, reads⟩ := modify_eq_some written
  apply sound.rest
  intro c other
  rw [reads, if_neg other]

end ListenerPhase

/-- A change of one connection that does not set `in_worker`. -/
theorem ListenerPhase.Sound.modify {core : Core} {phase : ListenerPhase} (sound : phase.Sound core)
    {c : Nat} {f : Connection → Connection} {conns : Store Connection}
    (written : core.conns.modify c f = some conns) (socket : ∀ conn, (f conn).sockid = conn.sockid)
    (free : ∀ conn, conn.inWorker = false → (f conn).inWorker = false) :
    phase.Sound { core with conns := conns } := by
  obtain ⟨old, there, _, reads⟩ := modify_eq_some written
  refine sound.mono ?_ ?_
  · rintro c' ⟨conn, there'⟩
    by_cases same : c' = c
    · exact ⟨f old, by rw [reads, if_pos same]⟩
    · exact ⟨conn, by rw [reads, if_neg same, there']⟩
  · rintro fd ⟨conn, there', socket', idle⟩
    by_cases same : fd.conn = c
    · rw [same, there] at there'
      cases there'
      exact ⟨f old, by rw [reads, if_pos same], by rw [socket, socket'], free old idle⟩
    · exact ⟨conn, by rw [reads, if_neg same, there'], socket', idle⟩

namespace Custody

variable {md5hex : Block → Block} {s s' : ServerState}

/-- Events, jobs and phases move on, and the connections stay as they are. -/
theorem moved (custody : Custody s) (conns : s'.core.conns = s.core.conns) (agree : CoreInv s'.core)
    (phase : s'.listener.Sound s'.core) (same : ∀ c, s'.held.count c = s.held.count c)
    (controller : ∀ c frame, s'.controller = some (c, frame) →
      c ∈ s.held ∨ ∃ frame, s.controller = some (c, frame)) : Custody s' := by
  refine ⟨agree, phase, ?_, ?_⟩
  · intro c conn there
    rw [same]
    exact custody.counted c conn (conns ▸ there)
  · intro c known
    rw [conns]
    apply custody.known
    rcases known with held | ⟨frame, handled⟩
    · rw [← List.count_pos_iff, same, List.count_pos_iff] at held
      exact .inl held
    · exact controller c frame handled

/-- One connection is changed, and with it how often it is held. -/
theorem modified (custody : Custody s) {c : Nat} {conn : Connection} {f : Connection → Connection}
    {conns : Store Connection} (there : s.core.conns.read c = some conn)
    (written : s.core.conns.modify c f = some conns) (socket : (f conn).sockid = conn.sockid)
    (core : s'.core = { s.core with conns := conns }) (phase : s'.listener.Sound s'.core)
    (own : s'.held.count c = (f conn).inWorker.toNat)
    (others : ∀ c', c' ≠ c → s'.held.count c' = s.held.count c')
    (controller : ∀ c' frame, s'.controller = some (c', frame) →
      c' = c ∨ ∃ frame, s.controller = some (c', frame)) : Custody s' := by
  obtain ⟨old, there', next, reads⟩ := modify_eq_some written
  rw [there] at there'
  cases there'
  -- the maps know a connection by its socket alone, which `f` keeps
  have agree : CoreInv s'.core := by
    rw [core]
    refine custody.agree.modify ?_ written
    intro other there'
    rw [there] at there'
    cases there'
    exact socket
  refine ⟨agree, phase, ?_, ?_⟩
  · intro c' conn' there'
    rw [core] at there'
    simp only [reads] at there'
    split at there'
    next here =>
      cases there'
      rw [here, own]
    next other => rw [others c' other, custody.counted c' conn' there']
  · intro c' known
    rw [core]
    simp only [next]
    by_cases here : c' = c
    · exact here ▸ custody.agree.bounded c conn there
    · apply custody.known
      rcases known with held | ⟨frame, handled⟩
      · rw [← List.count_pos_iff, others c' here, List.count_pos_iff] at held
        exact .inl held
      · exact .inr ((controller c' frame handled).resolve_left here)

theorem closes (custody : Custody s) {sockid : Int32} {requested : Option Nat} {seen : List Sighting}
    (closed : Closes s sockid requested seen s') (phase : s'.listener.Sound s'.core) : Custody s' := by
  cases closed with
  | intro c conns events found freed =>
    obtain ⟨conn, there, rfl⟩ := custody.agree.client_eq_some found
    obtain ⟨_, _, next, reads⟩ := free_eq_some freed
    have held : ∀ queue : List ControllerEvent,
        (queue ++ events.map ControllerEvent.broadcast).filterMap ControllerEvent.holds =
          queue.filterMap ControllerEvent.holds := by
      intro queue
      have nothing : events.filterMap (ControllerEvent.holds ∘ .broadcast) = [] :=
        List.filterMap_eq_nil_iff.mpr fun _ _ => rfl
      rw [List.filterMap_append, List.filterMap_map, nothing, List.append_nil]
    refine ⟨custody.agree.closeConnection there freed, phase, ?_, ?_⟩
    · intro c' conn' there'
      simp only [reads] at there'
      split at there'
      next => cases there'
      next =>
        rw [← custody.counted c' conn' there']
        simp only [ServerState.held, held]
    · intro c' known
      simp only [ServerState.held, held] at known
      simp only [next]
      exact custody.known c' known

theorem init (db : Db) : Custody (.init db) := by
  refine ⟨.init db, ListenerPhase.sound_turn (.init db), ?_, ?_⟩
  · intro c conn there
    cases there
  · rintro c (held | ⟨frame, handled⟩)
    · cases held
    · cases handled

theorem acceptConnection (custody : Custody s) {sockid : Int32} {todo : List (PollFd × Revents)}
    (phase : s.listener = .serving true todo) (unused : sockid ∉ s.core.openSockets) :
    Custody { s with core := s.core.acceptConnection sockid, listener := .serving false todo } := by
  have sound := custody.phase
  rw [phase] at sound
  have agree := custody.agree.acceptConnection sockid unused
  by_cases positive : sockid > 0
  · have reads : ∀ c, (s.core.acceptConnection sockid).conns.read c =
        if c = s.core.conns.next then some (newConnection sockid) else s.core.conns.read c := by
      intro c
      rw [Core.acceptConnection, if_pos positive]
      exact read_alloc _ _ c
    have next : (s.core.acceptConnection sockid).conns.next = s.core.conns.next + 1 := by
      rw [Core.acceptConnection, if_pos positive]
      rfl
    have old : ∀ c conn, s.core.conns.read c = some conn →
        (s.core.acceptConnection sockid).conns.read c = some conn :=
      fun _ _ there => custody.agree.read_acceptConnection there sockid
    refine ⟨agree, ?_, ?_, ?_⟩
    · refine ListenerPhase.Sound.mono sound ?_ ?_
      · exact fun c ⟨conn, there⟩ => ⟨conn, old c conn there⟩
      · exact fun fd ⟨conn, there, facts⟩ => ⟨conn, old _ conn there, facts⟩
    · intro c conn there
      simp only [reads] at there
      split at there
      next fresh =>
        cases there
        show s.held.count c = 0
        rw [List.count_eq_zero]
        intro held
        -- a worker cannot have a pointer that is allocated only now
        have known := custody.known c (.inl held)
        omega
      next => exact custody.counted c conn there
    · intro c known
      simp only [next]
      exact Nat.lt_succ_of_lt (custody.known c known)
  · -- `accept` has failed
    have failed : s.core.acceptConnection sockid = s.core := by
      rw [Core.acceptConnection, if_neg positive]
    rw [failed]
    exact custody.moved rfl custody.agree sound (fun _ => rfl) fun _ frame handled => .inr ⟨frame, handled⟩

/-- The socket that the listener serves is that of the connection it polled. -/
theorem served (custody : Custody s) {accept : Bool} {fd : PollFd} {revents : Revents}
    {todo : List (PollFd × Revents)} (phase : s.listener = .serving accept ((fd, revents) :: todo)) :
    s.core.client fd.fd = some fd.conn ∧
      ∃ conn, s.core.conns.read fd.conn = some conn ∧ conn.sockid = fd.fd ∧ conn.inWorker = false := by
  have sound := custody.phase
  rw [phase] at sound
  obtain ⟨conn, there, socket, idle⟩ := sound.2 (fd, revents) (by simp)
  exact ⟨socket ▸ custody.agree.listed _ conn there, conn, there, socket, idle⟩

/-- That connection is free. -/
theorem served_eq (custody : Custody s) {accept : Bool} {fd : PollFd} {revents : Revents}
    {todo : List (PollFd × Revents)} (phase : s.listener = .serving accept ((fd, revents) :: todo))
    {c : Nat} {conn : Connection} (found : s.core.client fd.fd = some c)
    (there : s.core.conns.read c = some conn) : c = fd.conn ∧ conn.inWorker = false := by
  obtain ⟨here, conn', there', _, idle⟩ := custody.served phase
  rw [here] at found
  cases found
  rw [there] at there'
  cases there'
  exact ⟨rfl, idle⟩

theorem rest (custody : Custody s) {accept : Bool} {fd : PollFd} {revents : Revents}
    {todo : List (PollFd × Revents)} (phase : s.listener = .serving accept ((fd, revents) :: todo)) :
    Custody { s with listener := .serving accept todo } := by
  have sound := custody.phase
  rw [phase] at sound
  exact custody.moved rfl custody.agree (sound.rest fun _ _ => rfl) (fun _ => rfl)
    fun _ frame handled => .inr ⟨frame, handled⟩

/-- The listener closes the connection that it serves. -/
theorem servedCloses (custody : Custody s) {fd : PollFd} {revents : Revents}
    {todo : List (PollFd × Revents)} {seen : List Sighting}
    (phase : s.listener = .serving false ((fd, revents) :: todo))
    (closed : Closes { s with listener := .serving false todo } fd.fd (some fd.conn) seen s') :
    Custody s' := by
  apply (custody.rest phase).closes closed
  have sound := custody.phase
  rw [phase] at sound
  cases closed with
  | intro c conns events found freed =>
    obtain ⟨_, _, _, reads⟩ := free_eq_some freed
    rw [(custody.served phase).1] at found
    cases found
    exact sound.rest fun c other => by rw [reads, if_neg other]

/-- Every step keeps it. -/
theorem step (custody : Custody s) {action : ThreadAction} {seen : List Sighting}
    (transition : Transition md5hex s action seen s') : Custody s' := by
  have sound := custody.phase
  have handling : ∀ c frame, s.controller = some (c, frame) →
      c ∈ s.held ∨ ∃ frame, s.controller = some (c, frame) := fun _ frame handled => .inr ⟨frame, handled⟩
  cases transition with
  | skipped c todo polled phase =>
    rw [phase] at sound
    refine custody.moved rfl custody.agree ?_ (fun _ => rfl) handling
    exact ⟨sound.1.of_cons, fun c member => sound.2.1 c (List.mem_cons_of_mem _ member), sound.2.2⟩
  | pushed c conn todo polled phase there idle =>
    rw [phase] at sound
    refine custody.moved rfl custody.agree ⟨?_, ?_, ?_⟩ (fun _ => rfl) handling
    · rw [List.map_append, ← List.append_assoc]
      exact (List.perm_append_singleton c _).nodup_iff.mpr sound.1
    · exact fun c member => sound.2.1 c (List.mem_cons_of_mem _ member)
    · intro fd member
      rcases List.mem_append.mp member with before | here
      · exact sound.2.2 fd before
      · rw [List.mem_singleton.mp here]
        exact ⟨conn, there, rfl, idle⟩
  | pollFailed => exact custody.moved rfl custody.agree trivial (fun _ => rfl) handling
  | polled polled accept revents phase all =>
    rw [phase] at sound
    refine custody.moved rfl custody.agree ⟨?_, ?_⟩ (fun _ => rfl) handling
    · have conns : ((polled.zip revents).map fun entry => entry.1.conn) = polled.map PollFd.conn := by
        have fds : (polled.zip revents).map Prod.fst = polled :=
          List.map_fst_zip (Nat.le_of_eq all.symm)
        conv_rhs => rw [← fds, List.map_map]
        rfl
      rw [conns]
      exact sound.1
    · rintro ⟨fd, revents'⟩ member
      exact sound.2.2 fd (List.of_mem_zip member).1
  | accepted sockid todo phase unused => exact custody.acceptConnection phase unused
  | passed wire env fd todo phase =>
    rw [phase] at sound
    exact custody.moved rfl custody.agree (sound.rest fun _ _ => rfl) (fun _ => rfl) handling
  | hungUp wire env fd todo phase closes => exact custody.servedCloses phase closes
  | lost wire env fd todo c conn why phase found there received closes =>
    exact custody.servedCloses phase closes
  | kept wire wire' env fd todo c conn conn' conns phase found there received written =>
    obtain ⟨rfl, _⟩ := custody.served_eq phase found there
    obtain ⟨continues, _⟩ := processConnection_kept received
    rw [phase] at sound
    refine custody.modified there written continues.sockid rfl (sound.rest_modify written) ?_ (fun _ _ => rfl)
      fun _ frame handled => .inr ⟨frame, handled⟩
    rw [continues.inWorker]
    exact custody.counted _ conn there
  | dispatched wire wire' env fd todo c conn conn' conns phase found there received written =>
    obtain ⟨rfl, idle⟩ := custody.served_eq phase found there
    obtain ⟨socket, busy, _⟩ := processConnection_dispatched received
    have free := custody.counted _ conn there
    rw [phase] at sound
    rw [idle] at free
    refine custody.modified there written socket rfl (sound.rest_modify written) ?_ ?_
      fun _ frame handled => .inr ⟨frame, handled⟩
    -- Nobody held it before, and the event for the controller does now.
    · rw [ServerState.count_held] at free ⊢
      simp only [Bool.toNat_false] at free
      simp only [List.filterMap_append, List.filterMap_cons, ControllerEvent.holds, List.filterMap_nil,
        List.count_append, List.count_singleton_self, busy, Bool.toNat_true]
      omega
    · intro c other
      simp [ServerState.count_held, ControllerEvent.holds, other.symm]
  | noEvent env phase queue =>
    exact custody.moved rfl custody.agree (ListenerPhase.sound_turn custody.agree) (fun _ => rfl) handling
  | closeEvent env request later phase queue closes =>
    -- The request is taken first, and a new turn begins after the close.
    have popped : Custody { s with listenerQueue := later } :=
      custody.moved rfl custody.agree custody.phase (fun _ => rfl) handling
    have closed := popped.closes closes (by
      cases closes
      simp only [phase]
      exact ⟨List.nodup_nil, by simp⟩)
    exact closed.moved rfl closed.agree (ListenerPhase.sound_turn closed.agree) (fun _ => rfl)
      fun _ frame handled => .inr ⟨frame, handled⟩
  | refused env c frame conn later conns idle queue there corrupt written =>
    -- The event was the one that held it.
    have held := custody.counted c conn there
    simp only [ServerState.count_held, queue, ControllerEvent.holds, List.filterMap_cons,
      List.count_cons] at held
    refine custody.modified there written rfl rfl ?_ ?_ ?_ ?_
    · exact sound.modify written (fun _ => rfl) (fun _ _ => rfl)
    · have bound := conn.inWorker.toNat_le
      simp only [ServerState.count_held, Bool.toNat_false]
      simp only [beq_self_eq_true, ↓reduceIte] at held
      omega
    · intro c' other
      simp [ServerState.count_held, queue, ControllerEvent.holds, other.symm]
    · intro c' frame' handled
      cases handled
      exact .inl rfl
  | unpacked env c frame conn msg later idle queue there unpacked =>
    -- The hold passes from the event to the job.
    refine custody.moved rfl custody.agree sound ?_ ?_
    · intro c'
      simp only [ServerState.count_held, queue, ControllerEvent.holds, Job.holds, List.filterMap_cons,
        List.filterMap_append, List.filterMap_nil, List.count_cons, List.count_append, List.count_nil]
      omega
    · intro c' frame' handled
      cases handled
      left
      simp [ServerState.held, queue, ControllerEvent.holds]
  | broadcast env evt later db sids queue =>
    refine custody.moved rfl ?_ ?_ ?_ handling
    · exact ⟨custody.agree.keys, custody.agree.owners, custody.agree.listed, custody.agree.bounded,
        custody.agree.members⟩
    · exact sound.mono (fun _ live => live) (fun _ polled => polled)
    · intro c
      simp [ServerState.count_held, queue, List.filterMap_cons, ControllerEvent.holds, holds_sendMessage]
  | reset c conn frame conns handled there written =>
    refine custody.modified there written rfl rfl ?_ ?_ (fun _ _ => rfl) (by simp)
    · exact sound.modify written (fun _ => rfl) (fun _ idle => idle)
    · exact custody.counted c conn there
  | sent env sid evt later queue =>
    refine custody.moved rfl custody.agree sound ?_ handling
    intro c
    simp [ServerState.count_held, queue, List.filterMap_cons, Job.holds]
  | processed env c conn msg later effects mgr db queue there handled outcome =>
    refine custody.moved rfl (custody.agree.handled there outcome) ?_ ?_ handling
    · exact sound.mono (fun _ live => live) (fun _ polled => polled)
    -- The hold passes from the job to the worker.
    · intro c'
      rw [ServerState.held_emit]
      simp only [ServerState.count_held, queue, Job.holds, List.filterMap_cons, List.count_cons,
        List.count_append, List.count_nil]
      omega
  | deleted i c conns handled written =>
    obtain ⟨conn, there, _⟩ := modify_eq_some written
    obtain ⟨inside, rfl⟩ := List.getElem?_eq_some_iff.mp handled
    -- The worker was the one that held it.
    have held := custody.counted _ conn there
    have erased := fun c => (List.getElem_cons_eraseIdx_perm inside).count_eq c
    simp only [ServerState.count_held, List.count_cons] at held erased
    refine custody.modified there written rfl rfl ?_ ?_ ?_
      fun _ frame handled => .inr ⟨frame, handled⟩
    · exact sound.modify written (fun _ => rfl) (fun _ _ => rfl)
    · have one := erased s.workers[i]
      have bound := conn.inWorker.toNat_le
      simp only [ServerState.count_held, Bool.toNat_false]
      simp only [beq_self_eq_true, ↓reduceIte] at one
      omega
    · intro c' other
      have same := erased c'
      simp only [beq_iff_eq, other.symm, ↓reduceIte, add_zero] at same
      simp only [ServerState.count_held]
      omega

/-- It holds in every run. -/
theorem of_ran {cond : ServerState → ThreadAction → Prop} {db : Db} {trace : List Sighting}
    (ran : Ran (threadStep md5hex) cond (.init db) trace s) : Custody s := by
  induction ran with
  | start => exact init db
  | step _ _ taken custody => exact custody.step (threadStep_transition taken)

end Custody

end AcosChat

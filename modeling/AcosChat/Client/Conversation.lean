import AcosChat.Client.Calls

/-!
# What the client says to the server

One LOGIN at most; one HISTORY, as soon as the server has accepted it; lines only after that. The
LOGIN is paid for by the dialogs that lead to it, the HISTORY by `logged_in`.
-/
namespace AcosChat

open Store Run Bytes

/-- The server has accepted the login. -/
def accepted : ClientSighting := .took (.status (Int32.ofNat msgStatusOk))

/-- The client's lines and its HISTORY need that. -/
def NeedsAcceptance (before : List ClientSighting) : ClientSighting → Prop
  | .wrote _ msg => msg.msgType = messageClientRegular ∨ msg.msgType = messageClientHistory → accepted ∈ before
  | _ => True

/-! ### The controller's handlers -/

section Controller

variable {tstamp : Nat → UInt64} {sockid : Int32} {loggedIn loggedIn' : Bool} {pairs pairs' : Pairs}
  {todo : List ClientEffect} {evt : ControlEvent}

/-- `logged_in` is set by the status OK, and never reset. -/
theorem controllerHandler_loggedIn
    (ran : controllerHandler tstamp sockid loggedIn pairs evt = some (todo, loggedIn', pairs')) :
    loggedIn' = true ↔ loggedIn = true ∨ evt = .status (Int32.ofNat msgStatusOk) := by
  cases evt with
  | status status =>
    simp only [controllerHandler, statusEventHandler] at ran
    split at ran
    next out =>
      split at ran
      next ok =>
        cases ran
        simp [ok]
      next other =>
        obtain ⟨_, _, same⟩ := Option.map_eq_some_iff.mp ran
        cases same
        simp [out, other]
    next inside =>
      cases ran
      exact iff_of_true rfl (.inl (by simpa using inside))
  | list msg =>
    obtain ⟨_, _, same⟩ := Option.map_eq_some_iff.mp ran
    cases same
    simp
  | _ =>
    cases ran
    simp

/-- The handlers write when they have logged in, and need a socket for a line. -/
theorem controllerHandler_writes {msg : Message}
    (ran : controllerHandler tstamp sockid loggedIn pairs evt = some (todo, loggedIn', pairs'))
    (write : .write msg ∈ todo) : loggedIn' = true ∧
      (evt = .status (Int32.ofNat msgStatusOk) ∧ loggedIn = false ∧ todo = [.write askForHistory] ∨
        sockid ≠ -1 ∧ ∃ text, evt = .sendMessageToServer text ∧ todo = [.write (sendMessageToServerJob text)]) := by
  cases evt with
  | sendMessageToServer text =>
    cases ran
    rw [sendMessageToServerJobHandler] at write ⊢
    split at write
    · cases List.mem_singleton.mp write
    next connected =>
      rw [if_neg connected]
      simp only [not_or, Bool.not_eq_false] at connected
      exact ⟨connected.2, .inr ⟨connected.1, text, rfl, rfl⟩⟩
  | status status =>
    simp only [controllerHandler, statusEventHandler] at ran
    split at ran
    next out =>
      split at ran
      next ok =>
        cases ran
        exact ⟨rfl, .inl ⟨by rw [ok], out, rfl⟩⟩
      next =>
        obtain ⟨_, failed, same⟩ := Option.map_eq_some_iff.mp ran
        cases same
        obtain ⟨_, _, same⟩ := Option.map_eq_some_iff.mp failed
        cases same
        simp [internalMessage] at write
    next =>
      cases ran
      cases List.mem_singleton.mp write
  | list msg' =>
    obtain ⟨lines, shown, same⟩ := Option.map_eq_some_iff.mp ran
    cases same
    obtain ⟨line, inside, here⟩ := List.mem_filterMap.mp write
    obtain ⟨_, _, rfl⟩ := listEventHandler_lines shown line inside
    cases here
  | hangup | kick =>
    cases ran
    simp [hangupEventHandler, kickEventHandler, internalMessage] at write
  | exit =>
    cases ran
    cases write

end Controller

/-- What the GUI writes is a LOGIN, a LIST or a KICK. -/
theorem ClientCall.write_gui {msg : Message} (call : ClientCall .gui (.write msg)) :
    msg.msgType = messageClientLogin ∨ msg.msgType = messageClientList ∨ msg.msgType = messageClientKick := by
  generalize same : ClientEffect.write msg = effect at call
  cases call <;> cases same
  · exact .inl rfl
  · exact .inr (.inl rfl)
  · exact .inr (.inr rfl)

theorem ClientCall.not_write_listener {msg : Message} : ¬ClientCall .listener (.write msg) := by
  intro call
  generalize same : ClientEffect.write msg = effect at call
  cases call with
  | internal => cases same
  | event evt => cases evt <;> cases same
  | hangup => cases same

/-! ### Connected and accepted -/

/-- The client has been accepted as far as it believes so, and what comes from the server is there
only when it is connected. -/
structure Conversing (trace : List ClientSighting) (s : Client) : Prop where
  calls : s.Calls
  listener : s.listener.todo ≠ [] → s.sockid ≠ -1
  status : ∀ status, .status status ∈ s.controllerQueue → s.sockid ≠ -1
  loggedIn : s.loggedIn = true → s.sockid ≠ -1
  writes : ∀ msg, .write msg ∈ s.controller.todo → s.loggedIn = true
  accepted : s.loggedIn = true ↔ accepted ∈ trace
  follows : Follows NeedsAcceptance trace

/-- A socket is never -1. -/
theorem connectToServer_ne {net : Network} {name : Block} {port sockid : Int32}
    (connected : connectToServer net name port = some sockid) : sockid ≠ -1 := by
  simp only [connectToServer] at connected
  split at connected
  next => cases connected
  next valid =>
    split at connected
    next => cases connected
    next =>
      split at connected
      next =>
        cases connected
        intro wrong
        rw [wrong] at valid
        exact absurd (by decide : (-1 : Int32) < 0) valid
      next => cases connected

theorem Dialog.success_sockid {net : Network} {tstamp : UInt64} {str : Block} {dialog : Dialog}
    {sockid sockid' : Int32} {pairs pairs' : Pairs} {todo : List ClientEffect}
    (ran : dialog.success net tstamp str sockid pairs = some (todo, sockid', pairs')) :
    sockid' = sockid ∨ sockid' ≠ -1 := by
  cases Dialog.success_cases ran with
  | connected _ reached => exact .inr (connectToServer_ne reached)
  | _ => exact .inl rfl

namespace Conversing

variable {trace did : List ClientSighting} {s s' : Client}

theorem init : Conversing [] Client.init where
  calls := Client.init_calls
  listener := fun wrong => absurd rfl wrong
  status := nofun
  loggedIn := nofun
  writes := by
    intro msg member
    cases List.mem_singleton.mp member
  accepted := ⟨nofun, nofun⟩
  follows := follows_nil

/-- A step that is not about the acceptance. -/
theorem quiet (conversing : Conversing trace s) (calls : s'.Calls) (sockid : s'.sockid = s.sockid ∨ s'.sockid ≠ -1)
    (listener : s'.listener.todo ≠ [] → s'.sockid ≠ -1)
    (status : ∀ status, .status status ∈ s'.controllerQueue →
      .status status ∈ s.controllerQueue ∨ s'.sockid ≠ -1)
    (loggedIn : s'.loggedIn = s.loggedIn) (todo : ∀ msg, .write msg ∈ s'.controller.todo → .write msg ∈ s.controller.todo)
    (unaccepted : AcosChat.accepted ∉ did) (follows : Follows NeedsAcceptance (trace ++ did)) :
    Conversing (trace ++ did) s' where
  calls := calls
  listener := listener
  status := by
    intro code member
    rcases sockid with same | connected
    · rcases status code member with before | connected
      · rw [same]
        exact conversing.status code before
      · exact connected
    · exact connected
  loggedIn := by
    intro inside
    rcases sockid with same | connected
    · rw [same]
      exact conversing.loggedIn (loggedIn ▸ inside)
    · exact connected
  writes := by
    intro msg member
    rw [loggedIn]
    exact conversing.writes msg (todo msg member)
  accepted := by
    rw [loggedIn, conversing.accepted, List.mem_append, or_iff_left unaccepted]
  follows := follows

/-- A step without a write. -/
theorem free (conversing : Conversing trace s) (unwritten : ∀ sockid msg, .wrote sockid msg ∉ did) :
    Follows NeedsAcceptance (trace ++ did) := by
  apply conversing.follows.append
  intro sight member before
  cases sight with
  | wrote sockid msg => exact absurd member (unwritten sockid msg)
  | _ => trivial

/-- The next call of a handler. -/
theorem performed (conversing : Conversing trace s) {who : ClientThread} {effect : ClientEffect}
    {todo : List ClientEffect} (there : s.todo who = effect :: todo) :
    Conversing (trace ++ ((s.setTodo who todo).perform effect).1) ((s.setTodo who todo).perform effect).2 := by
  have sockid : ((s.setTodo who todo).perform effect).2.sockid = s.sockid := by
    cases effect <;> cases who <;> rfl
  have loggedIn : ((s.setTodo who todo).perform effect).2.loggedIn = s.loggedIn := by
    cases effect <;> cases who <;> rfl
  have connected : who = .listener → s.sockid ≠ -1 := by
    rintro rfl
    apply conversing.listener
    intro empty
    rw [Client.todo, empty] at there
    cases there
  apply conversing.quiet (conversing.calls.step (.performed who effect todo there)) (.inl sockid)
  · rw [sockid, Client.perform_listener]
    cases who with
    | listener => exact fun _ => connected rfl
    | controller | gui => exact conversing.listener
  · intro code member
    rw [sockid]
    by_cases it : effect = .toController (.status code)
    · -- only the listener sends the status
      subst it
      rcases conversing.calls.next there with wrong | call
      · cases wrong
      · right
        apply connected
        generalize same : ClientEffect.toController (.status code) = effect at call
        cases call <;> first | rfl | cases same
    · left
      cases effect with
      | toController evt =>
        have inside : ControlEvent.status code ∈ s.controllerQueue ++ [evt] := by
          cases who <;> exact member
        rcases List.mem_append.mp inside with before | here
        · exact before
        · rw [List.mem_singleton.mp here] at it
          exact absurd rfl it
      | exitController =>
        have inside : ControlEvent.status code ∈ .exit :: s.controllerQueue := by
          cases who <;> exact member
        simpa using inside
      | toGui evt => cases who <;> exact member
      | write msg => cases who <;> exact member
  · exact loggedIn
  · intro msg member
    rw [Client.perform_controller] at member
    cases who with
    | controller =>
      rw [show s.controller.todo = effect :: todo from there]
      exact List.mem_cons_of_mem _ member
    | gui | listener => exact member
  · cases effect <;> simp only [Client.perform, List.not_mem_nil, not_false_eq_true]
    split <;> simp [AcosChat.accepted]
  · cases effect with
    | write msg =>
      apply conversing.follows.append_of_before
      intro sight member later
      simp only [Client.perform] at member
      split at member
      · rw [List.mem_singleton.mp member]
        trivial
      · rw [List.mem_singleton.mp member]
        intro type
        apply List.mem_append_left
        rw [← conversing.accepted]
        -- the other threads write neither
        cases who with
        | controller =>
          apply conversing.writes msg
          rw [show s.controller.todo = .write msg :: todo from there]
          exact List.mem_cons_self
        | gui =>
          rcases conversing.calls.next there with wrong | call
          · cases wrong
          · rcases call.write_gui with same | same | same <;> rw [same] at type <;>
              exact absurd type (by decide)
        | listener =>
          rcases conversing.calls.next there with wrong | call
          · cases wrong
          · exact absurd call ClientCall.not_write_listener
    | _ => exact conversing.free (by simp [Client.perform])

/-- A handler of the controller. -/
theorem handled (conversing : Conversing trace s) {tstamp : Nat → UInt64} {evt : ControlEvent}
    {queue : List ControlEvent} {todo : List ClientEffect} {loggedIn : Bool} {pairs : Pairs}
    (there : s.controllerQueue = evt :: queue)
    (ran : controllerHandler tstamp s.sockid s.loggedIn s.pairs evt = some (todo, loggedIn, pairs)) :
    Conversing (trace ++ .took evt :: s.refusal evt) { s with
      controllerQueue := queue, controller := ⟨true, todo⟩, loggedIn := loggedIn, pairs := pairs } where
  calls := ⟨fun effect member => .inr (controllerHandler_calls ran effect member),
    conversing.calls.gui, conversing.calls.listener⟩
  listener := conversing.listener
  status := by
    intro code member
    apply conversing.status code
    rw [there]
    exact List.mem_cons_of_mem _ member
  loggedIn := by
    intro inside
    rcases (controllerHandler_loggedIn ran).mp inside with before | rfl
    · exact conversing.loggedIn before
    · apply conversing.status (Int32.ofNat msgStatusOk)
      rw [there]
      exact List.mem_cons_self
  writes := fun msg member => (controllerHandler_writes ran member).1
  accepted := by
    have refused : AcosChat.accepted ∉ s.refusal evt := by
      cases evt with
      | sendMessageToServer text =>
        simp only [Client.refusal]
        split <;> simp [AcosChat.accepted]
      | _ => exact List.not_mem_nil
    rw [List.mem_append, List.mem_cons, ← conversing.accepted, or_iff_left refused]
    exact (controllerHandler_loggedIn ran).trans (or_congr_right (by simp [AcosChat.accepted, eq_comm]))
  follows := by
    apply conversing.free
    intro sockid msg member
    rcases List.mem_cons.mp member with wrong | member
    · cases wrong
    · cases evt with
      | sendMessageToServer text =>
        simp only [Client.refusal] at member
        split at member
        · cases List.mem_singleton.mp member
        · cases member
      | _ => cases member

theorem step (conversing : Conversing trace s) (transition : ClientTransition s did s') :
    Conversing (trace ++ did) s' := by
  have calls := conversing.calls.step transition
  cases transition with
  | performed who effect todo there => exact conversing.performed there
  | handled tstamp evt queue todo loggedIn pairs there other ready ran => exact conversing.handled there ran
  | idle => simpa using conversing
  | exited queue there ready =>
    apply conversing.quiet calls (.inl rfl) conversing.listener (fun code member => .inl ?_) rfl nofun
      (by simp [AcosChat.accepted]) (conversing.free (by simp))
    rw [there]
    exact List.mem_cons_of_mem _ member
  | left | unasked | cancelled =>
    exact conversing.quiet calls (.inl rfl) conversing.listener (fun _ => .inl) rfl (fun _ => id)
      List.not_mem_nil (conversing.free nofun)
  | pressed tstamp key todo =>
    have typed : ∀ sight ∈ todo.filterMap ClientEffect.typed, ∃ text, sight = .typed text := by
      intro sight member
      obtain ⟨effect, _, same⟩ := List.mem_filterMap.mp member
      unfold ClientEffect.typed at same
      split at same
      · cases same
        exact ⟨_, rfl⟩
      · cases same
    apply conversing.quiet calls (.inl rfl) conversing.listener (fun _ => .inl) rfl fun _ => id
    · intro member
      obtain ⟨_, wrong⟩ := typed _ member
      cases wrong
    · apply conversing.free
      intro sockid msg member
      obtain ⟨_, wrong⟩ := typed _ member
      cases wrong
  | printed | asked =>
    exact conversing.quiet calls (.inl rfl) conversing.listener (fun _ => .inl) rfl (fun _ => id)
      (by simp [AcosChat.accepted]) (conversing.free (by simp))
  | entered dialog net tstamp str todo sockid pairs ready ran =>
    refine conversing.quiet calls (Dialog.success_sockid ran) ?_ (fun _ => .inl) rfl (fun _ => id)
      List.not_mem_nil (conversing.free nofun)
    intro busy
    rcases Dialog.success_sockid ran with same | connected
    · rw [same]
      exact conversing.listener busy
    · exact connected
  | unconnected | iterated =>
    exact conversing.quiet calls (.inl rfl) (fun wrong => absurd rfl wrong) (fun _ => .inl) rfl (fun _ => id)
      List.not_mem_nil (conversing.free nofun)
  | listened tstamp input sent conn ready connected | lost tstamp input sent ready connected =>
    apply conversing.quiet calls (.inl rfl) (fun _ => connected) (fun _ => .inl) rfl fun _ => id
    · simp [AcosChat.accepted]
    · exact conversing.free (by simp)
  | joinedGui =>
    exact conversing.quiet calls (.inl rfl) conversing.listener (fun code member => .inl (by simpa using member))
      rfl (fun _ => id) List.not_mem_nil (conversing.free nofun)
  | joinedController =>
    exact conversing.quiet calls (.inl rfl) conversing.listener (fun _ => .inl) rfl (fun _ => id)
      List.not_mem_nil (conversing.free nofun)
  | joinedListener =>
    apply conversing.quiet calls (.inl rfl) conversing.listener (fun _ => .inl) rfl fun _ => id
    · split <;> simp [AcosChat.accepted]
    · apply conversing.free
      split <;> simp

end Conversing

theorem ran_conversing {cond : Client → ClientAction → Prop} {trace : List ClientSighting} {s : Client}
    (ran : Ran Client.step cond Client.init trace s) : Conversing trace s :=
  ran.invariant .init fun _ _ _ _ _ conversing _ taken => conversing.step (Client.step_transition taken)

/-! ### HISTORY -/

def ClientEffect.history : ClientEffect → List Message
  | .write msg => if msg.msgType = messageClientHistory then [msg] else []
  | _ => []

def ClientSighting.history : ClientSighting → List Message
  | .wrote _ msg => if msg.msgType = messageClientHistory then [msg] else []
  | _ => []

/-- The HISTORY that is still to be written. -/
def Client.historyHeld (s : Client) : List Message :=
  (if s.loggedIn then [] else [askForHistory]) ++ s.controller.todo.flatMap ClientEffect.history

theorem ClientCall.history_eq_nil {who : ClientThread} {effect : ClientEffect}
    (call : effect = askServerAddr ∨ ClientCall who effect) (other : who ≠ .controller) : effect.history = [] := by
  rcases call with rfl | call
  · rfl
  · cases call with
    | event evt => cases evt <;> rfl
    | history | regular => exact absurd rfl other
    | _ => rfl

/-- The HISTORY of a handler is that of the login. -/
theorem controllerHandler_history {tstamp : Nat → UInt64} {sockid : Int32} {loggedIn loggedIn' : Bool}
    {pairs pairs' : Pairs} {todo : List ClientEffect} {evt : ControlEvent}
    (ran : controllerHandler tstamp sockid loggedIn pairs evt = some (todo, loggedIn', pairs')) :
    (if loggedIn then [] else [askForHistory]) =
      (if loggedIn' then [] else [askForHistory]) ++ todo.flatMap ClientEffect.history := by
  have set := controllerHandler_loggedIn ran
  by_cases writing : ∃ msg, .write msg ∈ todo
  · obtain ⟨msg, write⟩ := writing
    obtain ⟨inside, ⟨_, out, rfl⟩ | ⟨_, text, rfl, rfl⟩⟩ := controllerHandler_writes ran write
    · simp [inside, out, ClientEffect.history, askForHistory, historyRequest]
    · have before : loggedIn = true := by simpa [inside] using set
      have type : ¬messageClientRegular = messageClientHistory := by decide
      simp [inside, before, ClientEffect.history, sendMessageToServerJob, type]
  · have silent : todo.flatMap ClientEffect.history = [] := by
      rw [List.flatMap_eq_nil_iff]
      intro effect member
      cases effect with
      | write msg => exact absurd ⟨msg, member⟩ writing
      | _ => rfl
    rw [silent, List.append_nil]
    by_cases ok : evt = .status (Int32.ofNat msgStatusOk)
    · -- the first OK would have written one
      subst ok
      have inside : loggedIn' = true := set.mpr (.inr rfl)
      cases out : loggedIn with
      | true => simp [inside]
      | false =>
        rw [controllerHandler, statusEventHandler, if_pos out, if_pos rfl] at ran
        cases ran
        exact absurd ⟨_, List.mem_singleton.mpr rfl⟩ writing
    · have same : loggedIn' = loggedIn := by
        rw [Bool.eq_iff_iff, set, or_iff_left ok]
      rw [same]

theorem Conversing.history_passes {trace did : List ClientSighting} {s s' : Client}
    (conversing : Conversing trace s) (transition : ClientTransition s did s') :
    Passes (fun _ => []) ClientSighting.history Client.historyHeld s did s' := by
  cases transition with
  | performed who effect todo there =>
    have loggedIn : ((s.setTodo who todo).perform effect).2.loggedIn = s.loggedIn := by
      cases effect <;> cases who <;> rfl
    rw [Passes, Client.historyHeld, Client.historyHeld, loggedIn, Client.perform_controller]
    cases who with
    | controller =>
      have todo_eq : s.controller.todo = effect :: todo := there
      rw [todo_eq]
      cases effect with
      | write msg =>
        have inside := conversing.writes msg (by simp [todo_eq])
        have connected := conversing.loggedIn inside
        simp [Client.perform, Client.setTodo, inside, ClientEffect.history, ClientSighting.history, connected]
      | _ => simp [Client.perform, Client.setTodo, ClientEffect.history]
    | gui | listener =>
      have silent := ClientCall.history_eq_nil (conversing.calls.next there) (by decide)
      cases effect with
      | write msg =>
        simp only [ClientEffect.history] at silent
        by_cases unset : s.sockid = -1
        · simp [Client.perform, Client.setTodo, ClientSighting.history, unset]
        · simp [Client.perform, Client.setTodo, ClientSighting.history, unset, silent]
      | _ => simp [Client.perform, Client.setTodo]
  | handled tstamp evt queue todo loggedIn pairs there other ready ran =>
    have given := controllerHandler_history ran
    rw [Passes, List.flatMap_cons, List.flatMap_cons, Client.flatMap_refusal_eq_nil _ evt fun _ => rfl,
      Client.flatMap_refusal_eq_nil _ evt fun _ => rfl, Client.historyHeld, given]
    simp [Client.historyHeld, ready, ClientSighting.history]
  | exited queue there ready => simp [Passes, Client.historyHeld, ready, ClientSighting.history]
  | pressed tstamp key todo =>
    rw [Passes, Client.flatMap_typed_eq_nil ClientSighting.history todo fun _ => rfl]
    simp [Client.historyHeld]
  | listened tstamp input sent | lost tstamp input sent =>
    rw [Passes, Client.flatMap_received_eq_nil ClientSighting.history sent fun _ => rfl]
    simp [Client.historyHeld]
  | joinedListener =>
    by_cases unset : s.sockid = -1
    · simp [Passes, Client.historyHeld, unset]
    · simp [Passes, Client.historyHeld, unset, ClientSighting.history]
  | _ => simp [Passes, Client.historyHeld, ClientSighting.history]

/-! ### LOGIN -/

def ClientSighting.login : ClientSighting → List Message
  | .wrote _ msg => if msg.msgType = messageClientLogin then [msg] else []
  | _ => []

/-- How many LOGINs a dialog leads to. -/
def Dialog.logins : Dialog → Nat
  | .serverAddr | .username _ | .password _ => 1
  | .kickUid | .kickReason _ => 0

def GuiPhase.logins : GuiPhase → Nat
  | .dialog asked => asked.logins
  | _ => 0

def GuiEvent.logins : GuiEvent → Nat
  | .readinput dialog => dialog.logins
  | .displayParsedMessage .. => 0

def ClientEffect.logins : ClientEffect → Nat
  | .toGui evt => evt.logins
  | .write msg => if msg.msgType = messageClientLogin then 1 else 0
  | _ => 0

/-- How many LOGINs there may still be. -/
def Client.logins (s : Client) : Nat :=
  (s.controller.todo.map ClientEffect.logins).sum + (s.gui.todo.map ClientEffect.logins).sum +
    (s.listener.todo.map ClientEffect.logins).sum + (s.guiQueue.map GuiEvent.logins).sum + s.gui.phase.logins

theorem sum_eq_zero_of_calls {who : ClientThread} {todo : List ClientEffect}
    (calls : ∀ effect ∈ todo, ClientCall who effect) (other : who ≠ .gui) :
    (todo.map ClientEffect.logins).sum = 0 := by
  rw [List.sum_eq_zero_iff_forall_eq_nat]
  intro weight member
  obtain ⟨effect, inside, rfl⟩ := List.mem_map.mp member
  cases calls effect inside with
  | event evt => cases evt <;> rfl
  | dialog | login => exact absurd rfl other
  | _ => rfl

section Dialogs

variable {tstamp : UInt64} {pairs pairs' : Pairs} {todo : List ClientEffect} {dialog : Dialog}

/-- A dialog leads to the next one, or to the LOGIN. -/
theorem Dialog.success_logins {net : Network} {str : Block} {sockid sockid' : Int32}
    (ran : dialog.success net tstamp str sockid pairs = some (todo, sockid', pairs')) :
    (todo.map ClientEffect.logins).sum ≤ dialog.logins := by
  cases Dialog.success_cases ran with
  | unreachable => exact Nat.zero_le _
  | _ => exact Nat.le_refl _

theorem Dialog.failure_logins (ran : dialog.failure tstamp pairs = some (todo, pairs')) :
    (todo.map ClientEffect.logins).sum = 0 := by
  cases Dialog.failure_cases ran <;> rfl

theorem Key.calls_logins {key : Key} (calls : key.calls tstamp = some todo) :
    (todo.map ClientEffect.logins).sum = 0 := by
  cases key with
  | enter field =>
    obtain ⟨_, _, rfl⟩ := Option.map_eq_some_iff.mp calls
    rfl
  | _ =>
    cases calls
    rfl

end Dialogs

/-- What a call hands on, and what it writes. -/
theorem Client.perform_logins (s : Client) (effect : ClientEffect) :
    ((s.perform effect).1.flatMap ClientSighting.login).length +
      ((s.perform effect).2.guiQueue.map GuiEvent.logins).sum ≤
        effect.logins + (s.guiQueue.map GuiEvent.logins).sum := by
  cases effect with
  | toGui evt => simp [Client.perform, ClientEffect.logins, Nat.add_comm]
  | write msg =>
    by_cases unset : s.sockid = -1
    · simp [Client.perform, unset, ClientSighting.login]
    · by_cases type : msg.msgType = messageClientLogin
      · simp [Client.perform, unset, ClientSighting.login, ClientEffect.logins, type]
      · simp [Client.perform, unset, ClientSighting.login, ClientEffect.logins, type]
  | _ => simp [Client.perform, ClientEffect.logins]

theorem Client.Calls.logins_le {did : List ClientSighting} {s s' : Client} (calls : s.Calls)
    (transition : ClientTransition s did s') :
    (did.flatMap ClientSighting.login).length + s'.logins ≤ s.logins := by
  have next := calls.step transition
  cases transition with
  | performed who effect todo there =>
    have handed := (s.setTodo who todo).perform_logins effect
    simp only [Client.logins, Client.perform_controller, Client.perform_gui, Client.perform_listener]
    cases who with
    | controller =>
      have todo_eq : s.controller.todo = effect :: todo := there
      simp only [Client.setTodo, todo_eq, List.map_cons, List.sum_cons] at handed ⊢
      omega
    | gui =>
      have todo_eq : s.gui.todo = effect :: todo := there
      simp only [Client.setTodo, todo_eq, List.map_cons, List.sum_cons] at handed ⊢
      omega
    | listener =>
      have todo_eq : s.listener.todo = effect :: todo := there
      simp only [Client.setTodo, todo_eq, List.map_cons, List.sum_cons] at handed ⊢
      omega
  | handled tstamp evt queue todo loggedIn pairs there other ready ran =>
    have none := sum_eq_zero_of_calls (controllerHandler_calls ran) (by decide)
    rw [List.flatMap_cons, Client.flatMap_refusal_eq_nil _ evt fun _ => rfl]
    simp [Client.logins, none, ClientSighting.login]
  | exited queue there ready => simp [Client.logins, ready, ClientSighting.login]
  | pressed tstamp key todo ready pressed =>
    have none := Key.calls_logins pressed
    rw [Client.flatMap_typed_eq_nil ClientSighting.login todo fun _ => rfl]
    simp [Client.logins, none, ready, GuiPhase.logins]
  | entered dialog net tstamp str todo sockid pairs ready ran =>
    have led := Dialog.success_logins ran
    simp only [Client.logins, ready, GuiPhase.logins, List.flatMap_nil, List.length_nil, List.map_nil, List.sum_nil]
    omega
  | cancelled dialog tstamp todo pairs ready ran =>
    have none := Dialog.failure_logins ran
    simp only [Client.logins, ready, GuiPhase.logins, List.flatMap_nil, List.length_nil, List.map_nil, List.sum_nil]
    omega
  | printed type author text tstamp queue ready there =>
    simp [Client.logins, ready, there, GuiPhase.logins, GuiEvent.logins, ClientSighting.login]
  | asked dialog queue ready there =>
    simp only [Client.logins, ready, there, GuiPhase.logins, GuiEvent.logins, ClientSighting.login, List.flatMap_cons,
      List.flatMap_nil, List.append_nil, List.length_nil, List.map_nil, List.map_cons, List.sum_nil, List.sum_cons]
    omega
  | listened tstamp input sent conn ready | lost tstamp input sent ready =>
    have none := sum_eq_zero_of_calls next.listener (by decide)
    rw [Client.flatMap_received_eq_nil ClientSighting.login sent fun _ => rfl]
    simp only [Client.logins, ready, List.length_nil, List.map_nil, List.sum_nil] at none ⊢
    omega
  | left ready | unasked ready => simp [Client.logins, ready, GuiPhase.logins]
  | unconnected ready | iterated ready => simp [Client.logins, ready]
  | joinedListener =>
    by_cases unset : s.sockid = -1
    · simp [Client.logins, unset]
    · simp [Client.logins, unset, ClientSighting.login]
  | idle | joinedGui | joinedController => simp [Client.logins]

/-- In every run of the client: it writes one LOGIN at most; it writes HISTORY once, namely as soon as
the server has accepted it, and nothing else that needs the login before. -/
theorem client_conversation {cond : Client → ClientAction → Prop} {trace : List ClientSighting} {s : Client}
    (ran : Ran Client.step cond Client.init trace s) :
    (trace.flatMap ClientSighting.login).length ≤ 1 ∧ Follows NeedsAcceptance trace ∧
      trace.flatMap ClientSighting.history ++ s.controller.todo.flatMap ClientEffect.history =
        if accepted ∈ trace then [askForHistory] else [] := by
  have conversing := ran_conversing ran
  refine ⟨?_, conversing.follows, ?_⟩
  · have paid := ran.length_le ClientSighting.login Client.logins fun _ _ _ _ _ before _ taken =>
      (Client.ran_calls before).logins_le (Client.step_transition taken)
    have one : Client.init.logins = 1 := rfl
    omega
  · have passed := ran.passes (fun _ => []) ClientSighting.history Client.historyHeld
      fun _ _ _ _ _ before _ taken => (ran_conversing before).history_passes (Client.step_transition taken)
    have empty : (trace.flatMap fun _ => ([] : List Message)) = [] := by simp
    have start : Client.init.historyHeld = [askForHistory] := rfl
    rw [Passes, empty, List.append_nil, start, Client.historyHeld] at passed
    by_cases inside : accepted ∈ trace
    · rw [if_pos inside]
      simpa [conversing.accepted.mpr inside] using passed.symm
    · have outside : ¬s.loggedIn = true := fun wrong => inside (conversing.accepted.mp wrong)
      rw [if_neg inside]
      simp only [outside] at passed
      -- the HISTORY is still held, so none has gone out
      have length := congrArg List.length passed
      simp only [Bool.false_eq_true, if_false, List.length_append, List.length_singleton] at length
      rw [← List.length_eq_zero_iff, List.length_append]
      omega

theorem client_conversation_whole : ∃ s : Client,
    (wholeTrace.flatMap ClientSighting.login).length ≤ 1 ∧ Follows NeedsAcceptance wholeTrace ∧
      wholeTrace.flatMap ClientSighting.history ++ s.controller.todo.flatMap ClientEffect.history =
        if accepted ∈ wholeTrace then [askForHistory] else [] := by
  obtain ⟨s, ran, _⟩ := wholeTalk_ran
  exact ⟨s, client_conversation ran⟩

end AcosChat

import AcosChat.Client.Steps

/-!
# Who calls what

The calls that the handlers of each thread can make. Whatever a thread has yet to do is one of
these, in every run.
-/
namespace AcosChat

open Store Run Bytes

/-- The calls of a thread's handlers. -/
inductive ClientCall : ClientThread → ClientEffect → Prop
  | internal (who : ClientThread) (text : Block) (tstamp : UInt64) : ClientCall who (internalMessage text tstamp)
  | listLine (text : Block) (tstamp : Nat) :
      ClientCall .controller (.toGui (.displayParsedMessage messageServerList none text tstamp))
  | controllerExit : ClientCall .controller .exitController
  | history : ClientCall .controller (.write askForHistory)
  | regular (text : Block) : ClientCall .controller (.write (sendMessageToServerJob text))
  | line (text : Block) : ClientCall .gui (.toController (.sendMessageToServer text))
  | guiExit : ClientCall .gui .exitController
  | dialog (dialog : Dialog) (other : dialog ≠ .serverAddr) : ClientCall .gui (.toGui (.readinput dialog))
  | login (login password : Block) : ClientCall .gui (.write (loginCallbackSuccess login password))
  | userlist : ClientCall .gui (.write askForUserlist)
  | kick (uid : Int32) (reason : Block) : ClientCall .gui (.write (getKickReasonSuccess uid reason))
  | event (evt : ClientEvent) : ClientCall .listener evt.effect
  | hangup : ClientCall .listener (.toController .hangup)

/-- The first call of the controller's thread. -/
def askServerAddr : ClientEffect := .toGui (.readinput .serverAddr)

/-- What the threads have left are calls of their handlers, but for the controller's first. -/
structure Client.Calls (s : Client) : Prop where
  controller : ∀ effect ∈ s.controller.todo, effect = askServerAddr ∨ ClientCall .controller effect
  gui : ∀ effect ∈ s.gui.todo, ClientCall .gui effect
  listener : ∀ effect ∈ s.listener.todo, ClientCall .listener effect

/-! ### The callbacks of the dialogs -/

section Dialogs

variable (net : Network) (tstamp : UInt64) (str : Block) (sockid : Int32) (pairs : Pairs)

/-- What the callback of a dialog that has been answered leaves. -/
inductive DialogSucceeds : Dialog → CalledBack → Prop
  | unreachable : DialogSucceeds .serverAddr (getServerAddrCallbackFailure tstamp, sockid, pairs)
  | connected (sockid' : Int32)
      (reached : connectToServer net (splitAddr str).1 (splitAddr str).2 = some sockid') :
      DialogSucceeds .serverAddr
        ([.toGui (.readinput (.username pairs.next))], sockid', (pairs.alloc none).2)
  | username (env : Nat) (pairs' : Pairs) (modified : pairs.modify env (fun _ => some str) = some pairs') :
      DialogSucceeds (.username env) ([.toGui (.readinput (.password env))], sockid, pairs')
  | password (env : Nat) (login : Block) (pairs' : Pairs) (read : pairs.read env = some (some login))
      (freed : pairs.free env = some pairs') :
      DialogSucceeds (.password env) ([.write (loginCallbackSuccess login str)], sockid, pairs')
  | kickUid : DialogSucceeds .kickUid
      ([.toGui (.readinput (.kickReason pairs.next))], sockid, (pairs.alloc (some str)).2)
  | kickReason (env : Nat) (uidStr : Block) (pairs' : Pairs) (read : pairs.read env = some (some uidStr))
      (freed : pairs.free env = some pairs') :
      DialogSucceeds (.kickReason env) ([.write (getKickReasonSuccess (atoi uidStr) str)], sockid, pairs')

/-- What the callback of a dialog that has been closed leaves. -/
inductive DialogFails : Dialog → List ClientEffect × Pairs → Prop
  | serverAddr : DialogFails .serverAddr (getServerAddrCallbackFailure tstamp, pairs)
  | username (env : Nat) (pairs' : Pairs) (freed : pairs.free env = some pairs') :
      DialogFails (.username env)
        ([internalMessage (ascii "Cannot login, please restart client") tstamp, .exitController], pairs')
  | password (env : Nat) (pairs' : Pairs) (freed : pairs.free env = some pairs') :
      DialogFails (.password env)
        ([internalMessage (ascii "Cannot login, please restart client") tstamp, .exitController], pairs')
  | kickUid : DialogFails .kickUid ([], pairs)
  | kickReason (env : Nat) (pairs' : Pairs) (freed : pairs.free env = some pairs') :
      DialogFails (.kickReason env) ([], pairs')

variable {net tstamp str sockid pairs}

theorem Dialog.success_cases {dialog : Dialog} {left : CalledBack}
    (ran : dialog.success net tstamp str sockid pairs = some left) :
    DialogSucceeds net tstamp str sockid pairs dialog left := by
  cases dialog with
  | serverAddr =>
    simp only [Dialog.success, getServerAddrCallbackSuccess, Option.some.injEq] at ran
    split at ran
    next =>
      cases ran
      exact .unreachable
    next sockid' reached =>
      cases ran
      exact .connected sockid' reached
  | username env =>
    simp only [Dialog.success, getUsernameCallbackSuccess, Option.bind_eq_bind, Option.bind_eq_some_iff,
      Option.map_eq_some_iff] at ran
    obtain ⟨_, ⟨pairs', modified, rfl⟩, same⟩ := ran
    cases same
    exact .username env pairs' modified
  | password env =>
    simp only [Dialog.success, passwordCallbackSuccess, Option.bind_eq_bind, Option.bind_eq_some_iff] at ran
    obtain ⟨_, ⟨_, read, login, rfl, pairs', freed, ran⟩, same⟩ := ran
    cases ran
    cases same
    exact .password env login pairs' read freed
  | kickUid =>
    cases ran
    exact .kickUid
  | kickReason env =>
    simp only [Dialog.success, kickReasonCallbackSuccess, Option.bind_eq_bind, Option.bind_eq_some_iff] at ran
    obtain ⟨_, ⟨_, read, uidStr, rfl, pairs', freed, ran⟩, same⟩ := ran
    cases ran
    cases same
    exact .kickReason env uidStr pairs' read freed

theorem Dialog.failure_cases {dialog : Dialog} {left : List ClientEffect × Pairs}
    (ran : dialog.failure tstamp pairs = some left) : DialogFails tstamp pairs dialog left := by
  cases dialog with
  | serverAddr =>
    cases ran
    exact .serverAddr
  | username env =>
    obtain ⟨pairs', freed, rfl⟩ := Option.map_eq_some_iff.mp ran
    exact .username env pairs' freed
  | password env =>
    obtain ⟨pairs', freed, rfl⟩ := Option.map_eq_some_iff.mp ran
    exact .password env pairs' freed
  | kickUid =>
    cases ran
    exact .kickUid
  | kickReason env =>
    obtain ⟨pairs', freed, rfl⟩ := Option.map_eq_some_iff.mp ran
    exact .kickReason env pairs' freed

end Dialogs

/-! ### The handlers -/

section Handlers

variable {tstamp : UInt64} {str : Block} {sockid : Int32} {pairs : Pairs} {todo : List ClientEffect}

/-- A text of the client, and the end of the controller. -/
theorem exit_calls (who : ClientThread) (exits : ClientCall who .exitController) (text : Block) :
    ∀ effect ∈ [internalMessage text tstamp, .exitController], ClientCall who effect := by
  intro effect member
  simp only [List.mem_cons, List.not_mem_nil, or_false] at member
  rcases member with rfl | rfl
  · exact .internal who text tstamp
  · exact exits

theorem Dialog.success_calls {net : Network} {dialog : Dialog} {sockid' : Int32} {pairs' : Pairs}
    (ran : dialog.success net tstamp str sockid pairs = some (todo, sockid', pairs')) :
    ∀ effect ∈ todo, ClientCall .gui effect := by
  intro effect member
  cases Dialog.success_cases ran with
  | unreachable => exact exit_calls .gui .guiExit _ effect member
  | connected | username | kickUid =>
    rw [List.mem_singleton.mp member]
    exact .dialog _ nofun
  | password =>
    rw [List.mem_singleton.mp member]
    exact .login _ _
  | kickReason =>
    rw [List.mem_singleton.mp member]
    exact .kick _ _

theorem Dialog.failure_calls {dialog : Dialog} {pairs' : Pairs}
    (ran : dialog.failure tstamp pairs = some (todo, pairs')) : ∀ effect ∈ todo, ClientCall .gui effect := by
  intro effect member
  cases Dialog.failure_cases ran with
  | serverAddr | username | password => exact exit_calls .gui .guiExit _ effect member
  | kickUid | kickReason => cases member

theorem Key.calls_calls {key : Key} (calls : key.calls tstamp = some todo) : ∀ effect ∈ todo, ClientCall .gui effect := by
  intro effect member
  cases key with
  | closeApp =>
    cases calls
    cases member
  | enter field =>
    obtain ⟨text, _, rfl⟩ := Option.map_eq_some_iff.mp calls
    rw [List.mem_singleton.mp member]
    exact .line text
  | printHelp =>
    cases calls
    rw [List.mem_singleton.mp member]
    exact .internal .gui _ _
  | listUsers =>
    cases calls
    rw [List.mem_singleton.mp member]
    exact .userlist
  | kickUsers =>
    cases calls
    rw [List.mem_singleton.mp member]
    exact .dialog _ nofun
  | other =>
    cases calls
    cases member

end Handlers

section Controller

variable {tstamp : Nat → UInt64} {sockid : Int32} {loggedIn loggedIn' : Bool} {pairs pairs' : Pairs}
  {todo : List ClientEffect}

/-- Each line of LIST is a text of type `MESSAGE_SERVER_LIST`. -/
theorem listEventHandler_lines {msg : Message} {lines : List ClientEvent}
    (ran : listEventHandler tstamp msg = some lines) : ∀ line ∈ lines, ∃ text tstamp,
      line = .displayParsedMessage messageServerList none text tstamp := by
  simp only [listEventHandler, Option.bind_eq_bind, Option.bind_eq_some_iff, Option.some.injEq] at ran
  obtain ⟨entries, _, rfl⟩ := ran
  intro line member
  obtain ⟨_, _, rfl⟩ := List.mem_map.mp member
  exact ⟨_, _, rfl⟩

theorem controllerHandler_calls {evt : ControlEvent}
    (ran : controllerHandler tstamp sockid loggedIn pairs evt = some (todo, loggedIn', pairs')) :
    ∀ effect ∈ todo, ClientCall .controller effect := by
  intro effect member
  cases evt with
  | exit =>
    cases ran
    cases member
  | sendMessageToServer text =>
    cases ran
    rw [sendMessageToServerJobHandler] at member
    split at member
    · rw [List.mem_singleton.mp member]
      exact .internal .controller _ _
    · rw [List.mem_singleton.mp member]
      exact .regular text
  | hangup =>
    cases ran
    exact exit_calls .controller .controllerExit _ effect member
  | kick reason =>
    cases ran
    exact exit_calls .controller .controllerExit _ effect member
  | list msg =>
    obtain ⟨lines, shown, same⟩ := Option.map_eq_some_iff.mp ran
    cases same
    obtain ⟨line, inside, here⟩ := List.mem_filterMap.mp member
    obtain ⟨text, tstamp, rfl⟩ := listEventHandler_lines shown line inside
    cases here
    exact .listLine text tstamp
  | status status =>
    simp only [controllerHandler, statusEventHandler] at ran
    split at ran
    next =>
      split at ran
      next =>
        cases ran
        rw [List.mem_singleton.mp member]
        exact .history
      next =>
        obtain ⟨_, failed, same⟩ := Option.map_eq_some_iff.mp ran
        cases same
        obtain ⟨_, _, same⟩ := Option.map_eq_some_iff.mp failed
        cases same
        exact exit_calls .controller .controllerExit _ effect member
    next =>
      cases ran
      rw [List.mem_singleton.mp member]
      exact .internal .controller _ _

end Controller

theorem ListenerSent.effect_calls (tstamp : UInt64) (sent : ListenerSent) : ClientCall .listener (sent.effect tstamp) := by
  cases sent with
  | event evt => exact .event evt
  | hangup => exact .hangup
  | internal text => exact .internal .listener text tstamp

/-! ### The threads -/

namespace Client

variable {s s' : Client} {did : List ClientSighting}

@[simp] theorem perform_controller (effect : ClientEffect) : (s.perform effect).2.controller = s.controller := by
  cases effect <;> rfl

@[simp] theorem perform_gui (effect : ClientEffect) : (s.perform effect).2.gui = s.gui := by
  cases effect <;> rfl

@[simp] theorem perform_listener (effect : ClientEffect) : (s.perform effect).2.listener = s.listener := by
  cases effect <;> rfl

/-- The next call of a thread. -/
theorem Calls.next (calls : s.Calls) {who : ClientThread} {effect : ClientEffect} {todo : List ClientEffect}
    (there : s.todo who = effect :: todo) : effect = askServerAddr ∨ ClientCall who effect := by
  have member : effect ∈ s.todo who := by
    rw [there]
    exact List.mem_cons_self
  cases who with
  | controller => exact calls.controller effect member
  | gui => exact .inr (calls.gui effect member)
  | listener => exact .inr (calls.listener effect member)

/-! What is seen of some steps is nothing for those who look for something else. -/

section Unseen

variable {β : Type} (f : ClientSighting → List β)

theorem flatMap_perform_eq_nil (effect : ClientEffect) (wrote : ∀ sockid msg, f (.wrote sockid msg) = [])
    (unsent : ∀ msg, f (.unsent msg) = []) : (s.perform effect).1.flatMap f = [] := by
  cases effect with
  | write msg =>
    simp only [perform]
    split <;> simp [wrote, unsent]
  | _ => rfl

theorem flatMap_refusal_eq_nil (evt : ControlEvent) (none : ∀ text, f (.refused text) = []) :
    (s.refusal evt).flatMap f = [] := by
  cases evt with
  | sendMessageToServer text =>
    simp only [refusal]
    split <;> simp [none]
  | _ => rfl

theorem flatMap_typed_eq_nil (todo : List ClientEffect) (none : ∀ text, f (.typed text) = []) :
    (todo.filterMap ClientEffect.typed).flatMap f = [] := by
  rw [List.flatMap_eq_nil_iff]
  intro sight member
  obtain ⟨effect, _, typed⟩ := List.mem_filterMap.mp member
  unfold ClientEffect.typed at typed
  split at typed
  · cases typed
    exact none _
  · cases typed

theorem flatMap_received_eq_nil (sent : List ListenerSent) (none : ∀ sent, f (.received sent) = []) :
    (sent.map ClientSighting.received).flatMap f = [] := by
  rw [List.flatMap_eq_nil_iff]
  intro sight member
  obtain ⟨sent, _, rfl⟩ := List.mem_map.mp member
  exact none sent

end Unseen

theorem Calls.step (calls : s.Calls) (transition : ClientTransition s did s') : s'.Calls := by
  cases transition with
  | performed who effect todo there =>
    have rest : ∀ effect' ∈ todo, effect' ∈ s.todo who := by
      intro effect' member
      rw [there]
      exact List.mem_cons_of_mem _ member
    cases who with
    | controller =>
      exact ⟨by simpa [setTodo] using fun e member => calls.controller e (rest e member),
        by simpa [setTodo] using calls.gui, by simpa [setTodo] using calls.listener⟩
    | gui =>
      exact ⟨by simpa [setTodo] using calls.controller,
        by simpa [setTodo] using fun e member => calls.gui e (rest e member),
        by simpa [setTodo] using calls.listener⟩
    | listener =>
      exact ⟨by simpa [setTodo] using calls.controller, by simpa [setTodo] using calls.gui,
        by simpa [setTodo] using fun e member => calls.listener e (rest e member)⟩
  | idle | joinedGui | joinedController | joinedListener => exact ⟨calls.controller, calls.gui, calls.listener⟩
  | exited => exact ⟨nofun, calls.gui, calls.listener⟩
  | handled tstamp evt queue todo loggedIn pairs there other ready ran =>
    exact ⟨fun effect member => .inr (controllerHandler_calls ran effect member), calls.gui, calls.listener⟩
  | left | unasked | printed | asked => exact ⟨calls.controller, nofun, calls.listener⟩
  | pressed tstamp key todo ready pressed => exact ⟨calls.controller, Key.calls_calls pressed, calls.listener⟩
  | entered dialog net tstamp str todo sockid pairs ready ran =>
    exact ⟨calls.controller, Dialog.success_calls ran, calls.listener⟩
  | cancelled dialog tstamp todo pairs ready ran =>
    exact ⟨calls.controller, Dialog.failure_calls ran, calls.listener⟩
  | unconnected | iterated => exact ⟨calls.controller, calls.gui, nofun⟩
  | listened | lost =>
    refine ⟨calls.controller, calls.gui, ?_⟩
    intro effect member
    obtain ⟨sent, _, rfl⟩ := List.mem_map.mp member
    exact sent.effect_calls _

theorem init_calls : Client.init.Calls := by
  refine ⟨?_, nofun, nofun⟩
  intro effect member
  exact .inl (List.mem_singleton.mp member)

/-- In every run of the client. -/
theorem ran_calls {cond : Client → ClientAction → Prop} {trace : List ClientSighting}
    (ran : Ran Client.step cond Client.init trace s) : s.Calls :=
  @Ran.invariant _ _ _ _ _ _ (fun _ s => s.Calls) init_calls
    (fun _ _ _ _ _ calls _ taken => calls.step (step_transition taken)) _ _ ran

end Client

end AcosChat

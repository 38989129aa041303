import AcosChat.Client.Model

/-!
# The steps of the client

The state of the client and what each of its threads does next. Every thread has the calls that
its handler has yet to make; a thread that has none left goes on with its loop.
-/
namespace AcosChat

open Store Run Bytes

/-! ### The state -/

/-- A thread in its loop, with the calls that are left of its handler. -/
structure Thread (φ : Type) where
  phase : φ
  todo : List ClientEffect
deriving DecidableEq, Repr

inductive GuiPhase where
  /-- Before `wgetch`. -/
  | key
  /-- Before `event_loop_iteration`. -/
  | iterate
  /-- In the loop of `readinput_event_handler`. -/
  | dialog (dialog : Dialog)
  | ended
deriving DecidableEq, Repr

inductive PollPhase where
  /-- Before `poll`. -/
  | turn
  /-- Before `event_loop_iteration`. -/
  | iterate
  | ended
deriving DecidableEq, Repr

/-- The next `pthread_join` of `main`. -/
inductive MainPhase where
  | joinGui
  | joinController
  | joinListener
  | done
deriving DecidableEq, Repr

structure Client where
  sockid : Int32
  loggedIn : Bool
  pairs : Pairs
  controllerQueue : List ControlEvent
  guiQueue : List GuiEvent
  /-- EXIT is in the listener's queue; nothing else is sent there. -/
  listenerExit : Bool
  /-- Its phase is whether its event loop goes on. -/
  controller : Thread Bool
  gui : Thread GuiPhase
  listener : Thread PollPhase
  conn : Connection
  main : MainPhase

inductive ClientThread where
  | controller
  | gui
  | listener
deriving DecidableEq, Repr

inductive ClientSighting where
  /-- A line is read from the input field. -/
  | typed (text : Block)
  /-- The listener has something to send. -/
  | received (sent : ListenerSent)
  /-- The controller has taken an event. -/
  | took (evt : ControlEvent)
  /-- A line is not sent to the server. -/
  | refused (text : Block)
  | wrote (sockid : Int32) (msg : Message)
  /-- There was no socket to write to. -/
  | unsent (msg : Message)
  /-- A dialog is opened, with this prompt; `passwd` hides what is typed. -/
  | asked (prompt : Block) (passwd : Bool)
  /-- `gui_print_message` is called. -/
  | printed (type : UInt8) (author : Option Block) (text : Block) (tstamp : Nat)
  /-- `client_controller_destroy` sends this buffer and closes the socket. -/
  | closed (sockid : Int32) (buf : Block)
  | crashed
deriving DecidableEq, Repr

namespace Client

variable (s : Client)

/-- The threads have been created; the first statement of the controller is still to come. -/
def init : Client where
  sockid := -1
  loggedIn := false
  pairs := Store.empty
  controllerQueue := []
  guiQueue := []
  listenerExit := false
  controller := ⟨true, [.toGui (.readinput .serverAddr)]⟩
  gui := ⟨.key, []⟩
  listener := ⟨.turn, []⟩
  conn := clientListenerInit
  main := .joinGui

def todo : ClientThread → List ClientEffect
  | .controller => s.controller.todo
  | .gui => s.gui.todo
  | .listener => s.listener.todo

def setTodo (who : ClientThread) (todo : List ClientEffect) : Client :=
  match who with
  | .controller => { s with controller := ⟨s.controller.phase, todo⟩ }
  | .gui => { s with gui := ⟨s.gui.phase, todo⟩ }
  | .listener => { s with listener := ⟨s.listener.phase, todo⟩ }

/-- A call of a handler. -/
def perform : ClientEffect → List ClientSighting × Client
  | .toController evt => ([], { s with controllerQueue := s.controllerQueue ++ [evt] })
  | .exitController => ([], { s with controllerQueue := .exit :: s.controllerQueue })
  | .toGui evt => ([], { s with guiQueue := s.guiQueue ++ [evt] })
  -- send() fails with EBADF.
  | .write msg => ([if s.sockid = -1 then .unsent msg else .wrote s.sockid msg], s)

/-- A line that the handler does not send to the server. -/
def refusal : ControlEvent → List ClientSighting
  | .sendMessageToServer text => if s.sockid = -1 ∨ s.loggedIn = false then [.refused text] else []
  | _ => []

end Client

/-- A line that is on its way to the controller. -/
def ClientEffect.typed : ClientEffect → Option ClientSighting
  | .toController (.sendMessageToServer text) => some (.typed text)
  | _ => none

/-! ### The steps -/

inductive ClientAction where
  /-- The next call of a handler. -/
  | perform (who : ClientThread)
  /-- `event_loop_iteration` of the controller. -/
  | controllerIterate (tstamp : Nat → UInt64)
  | key (key : Key) (tstamp : UInt64)
  /-- `event_loop_iteration` of the GUI. -/
  | guiIterate
  | answer (answer : DialogEnd) (net : Network) (tstamp : UInt64)
  | listen (poll : ClientPoll) (wire : Wire) (tstamp : UInt64)
  /-- `event_loop_iteration` of the listener. -/
  | listenerIterate
  | main

/-- What is left of the client after the callback of a dialog. -/
def Client.calledBack (s : Client) : Option CalledBack → List ClientSighting × Option Client
  | none => ([.crashed], none)
  | some (todo, sockid, pairs) => ([], some { s with gui := ⟨.key, todo⟩, sockid := sockid, pairs := pairs })

def Client.step : Step Client ClientAction ClientSighting
  | s, .perform who =>
    match s.todo who with
    | [] => none
    | effect :: todo =>
      let (did, s) := (s.setTodo who todo).perform effect
      some (did, some s)
  | s, .controllerIterate tstamp =>
    match s.controller, s.controllerQueue with
    | ⟨true, []⟩, [] => some ([], some s)
    | ⟨true, []⟩, .exit :: queue =>
      some ([.took .exit], some { s with controllerQueue := queue, controller := ⟨false, []⟩ })
    | ⟨true, []⟩, evt :: queue =>
      match controllerHandler tstamp s.sockid s.loggedIn s.pairs evt with
      | none => some ([.took evt, .crashed], none)
      | some (todo, loggedIn, pairs) => some (.took evt :: s.refusal evt, some
          { s with controllerQueue := queue, controller := ⟨true, todo⟩, loggedIn := loggedIn, pairs := pairs })
    | _, _ => none
  | s, .key key tstamp =>
    match s.gui, key with
    | ⟨.key, []⟩, .closeApp => some ([], some { s with gui := ⟨.ended, []⟩ })
    | ⟨.key, []⟩, key => (key.calls tstamp).map fun todo =>
      (todo.filterMap ClientEffect.typed, some { s with gui := ⟨.iterate, todo⟩ })
    | _, _ => none
  | s, .guiIterate =>
    match s.gui, s.guiQueue with
    | ⟨.iterate, []⟩, [] => some ([], some { s with gui := ⟨.key, []⟩ })
    | ⟨.iterate, []⟩, .displayParsedMessage type author text tstamp :: queue =>
      some ([.printed type author text tstamp], some { s with guiQueue := queue, gui := ⟨.key, []⟩ })
    | ⟨.iterate, []⟩, .readinput dialog :: queue =>
      some ([.asked dialog.prompt dialog.passwd], some { s with guiQueue := queue, gui := ⟨.dialog dialog, []⟩ })
    | _, _ => none
  | s, .answer answer net tstamp =>
    match s.gui, answer with
    | ⟨.dialog dialog, []⟩, .enter field =>
      (stripField field).map fun str => s.calledBack (dialog.success net tstamp str s.sockid s.pairs)
    | ⟨.dialog dialog, []⟩, .closeApp =>
      some (s.calledBack ((dialog.failure tstamp s.pairs).map fun (todo, pairs) => (todo, s.sockid, pairs)))
    | _, _ => none
  | s, .listen poll wire tstamp =>
    match s.listener with
    | ⟨.turn, []⟩ =>
      if s.sockid = -1 then some ([], some { s with listener := ⟨.iterate, []⟩ })
      else match clientListenerTurn s.conn (poll, wire) with
        | none => none
        | some (sent, rest) =>
          let todo := sent.map fun sent => sent.effect tstamp
          some (sent.map .received, some (match rest with
            | some conn => { s with conn := conn, listener := ⟨.iterate, todo⟩ }
            | none => { s with listener := ⟨.ended, todo⟩ }))
    | _ => none
  | s, .listenerIterate =>
    match s.listener with
    | ⟨.iterate, []⟩ => some ([], some { s with listener := ⟨if s.listenerExit then .ended else .turn, []⟩ })
    | _ => none
  | s, .main =>
    match s.main with
    | .joinGui =>
      if s.gui = ⟨.ended, []⟩ then
        some ([], some { s with controllerQueue := .exit :: s.controllerQueue, main := .joinController })
      else none
    | .joinController =>
      if s.controller = ⟨false, []⟩ then some ([], some { s with listenerExit := true, main := .joinListener })
      else none
    | .joinListener =>
      if s.listener = ⟨.ended, []⟩ then
        some (if s.sockid = -1 then [] else [.closed s.sockid logoutBuffer], some { s with main := .done })
      else none
    | .done => none

/-- The ways in which a step can go that leaves a client. -/
inductive ClientTransition (s : Client) : List ClientSighting → Client → Prop
  | performed (who : ClientThread) (effect : ClientEffect) (todo : List ClientEffect)
      (there : s.todo who = effect :: todo) :
      ClientTransition s ((s.setTodo who todo).perform effect).1 ((s.setTodo who todo).perform effect).2
  | idle (ready : s.controller = ⟨true, []⟩) : ClientTransition s [] s
  | exited (queue : List ControlEvent) (there : s.controllerQueue = .exit :: queue)
      (ready : s.controller = ⟨true, []⟩) :
      ClientTransition s [.took .exit] { s with controllerQueue := queue, controller := ⟨false, []⟩ }
  | handled (tstamp : Nat → UInt64) (evt : ControlEvent) (queue : List ControlEvent)
      (todo : List ClientEffect) (loggedIn : Bool) (pairs : Pairs) (there : s.controllerQueue = evt :: queue)
      (other : evt ≠ .exit) (ready : s.controller = ⟨true, []⟩)
      (ran : controllerHandler tstamp s.sockid s.loggedIn s.pairs evt = some (todo, loggedIn, pairs)) :
      ClientTransition s (.took evt :: s.refusal evt)
        { s with controllerQueue := queue, controller := ⟨true, todo⟩, loggedIn := loggedIn, pairs := pairs }
  | left (ready : s.gui = ⟨.key, []⟩) : ClientTransition s [] { s with gui := ⟨.ended, []⟩ }
  | pressed (tstamp : UInt64) (key : Key) (todo : List ClientEffect) (ready : s.gui = ⟨.key, []⟩)
      (calls : key.calls tstamp = some todo) :
      ClientTransition s (todo.filterMap ClientEffect.typed) { s with gui := ⟨.iterate, todo⟩ }
  | unasked (ready : s.gui = ⟨.iterate, []⟩) : ClientTransition s [] { s with gui := ⟨.key, []⟩ }
  | printed (type : UInt8) (author : Option Block) (text : Block) (tstamp : Nat) (queue : List GuiEvent)
      (ready : s.gui = ⟨.iterate, []⟩)
      (there : s.guiQueue = .displayParsedMessage type author text tstamp :: queue) :
      ClientTransition s [.printed type author text tstamp] { s with guiQueue := queue, gui := ⟨.key, []⟩ }
  | asked (dialog : Dialog) (queue : List GuiEvent) (ready : s.gui = ⟨.iterate, []⟩)
      (there : s.guiQueue = .readinput dialog :: queue) :
      ClientTransition s [.asked dialog.prompt dialog.passwd] { s with guiQueue := queue, gui := ⟨.dialog dialog, []⟩ }
  | entered (dialog : Dialog) (net : Network) (tstamp : UInt64) (str : Block) (todo : List ClientEffect)
      (sockid : Int32) (pairs : Pairs) (ready : s.gui = ⟨.dialog dialog, []⟩)
      (ran : dialog.success net tstamp str s.sockid s.pairs = some (todo, sockid, pairs)) :
      ClientTransition s [] { s with gui := ⟨.key, todo⟩, sockid := sockid, pairs := pairs }
  | cancelled (dialog : Dialog) (tstamp : UInt64) (todo : List ClientEffect) (pairs : Pairs)
      (ready : s.gui = ⟨.dialog dialog, []⟩) (ran : dialog.failure tstamp s.pairs = some (todo, pairs)) :
      ClientTransition s [] { s with gui := ⟨.key, todo⟩, pairs := pairs }
  | unconnected (ready : s.listener = ⟨.turn, []⟩) (unset : s.sockid = -1) :
      ClientTransition s [] { s with listener := ⟨.iterate, []⟩ }
  | listened (tstamp : UInt64) (input : ClientPoll × Wire) (sent : List ListenerSent) (conn : Connection)
      (ready : s.listener = ⟨.turn, []⟩) (connected : s.sockid ≠ -1)
      (turn : clientListenerTurn s.conn input = some (sent, some conn)) :
      ClientTransition s (sent.map .received)
        { s with conn := conn, listener := ⟨.iterate, sent.map fun sent => sent.effect tstamp⟩ }
  | lost (tstamp : UInt64) (input : ClientPoll × Wire) (sent : List ListenerSent)
      (ready : s.listener = ⟨.turn, []⟩) (connected : s.sockid ≠ -1)
      (turn : clientListenerTurn s.conn input = some (sent, none)) :
      ClientTransition s (sent.map .received)
        { s with listener := ⟨.ended, sent.map fun sent => sent.effect tstamp⟩ }
  | iterated (ready : s.listener = ⟨.iterate, []⟩) :
      ClientTransition s [] { s with listener := ⟨if s.listenerExit then .ended else .turn, []⟩ }
  | joinedGui (phase : s.main = .joinGui) (ended : s.gui = ⟨.ended, []⟩) :
      ClientTransition s [] { s with controllerQueue := .exit :: s.controllerQueue, main := .joinController }
  | joinedController (phase : s.main = .joinController) (ended : s.controller = ⟨false, []⟩) :
      ClientTransition s [] { s with listenerExit := true, main := .joinListener }
  | joinedListener (phase : s.main = .joinListener) (ended : s.listener = ⟨.ended, []⟩) :
      ClientTransition s (if s.sockid = -1 then [] else [.closed s.sockid logoutBuffer]) { s with main := .done }

theorem Client.calledBack_eq_some {s s' : Client} {back : Option CalledBack} {did : List ClientSighting}
    (called : s.calledBack back = (did, some s')) : did = [] ∧ ∃ todo sockid pairs,
      back = some (todo, sockid, pairs) ∧ s' = { s with gui := ⟨.key, todo⟩, sockid := sockid, pairs := pairs } := by
  cases back with
  | none => cases called
  | some left =>
    obtain ⟨todo, sockid, pairs⟩ := left
    cases called
    exact ⟨rfl, todo, sockid, pairs, rfl, rfl⟩

theorem Client.step_transition {s s' : Client} {action : ClientAction} {did : List ClientSighting}
    (taken : Client.step s action = some (did, some s')) : ClientTransition s did s' := by
  cases action with
  | perform who =>
    simp only [Client.step] at taken
    split at taken
    next => cases taken
    next effect todo there =>
      cases taken
      exact .performed who effect todo there
  | controllerIterate tstamp =>
    simp only [Client.step] at taken
    split at taken
    next ready _ =>
      cases taken
      exact .idle ready
    next queue ready there =>
      cases taken
      exact .exited queue there ready
    next evt queue other ready there =>
      split at taken
      next => cases taken
      next todo loggedIn pairs ran =>
        cases taken
        exact .handled tstamp evt queue todo loggedIn pairs there (fun same => other same) ready ran
    next => cases taken
  | key key tstamp =>
    simp only [Client.step] at taken
    split at taken
    next ready =>
      cases taken
      exact .left ready
    next ready _ =>
      obtain ⟨todo, calls, same⟩ := Option.map_eq_some_iff.mp taken
      cases same
      exact .pressed tstamp _ todo ready calls
    next => cases taken
  | guiIterate =>
    simp only [Client.step] at taken
    split at taken
    next ready _ =>
      cases taken
      exact .unasked ready
    next type author text tstamp queue ready there =>
      cases taken
      exact .printed type author text tstamp queue ready there
    next dialog queue ready there =>
      cases taken
      exact .asked dialog queue ready there
    next => cases taken
  | answer answer net tstamp =>
    simp only [Client.step] at taken
    split at taken
    next dialog field ready =>
      obtain ⟨str, _, called⟩ := Option.map_eq_some_iff.mp taken
      obtain ⟨rfl, todo, sockid, pairs, ran, rfl⟩ := Client.calledBack_eq_some called
      exact .entered dialog net tstamp str todo sockid pairs ready ran
    next dialog ready =>
      obtain ⟨rfl, todo, sockid, pairs, ran, rfl⟩ := Client.calledBack_eq_some (Option.some.inj taken)
      obtain ⟨⟨todo, pairs⟩, failed, same⟩ := Option.map_eq_some_iff.mp ran
      cases same
      exact .cancelled dialog tstamp todo pairs ready failed
    next => cases taken
  | listen poll wire tstamp =>
    simp only [Client.step] at taken
    split at taken
    next ready =>
      split at taken
      next unset =>
        cases taken
        exact .unconnected ready unset
      next connected =>
        split at taken
        next => cases taken
        next sent rest turn =>
          cases rest with
          | none =>
            cases taken
            exact .lost tstamp (poll, wire) sent ready connected turn
          | some conn =>
            cases taken
            exact .listened tstamp (poll, wire) sent conn ready connected turn
    next => cases taken
  | listenerIterate =>
    simp only [Client.step] at taken
    split at taken
    next ready =>
      cases taken
      exact .iterated ready
    next => cases taken
  | main =>
    simp only [Client.step] at taken
    split at taken
    next phase =>
      split at taken
      next ended =>
        cases taken
        exact .joinedGui phase ended
      next => cases taken
    next phase =>
      split at taken
      next ended =>
        cases taken
        exact .joinedController phase ended
      next => cases taken
    next phase =>
      split at taken
      next ended =>
        cases taken
        exact .joinedListener phase ended
      next => cases taken
    next => cases taken

/-- A step that leaves no client is a crash, in a handler of the controller or in the callback of the
open dialog. -/
theorem Client.step_crashed {s : Client} {action : ClientAction} {did : List ClientSighting}
    (taken : Client.step s action = some (did, none)) :
    (∃ tstamp evt, did = [.took evt, .crashed] ∧
      controllerHandler tstamp s.sockid s.loggedIn s.pairs evt = none) ∨
    ∃ dialog, did = [.crashed] ∧ s.gui = ⟨.dialog dialog, []⟩ ∧
      ((∃ net tstamp str, dialog.success net tstamp str s.sockid s.pairs = none) ∨
        ∃ tstamp, dialog.failure tstamp s.pairs = none) := by
  cases action with
  | controllerIterate tstamp =>
    simp only [Client.step] at taken
    split at taken
    next => cases taken
    next => cases taken
    next evt queue _ _ _ =>
      split at taken
      next failed =>
        cases taken
        exact .inl ⟨tstamp, evt, rfl, failed⟩
      next => cases taken
    next => cases taken
  | answer answer net tstamp =>
    simp only [Client.step] at taken
    split at taken
    next dialog field ready =>
      obtain ⟨str, _, called⟩ := Option.map_eq_some_iff.mp taken
      cases back : dialog.success net tstamp str s.sockid s.pairs with
      | none =>
        rw [back] at called
        cases called
        exact .inr ⟨dialog, rfl, ready, .inl ⟨net, tstamp, str, back⟩⟩
      | some left =>
        rw [back] at called
        cases called
    next dialog ready =>
      cases back : dialog.failure tstamp s.pairs with
      | none =>
        rw [back] at taken
        cases taken
        exact .inr ⟨dialog, rfl, ready, .inr ⟨tstamp, back⟩⟩
      | some left =>
        rw [back] at taken
        cases taken
    next => cases taken
  | perform who =>
    simp only [Client.step] at taken
    split at taken <;> cases taken
  | key key tstamp =>
    simp only [Client.step] at taken
    split at taken
    next => cases taken
    next =>
      obtain ⟨_, _, same⟩ := Option.map_eq_some_iff.mp taken
      cases same
    next => cases taken
  | guiIterate | listenerIterate =>
    simp only [Client.step] at taken
    split at taken <;> cases taken
  | listen poll wire tstamp =>
    simp only [Client.step] at taken
    split at taken
    next =>
      split at taken
      next => cases taken
      next =>
        split at taken <;> cases taken
    next => cases taken
  | main =>
    simp only [Client.step] at taken
    split at taken
    next => split at taken <;> cases taken
    next => split at taken <;> cases taken
    next => split at taken <;> cases taken
    next => cases taken

theorem ClientTransition.not_crashed {s s' : Client} {did : List ClientSighting}
    (transition : ClientTransition s did s') : .crashed ∉ did := by
  cases transition with
  | performed who effect todo =>
    cases effect with
    | write msg =>
      simp only [Client.perform]
      split <;> simp
    | _ => simp [Client.perform]
  | handled tstamp evt =>
    cases evt with
    | sendMessageToServer text =>
      simp only [Client.refusal]
      split <;> simp
    | _ => simp [Client.refusal]
  | pressed tstamp key todo =>
    intro member
    obtain ⟨effect, _, typed⟩ := List.mem_filterMap.mp member
    unfold ClientEffect.typed at typed
    split at typed <;> cases typed
  | joinedListener => split <;> simp
  | _ => simp

/-! ### A whole run -/

/-- The user logs in and types a line, the server accepts, says something and kicks. -/
def wholeTalk : List ClientAction :=
  let net : Network := ⟨5, fun _ => some 1, fun _ _ => true⟩
  [.perform .controller, .key .other 0, .guiIterate, .answer (.enter [97]) net 0, .perform .gui,
    .key .other 0, .guiIterate, .answer (.enter [98]) net 0, .perform .gui,
    .key .other 0, .guiIterate, .answer (.enter [99]) net 0, .perform .gui,
    .listen .readable (wireOf [115, 0, 0, 0, 8, 0, 0, 0, 4, 0, 0, 0, 0]) 0, .perform .listener,
    .controllerIterate fun _ => 0, .perform .controller, .listenerIterate,
    .key (.enter [104, 105]) 0, .perform .gui, .controllerIterate fun _ => 0, .perform .controller,
    .listen .readable (wireOf [109, 0, 0, 0, 17, 0, 0, 0, 8, 0, 0, 0, 1, 0, 0, 0, 0, 0, 0, 0, 1, 120]) 0,
    .perform .listener, .guiIterate, .listenerIterate,
    .listen .readable (wireOf [107, 0, 0, 0, 5, 0, 0, 0, 1, 120]) 0, .perform .listener,
    .controllerIterate fun _ => 0, .perform .controller, .perform .controller, .controllerIterate fun _ => 0,
    .key .closeApp 0, .main, .main, .listenerIterate, .main]

/-- What is seen of it. -/
def wholeTrace : List ClientSighting :=
  [.asked (Dialog.prompt .serverAddr) false, .asked (Dialog.prompt (.username 0)) false,
    .asked (Dialog.prompt (.password 0)) true,
    .wrote 5 (loginCallbackSuccess [98] [99]),
    .received (.event (.status 0)), .took (.status 0), .wrote 5 askForHistory,
    .typed [104, 105], .took (.sendMessageToServer [104, 105]), .wrote 5 (sendMessageToServerJob [104, 105]),
    .received (.event (.displayParsedMessage messageServerMeta none [120] 4294967296)),
    .printed messageServerMeta none [120] 4294967296,
    .received (.event (.kick [120])), .took (.kick [120]), .took .exit, .closed 5 logoutBuffer]

theorem wholeTalk_ran : ∃ s, Ran Client.step (fun _ _ => True) Client.init wholeTrace s ∧ s.main = .done :=
  ⟨_, @ran_of_replay _ _ _ _ _ _ wholeTalk (meets_of_forall (fun _ _ => trivial) _ _) _ _ rfl, rfl⟩

end AcosChat

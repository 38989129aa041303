import AcosChat.Client.Conversation

/-!
# The lines of the chat in the client

What the server sends for the screen is printed, and what the user types is sent or refused: each
line once and in order, whatever the threads do in between.
-/
namespace AcosChat

open Store Run Bytes

/-! ### From the server to the screen -/

/-- A message of the chat, as it is printed. -/
def chatLine (type : UInt8) (author : Option Block) (text : Block) (tstamp : Nat) : List Printed :=
  if type = messageServerRegular ∨ type = messageServerHistory ∨ type = messageServerMeta then
    [guiPrintMessage type author text tstamp]
  else []

def GuiEvent.chat : GuiEvent → List Printed
  | .displayParsedMessage type author text tstamp => chatLine type author text tstamp
  | .readinput _ => []

def ClientEffect.chat : ClientEffect → List Printed
  | .toGui evt => evt.chat
  | _ => []

/-- The message of the chat that the listener has received. -/
def ClientSighting.receivedChat : ClientSighting → List Printed
  | .received (.event (.displayParsedMessage type author text tstamp)) => chatLine type author text tstamp
  | _ => []

def ClientSighting.printedChat : ClientSighting → List Printed
  | .printed type author text tstamp => chatLine type author text tstamp
  | _ => []

namespace Client

variable {s s' : Client} {did : List ClientSighting}

/-- What is received and not printed yet. -/
def chatHeld (s : Client) : List Printed :=
  s.guiQueue.flatMap GuiEvent.chat ++ s.listener.todo.flatMap ClientEffect.chat

/-- The two threads that are not the listener send no message of the chat. -/
theorem chat_eq_nil {who : ClientThread} {effect : ClientEffect}
    (call : effect = askServerAddr ∨ ClientCall who effect) (other : who ≠ .listener) : effect.chat = [] := by
  rcases call with rfl | call
  · rfl
  · cases call <;> first | rfl | exact absurd rfl other

theorem perform_chat (s : Client) (effect : ClientEffect) :
    (s.perform effect).2.guiQueue.flatMap GuiEvent.chat = s.guiQueue.flatMap GuiEvent.chat ++ effect.chat := by
  cases effect with
  | toGui evt => simp [perform, ClientEffect.chat]
  | _ => simp [perform, ClientEffect.chat]

/-- What the listener sends is the message that it has received. -/
theorem effect_chat (tstamp : UInt64) (sent : ListenerSent) :
    (sent.effect tstamp).chat = (ClientSighting.received sent).receivedChat := by
  cases sent with
  | event evt => cases evt <;> rfl
  | _ => rfl

theorem Calls.chat_passes (calls : s.Calls) (transition : ClientTransition s did s') :
    Passes ClientSighting.receivedChat ClientSighting.printedChat chatHeld s did s' := by
  cases transition with
  | performed who effect todo there =>
    rw [Passes, flatMap_perform_eq_nil _ _ (fun _ _ => rfl) fun _ => rfl,
      flatMap_perform_eq_nil _ _ (fun _ _ => rfl) fun _ => rfl, chatHeld, chatHeld, perform_chat, perform_listener]
    cases who with
    | controller =>
      have silent := chat_eq_nil (calls.next there) (by decide)
      simp [setTodo, silent]
    | gui =>
      have silent := chat_eq_nil (calls.next there) (by decide)
      simp [setTodo, silent]
    | listener =>
      have todo_eq : s.listener.todo = effect :: todo := there
      simp [setTodo, todo_eq]
  | handled tstamp evt =>
    rw [Passes, List.flatMap_cons, List.flatMap_cons, flatMap_refusal_eq_nil _ evt fun _ => rfl,
      flatMap_refusal_eq_nil _ evt fun _ => rfl]
    simp [chatHeld, ClientSighting.receivedChat, ClientSighting.printedChat]
  | pressed tstamp key todo =>
    rw [Passes, flatMap_typed_eq_nil _ todo fun _ => rfl, flatMap_typed_eq_nil _ todo fun _ => rfl]
    simp [chatHeld]
  | printed type author text tstamp queue ready there =>
    simp [Passes, chatHeld, there, GuiEvent.chat, ClientSighting.receivedChat, ClientSighting.printedChat]
  | asked dialog queue ready there =>
    simp [Passes, chatHeld, there, GuiEvent.chat, ClientSighting.receivedChat, ClientSighting.printedChat]
  | listened tstamp input sent conn ready | lost tstamp input sent ready =>
    rw [Passes, flatMap_received_eq_nil ClientSighting.printedChat sent fun _ => rfl]
    simp [chatHeld, ready, List.flatMap_map, effect_chat]
  | unconnected ready | iterated ready => simp [Passes, chatHeld, ready]
  | joinedListener =>
    by_cases unset : s.sockid = -1
    · simp [Passes, chatHeld, unset]
    · simp [Passes, chatHeld, unset, ClientSighting.receivedChat, ClientSighting.printedChat]
  | _ => simp [Passes, chatHeld, ClientSighting.receivedChat, ClientSighting.printedChat]

end Client

/-- In every run of the client the messages of the chat that it has received are those that are
printed, those in the queue of the GUI and those that the listener is about to send, in this
order: each is printed once, and none before one that was received earlier. -/
theorem chat_printed_in_order {cond : Client → ClientAction → Prop} {trace : List ClientSighting} {s : Client}
    (ran : Ran Client.step cond Client.init trace s) :
    trace.flatMap ClientSighting.receivedChat = trace.flatMap ClientSighting.printedChat ++
      (s.guiQueue.flatMap GuiEvent.chat ++ s.listener.todo.flatMap ClientEffect.chat) :=
  ran.passes _ _ Client.chatHeld fun _ _ _ _ _ before _ taken =>
    (Client.ran_calls before).chat_passes (Client.step_transition taken)

theorem chat_printed_in_order_whole : ∃ s : Client, wholeTrace.flatMap ClientSighting.receivedChat =
    wholeTrace.flatMap ClientSighting.printedChat ++
      (s.guiQueue.flatMap GuiEvent.chat ++ s.listener.todo.flatMap ClientEffect.chat) := by
  obtain ⟨s, ran, _⟩ := wholeTalk_ran
  exact ⟨s, chat_printed_in_order ran⟩

/-! ### From the keyboard to the server -/

/-- The text of a REGULAR. -/
def Message.regularText (msg : Message) : List Block :=
  match msg.tokens with
  | [.cStr mem] => if msg.msgType = messageClientRegular then [mem.dropLast] else []
  | _ => []

def ControlEvent.line : ControlEvent → List Block
  | .sendMessageToServer text => [text]
  | _ => []

def ClientEffect.line : ClientEffect → List Block
  | .toController evt => evt.line
  | _ => []

def ClientEffect.regular : ClientEffect → List Block
  | .write msg => msg.regularText
  | _ => []

def ClientSighting.typedLine : ClientSighting → List Block
  | .typed text => [text]
  | _ => []

/-- A line of which the user is told that it is not sent, or that is sent. -/
def ClientSighting.fate : ClientSighting → List Block
  | .refused text => [text]
  | .wrote _ msg => msg.regularText
  | _ => []

@[simp] theorem regularText_sendMessageToServerJob (text : Block) :
    (sendMessageToServerJob text).regularText = [text] := by
  simp [Message.regularText, sendMessageToServerJob, cStr]

theorem regularText_eq_nil {msg : Message} (other : msg.msgType ≠ messageClientRegular) : msg.regularText = [] := by
  unfold Message.regularText
  split
  · rw [if_neg other]
  · rfl

/-- Only the GUI sends lines. -/
theorem ClientCall.line_eq_nil {who : ClientThread} {effect : ClientEffect}
    (call : effect = askServerAddr ∨ ClientCall who effect) (other : who ≠ .gui) : effect.line = [] := by
  rcases call with rfl | call
  · rfl
  · cases call with
    | event evt => cases evt <;> rfl
    | line => exact absurd rfl other
    | _ => rfl

/-- Only the controller writes them. -/
theorem ClientCall.regular_eq_nil {who : ClientThread} {effect : ClientEffect}
    (call : effect = askServerAddr ∨ ClientCall who effect) (other : who ≠ .controller) : effect.regular = [] := by
  rcases call with rfl | call
  · rfl
  · cases call with
    | event evt => cases evt <;> rfl
    | regular => exact absurd rfl other
    | history => exact absurd rfl other
    | login =>
      rw [ClientEffect.regular]
      exact regularText_eq_nil (by decide : messageClientLogin ≠ messageClientRegular)
    | userlist =>
      rw [ClientEffect.regular]
      exact regularText_eq_nil (by decide : messageClientList ≠ messageClientRegular)
    | kick =>
      rw [ClientEffect.regular]
      exact regularText_eq_nil (by decide : messageClientKick ≠ messageClientRegular)
    | _ => rfl

/-- No line is typed in a dialog. -/
theorem Dialog.success_line {net : Network} {tstamp : UInt64} {str : Block} {dialog : Dialog}
    {sockid sockid' : Int32} {pairs pairs' : Pairs} {todo : List ClientEffect}
    (ran : dialog.success net tstamp str sockid pairs = some (todo, sockid', pairs')) :
    todo.flatMap ClientEffect.line = [] := by
  cases Dialog.success_cases ran <;> rfl

theorem Dialog.failure_line {tstamp : UInt64} {dialog : Dialog} {pairs pairs' : Pairs} {todo : List ClientEffect}
    (ran : dialog.failure tstamp pairs = some (todo, pairs')) : todo.flatMap ClientEffect.line = [] := by
  cases Dialog.failure_cases ran <;> rfl

/-- The handler of a line refuses it or writes it. -/
theorem controllerHandler_line {tstamp : Nat → UInt64} {s : Client} {loggedIn : Bool} {pairs : Pairs}
    {todo : List ClientEffect} {evt : ControlEvent}
    (ran : controllerHandler tstamp s.sockid s.loggedIn s.pairs evt = some (todo, loggedIn, pairs)) :
    evt.line = (s.refusal evt).flatMap ClientSighting.fate ++ todo.flatMap ClientEffect.regular := by
  by_cases line : ∃ text, evt = .sendMessageToServer text
  · obtain ⟨text, rfl⟩ := line
    cases ran
    by_cases unconnected : s.sockid = -1 ∨ s.loggedIn = false
    · simp [sendMessageToServerJobHandler, Client.refusal, unconnected, ControlEvent.line, ClientSighting.fate,
        ClientEffect.regular, internalMessage]
    · simp [sendMessageToServerJobHandler, Client.refusal, unconnected, ControlEvent.line, ClientEffect.regular]
  · have other : evt.line = [] ∧ s.refusal evt = [] := by
      cases evt with
      | sendMessageToServer text => exact absurd ⟨text, rfl⟩ line
      | _ => exact ⟨rfl, rfl⟩
    rw [other.1, other.2, List.flatMap_nil, List.nil_append, eq_comm, List.flatMap_eq_nil_iff]
    intro effect member
    cases effect with
    | write msg =>
      rcases (controllerHandler_writes ran member).2 with ⟨_, _, rfl⟩ | ⟨_, text, wrong, _⟩
      · cases List.mem_singleton.mp member
        rfl
      · exact absurd ⟨text, wrong⟩ line
    | _ => rfl

namespace Client

variable {s s' : Client} {trace did : List ClientSighting}

/-- What is typed and neither refused nor written yet. -/
def lineHeld (s : Client) : List Block :=
  s.controller.todo.flatMap ClientEffect.regular ++
    (s.controllerQueue.flatMap ControlEvent.line ++ s.gui.todo.flatMap ClientEffect.line)

theorem perform_line (s : Client) (effect : ClientEffect) :
    (s.perform effect).2.controllerQueue.flatMap ControlEvent.line =
      s.controllerQueue.flatMap ControlEvent.line ++ effect.line := by
  cases effect with
  | exitController => simp [perform, ClientEffect.line, ControlEvent.line]
  | _ => simp [perform, ClientEffect.line]

theorem perform_fate (s : Client) (effect : ClientEffect) (sent : effect.regular ≠ [] → s.sockid ≠ -1) :
    (s.perform effect).1.flatMap ClientSighting.fate = effect.regular := by
  cases effect with
  | write msg =>
    by_cases unset : s.sockid = -1
    · have none : msg.regularText = [] := by
        by_contra some
        exact sent some unset
      simp [perform, unset, ClientSighting.fate, ClientEffect.regular, none]
    · simp [perform, unset, ClientSighting.fate, ClientEffect.regular]
  | _ => rfl

theorem flatMap_typedLine (todo : List ClientEffect) :
    (todo.filterMap ClientEffect.typed).flatMap ClientSighting.typedLine = todo.flatMap ClientEffect.line := by
  have one : ∀ effect : ClientEffect, (effect.typed.map ClientSighting.typedLine).getD [] = effect.line := by
    intro effect
    cases effect with
    | toController evt => cases evt <;> rfl
    | _ => rfl
  induction todo with
  | nil => rfl
  | cons effect todo ih =>
    rw [List.flatMap_cons, ← one effect, ← ih]
    cases typed : effect.typed with
    | none => rw [List.filterMap_cons_none typed, Option.map_none, Option.getD_none, List.nil_append]
    | some sight => rw [List.filterMap_cons_some typed, List.flatMap_cons, Option.map_some, Option.getD_some]

end Client

theorem Conversing.line_passes {trace did : List ClientSighting} {s s' : Client} (conversing : Conversing trace s)
    (transition : ClientTransition s did s') :
    Passes ClientSighting.typedLine ClientSighting.fate Client.lineHeld s did s' := by
  cases transition with
  | performed who effect todo there =>
    have call := conversing.calls.next there
    have sent : effect.regular ≠ [] → (s.setTodo who todo).sockid ≠ -1 := by
      intro regular
      cases who with
      | controller =>
        cases effect with
        | write msg =>
          apply conversing.loggedIn
          apply conversing.writes msg
          rw [show s.controller.todo = .write msg :: todo from there]
          exact List.mem_cons_self
        | _ => exact absurd rfl regular
      | gui | listener => exact absurd (ClientCall.regular_eq_nil call (by decide)) regular
    rw [Passes, Client.flatMap_perform_eq_nil _ _ (fun _ _ => rfl) fun _ => rfl, Client.perform_fate _ _ sent,
      Client.lineHeld, Client.lineHeld, Client.perform_line, Client.perform_controller, Client.perform_gui]
    cases who with
    | controller =>
      have todo_eq : s.controller.todo = effect :: todo := there
      have silent := ClientCall.line_eq_nil call (by decide)
      simp [Client.setTodo, todo_eq, silent]
    | gui =>
      have todo_eq : s.gui.todo = effect :: todo := there
      have silent := ClientCall.regular_eq_nil call (by decide)
      simp [Client.setTodo, todo_eq, silent]
    | listener =>
      have silent := ClientCall.line_eq_nil call (by decide)
      have silent' := ClientCall.regular_eq_nil call (by decide)
      simp [Client.setTodo, silent, silent']
  | handled tstamp evt queue todo loggedIn pairs there other ready ran =>
    have fate := controllerHandler_line ran
    rw [Passes, List.flatMap_cons, List.flatMap_cons, Client.flatMap_refusal_eq_nil _ evt fun _ => rfl]
    simp [Client.lineHeld, there, ready, fate, ClientSighting.typedLine, ClientSighting.fate]
  | exited queue there ready =>
    simp [Passes, Client.lineHeld, there, ready, ControlEvent.line, ClientSighting.typedLine, ClientSighting.fate]
  | pressed tstamp key todo ready =>
    rw [Passes, Client.flatMap_typed_eq_nil ClientSighting.fate todo fun _ => rfl, Client.flatMap_typedLine]
    simp [Client.lineHeld, ready]
  | entered dialog net tstamp str todo sockid pairs ready ran =>
    have silent := Dialog.success_line ran
    simp [Passes, Client.lineHeld, ready, silent]
  | cancelled dialog tstamp todo pairs ready ran =>
    have silent := Dialog.failure_line ran
    simp [Passes, Client.lineHeld, ready, silent]
  | listened tstamp input sent conn ready | lost tstamp input sent ready =>
    rw [Passes, Client.flatMap_received_eq_nil ClientSighting.fate sent fun _ => rfl,
      Client.flatMap_received_eq_nil ClientSighting.typedLine sent fun _ => rfl]
    simp [Client.lineHeld]
  | left ready | unasked ready | printed _ _ _ _ _ ready | asked _ _ ready =>
    simp [Passes, Client.lineHeld, ready, ClientSighting.typedLine, ClientSighting.fate]
  | joinedGui => simp [Passes, Client.lineHeld, ControlEvent.line]
  | joinedListener =>
    by_cases unset : s.sockid = -1
    · simp [Passes, Client.lineHeld, unset]
    · simp [Passes, Client.lineHeld, unset, ClientSighting.typedLine, ClientSighting.fate]
  | idle | unconnected | iterated | joinedController => simp [Passes, Client.lineHeld]

/-- In every run of the client the lines that the user has typed are those that were refused or
written, those that are about to be written and those that wait for the controller, in this order:
none is lost, written twice or overtaken. -/
theorem lines_sent_in_order {cond : Client → ClientAction → Prop} {trace : List ClientSighting} {s : Client}
    (ran : Ran Client.step cond Client.init trace s) :
    trace.flatMap ClientSighting.typedLine = trace.flatMap ClientSighting.fate ++
      (s.controller.todo.flatMap ClientEffect.regular ++
        (s.controllerQueue.flatMap ControlEvent.line ++ s.gui.todo.flatMap ClientEffect.line)) :=
  ran.passes _ _ Client.lineHeld fun _ _ _ _ _ before _ taken =>
    (ran_conversing before).line_passes (Client.step_transition taken)

theorem lines_sent_in_order_whole : ∃ s : Client, wholeTrace.flatMap ClientSighting.typedLine =
    wholeTrace.flatMap ClientSighting.fate ++ (s.controller.todo.flatMap ClientEffect.regular ++
      (s.controllerQueue.flatMap ControlEvent.line ++ s.gui.todo.flatMap ClientEffect.line)) := by
  obtain ⟨s, ran, _⟩ := wholeTalk_ran
  exact ⟨s, lines_sent_in_order ran⟩

end AcosChat

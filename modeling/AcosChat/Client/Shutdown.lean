import AcosChat.Client.Conversation
import AcosChat.Client.Pairs

/-!
# The end of the client

An event that ends the conversation is the last that the controller handles. From every state the
client can be closed, dialogs and all; when `main` is through, all threads have ended, and the LOGOUT
is the last that is written.
-/
namespace AcosChat

open Store Run Bytes

/-! ### The last event -/

/-- The controller ends itself on this event. -/
def EndsController (before : List ClientSighting) : ControlEvent → Prop
  | .hangup | .kick _ => True
  | .status status => status ≠ Int32.ofNat msgStatusOk ∧ accepted ∉ before
  | _ => False

/-- Such an event has been taken. -/
def Doomed (trace : List ClientSighting) : Prop :=
  ∃ before evt after, trace = before ++ .took evt :: after ∧ EndsController before evt

/-- Only EXIT is taken after that, and nothing after EXIT; no line is written. -/
def NeedsLife (before : List ClientSighting) : ClientSighting → Prop
  | .took evt => (evt ≠ .exit → ¬Doomed before) ∧ .took .exit ∉ before
  | .wrote _ msg => msg.msgType = messageClientRegular ∨ msg.msgType = messageClientHistory →
    ¬Doomed before ∧ .took .exit ∉ before
  | _ => True

/-- The controller is about to send itself EXIT, is about to take it, or has ended. -/
inductive Dying (s : Client) : Prop
  | handling (todo : List ClientEffect) (busy : s.controller = ⟨true, todo⟩)
      (exits : .exitController ∈ todo) (silent : ∀ msg, .write msg ∉ todo)
  | queued (todo : List ClientEffect) (queue : List ControlEvent) (busy : s.controller = ⟨true, todo⟩)
      (first : s.controllerQueue = .exit :: queue) (silent : ∀ msg, .write msg ∉ todo)
  | ended (stopped : s.controller = ⟨false, []⟩)

theorem Doomed.of_append {trace did : List ClientSighting} (doomed : Doomed (trace ++ did))
    (other : ∀ evt, .took evt ∉ did) : Doomed trace := by
  obtain ⟨before, evt, after, same, ends⟩ := doomed
  rcases List.append_eq_append_iff.mp same with ⟨middle, rfl, rest⟩ | ⟨middle, rfl, rest⟩
  · -- the event would be in what has been done
    cases middle with
    | nil => exact absurd (by rw [List.nil_append] at rest; rw [rest]; exact List.mem_cons_self) (other evt)
    | cons sight middle =>
      exact absurd (by rw [rest]; simp) (other evt)
  · cases middle with
    | nil => exact absurd (by rw [List.nil_append] at rest; rw [← rest]; exact List.mem_cons_self) (other evt)
    | cons sight middle =>
      rw [List.cons_append, List.cons.injEq] at rest
      obtain ⟨rfl, _⟩ := rest
      exact ⟨before, evt, middle, rfl, ends⟩

theorem Doomed.of_took {trace later : List ClientSighting} {evt : ControlEvent}
    (doomed : Doomed (trace ++ .took evt :: later)) (other : ∀ evt, .took evt ∉ later) :
    Doomed trace ∨ EndsController trace evt := by
  have whole : Doomed ((trace ++ [.took evt]) ++ later) := by simpa using doomed
  obtain ⟨before, evt', after, same, ends⟩ := whole.of_append other
  rcases List.eq_nil_or_concat after with rfl | ⟨front, last, rfl⟩
  · obtain ⟨rfl, here⟩ := List.append_inj' same rfl
    cases here
    exact .inr ends
  · rw [List.concat_eq_append, ← List.cons_append, ← List.append_assoc] at same
    obtain ⟨rfl, _⟩ := List.append_inj' same rfl
    exact .inl ⟨before, evt', front, rfl, ends⟩

namespace Dying

variable {s s' : Client}

/-- The others leave the controller alone, and what they send does not come before EXIT. -/
theorem mono (dying : Dying s) (same : s'.controller = s.controller)
    (first : ∀ queue, s.controllerQueue = .exit :: queue → ∃ queue, s'.controllerQueue = .exit :: queue) :
    Dying s' := by
  cases dying with
  | handling todo busy exits silent => exact .handling todo (same.trans busy) exits silent
  | queued todo queue busy there silent =>
    obtain ⟨queue', there'⟩ := first queue there
    exact .queued todo queue' (same.trans busy) there' silent
  | ended stopped => exact .ended (same.trans stopped)

theorem perform_first (s : Client) (effect : ClientEffect) (queue : List ControlEvent)
    (there : s.controllerQueue = .exit :: queue) :
    ∃ queue, (s.perform effect).2.controllerQueue = .exit :: queue := by
  cases effect with
  | toController evt => exact ⟨queue ++ [evt], by simp [Client.perform, there]⟩
  | exitController => exact ⟨_, rfl⟩
  | toGui evt => exact ⟨queue, there⟩
  | write msg => exact ⟨queue, there⟩

/-- An dying controller takes nothing but EXIT. -/
theorem not_handled (dying : Dying s) {evt : ControlEvent} {queue : List ControlEvent}
    (there : s.controllerQueue = evt :: queue) (other : evt ≠ .exit) : s.controller ≠ ⟨true, []⟩ := by
  intro ready
  cases dying with
  | handling todo busy exits silent =>
    rw [ready, Thread.mk.injEq] at busy
    rw [← busy.2] at exits
    cases exits
  | queued todo queue' busy first silent =>
    rw [there, List.cons.injEq] at first
    exact other first.1
  | ended stopped =>
    rw [ready, Thread.mk.injEq] at stopped
    cases stopped.1

/-- It writes nothing. -/
theorem not_write (dying : Dying s) (msg : Message) : .write msg ∉ s.controller.todo := by
  cases dying with
  | handling todo busy exits silent | queued todo queue busy first silent =>
    rw [busy]
    exact silent msg
  | ended stopped =>
    rw [stopped]
    exact List.not_mem_nil

theorem step {did : List ClientSighting} (dying : Dying s) (transition : ClientTransition s did s') :
    Dying s' := by
  cases transition with
  | performed who effect todo there =>
    have first := perform_first (s.setTodo who todo) effect
    cases who with
    | controller =>
      have todo_eq : s.controller.todo = effect :: todo := there
      have controller : ((s.setTodo .controller todo).perform effect).2.controller = ⟨s.controller.phase, todo⟩ :=
        Client.perform_controller effect
      cases dying with
      | handling todo' busy exits silent =>
        rw [busy] at todo_eq controller
        subst todo_eq
        have silent' : ∀ msg, .write msg ∉ todo := fun msg member => silent msg (List.mem_cons_of_mem _ member)
        rcases List.mem_cons.mp exits with rfl | later
        · exact .queued todo _ controller rfl silent'
        · exact .handling todo controller later silent'
      | queued todo' queue busy there' silent =>
        rw [busy] at todo_eq controller
        subst todo_eq
        obtain ⟨queue', there''⟩ := first queue there'
        exact .queued todo queue' controller there'' fun msg member => silent msg (List.mem_cons_of_mem _ member)
      | ended stopped =>
        rw [stopped] at todo_eq
        cases todo_eq
    | gui | listener => exact dying.mono (Client.perform_controller effect) first
  | idle => exact dying
  | exited => exact .ended rfl
  | handled tstamp evt queue todo loggedIn pairs there other ready => exact absurd ready (dying.not_handled there other)
  | joinedGui => exact dying.mono rfl fun queue _ => ⟨_, rfl⟩
  | _ => exact dying.mono rfl fun queue there => ⟨queue, there⟩

end Dying

/-- The handlers of these events end the controller. -/
theorem controllerHandler_ends {trace : List ClientSighting} {tstamp : Nat → UInt64} {sockid : Int32}
    {loggedIn loggedIn' : Bool} {pairs pairs' : Pairs} {todo : List ClientEffect} {evt : ControlEvent}
    (known : loggedIn = true ↔ accepted ∈ trace) (ends : EndsController trace evt)
    (ran : controllerHandler tstamp sockid loggedIn pairs evt = some (todo, loggedIn', pairs')) :
    ∃ text, todo = [internalMessage text (tstamp 0), .exitController] := by
  cases evt with
  | hangup | kick reason =>
    cases ran
    exact ⟨_, rfl⟩
  | status status =>
    have out : loggedIn = false := by
      rw [← Bool.not_eq_true, known]
      exact ends.2
    rw [controllerHandler, statusEventHandler, if_pos out, if_neg ends.1] at ran
    obtain ⟨_, failed, same⟩ := Option.map_eq_some_iff.mp ran
    cases same
    obtain ⟨_, _, same⟩ := Option.map_eq_some_iff.mp failed
    cases same
    exact ⟨_, rfl⟩
  | _ => exact ends.elim

/-- What is known of the controller's life. -/
structure Mortal (trace : List ClientSighting) (s : Client) : Prop where
  conversing : Conversing trace s
  stopped : s.controller.phase = false → s.controller = ⟨false, []⟩
  exited : .took .exit ∈ trace → s.controller.phase = false
  doomed : Doomed trace → Dying s
  follows : Follows NeedsLife trace

namespace Mortal

variable {trace did : List ClientSighting} {s s' : Client}

theorem init : Mortal [] Client.init where
  conversing := .init
  stopped := nofun
  exited := nofun
  doomed := by
    rintro ⟨before, evt, after, same, _⟩
    simp at same
  follows := follows_nil

/-- A step in which the controller takes nothing. -/
theorem untaken (mortal : Mortal trace s) (transition : ClientTransition s did s')
    (other : ∀ evt, .took evt ∉ did) (phase : s'.controller.phase = s.controller.phase)
    (stopped : s.controller = ⟨false, []⟩ → s'.controller = ⟨false, []⟩)
    (follows : Follows NeedsLife (trace ++ did)) : Mortal (trace ++ did) s' where
  conversing := mortal.conversing.step transition
  stopped := fun ended => stopped (mortal.stopped (phase ▸ ended))
  exited := by
    intro member
    rw [phase]
    rcases List.mem_append.mp member with before | now
    · exact mortal.exited before
    · exact absurd now (other _)
  doomed := fun doomed => (mortal.doomed (doomed.of_append other)).step transition
  follows := follows

theorem free (mortal : Mortal trace s) (other : ∀ evt, .took evt ∉ did)
    (unwritten : ∀ sockid msg, .wrote sockid msg ∉ did) : Follows NeedsLife (trace ++ did) := by
  apply mortal.follows.append
  intro sight member before
  cases sight with
  | took evt => exact absurd member (other evt)
  | wrote sockid msg => exact absurd member (unwritten sockid msg)
  | _ => trivial

theorem performed (mortal : Mortal trace s) {who : ClientThread} {effect : ClientEffect}
    {todo : List ClientEffect} (there : s.todo who = effect :: todo) :
    Mortal (trace ++ ((s.setTodo who todo).perform effect).1) ((s.setTodo who todo).perform effect).2 := by
  have other : ∀ evt, .took evt ∉ ((s.setTodo who todo).perform effect).1 := by
    intro evt
    cases effect with
    | write msg =>
      simp only [Client.perform]
      split <;> simp
    | _ => exact List.not_mem_nil
  apply mortal.untaken (.performed who effect todo there) other
  · cases effect <;> cases who <;> rfl
  · intro ended
    rw [Client.perform_controller]
    cases who with
    | controller =>
      rw [Client.todo, ended] at there
      cases there
    | gui | listener => exact ended
  · cases effect with
    | write msg =>
      simp only [Client.perform]
      rw [follows_append_singleton]
      refine ⟨mortal.follows, ?_⟩
      split
      next => trivial
      next =>
        intro type
        -- the others write no line
        have mine : who = .controller := by
          cases who with
          | controller => rfl
          | gui =>
            rcases mortal.conversing.calls.next there with wrong | call
            · cases wrong
            · rcases call.write_gui with same | same | same <;> rw [same] at type <;>
                exact absurd type (by decide)
          | listener =>
            rcases mortal.conversing.calls.next there with wrong | call
            · cases wrong
            · exact absurd call ClientCall.not_write_listener
        subst mine
        have todo_eq : s.controller.todo = .write msg :: todo := there
        constructor
        · intro doomed
          apply (mortal.doomed doomed).not_write msg
          rw [todo_eq]
          exact List.mem_cons_self
        · intro taken
          rw [mortal.stopped (mortal.exited taken)] at todo_eq
          cases todo_eq
    | _ => exact mortal.free other (by simp [Client.perform])

/-- A handler of the controller. -/
theorem handled (mortal : Mortal trace s) {tstamp : Nat → UInt64} {evt : ControlEvent}
    {queue : List ControlEvent} {todo : List ClientEffect} {loggedIn : Bool} {pairs : Pairs}
    (there : s.controllerQueue = evt :: queue) (other : evt ≠ .exit) (ready : s.controller = ⟨true, []⟩)
    (ran : controllerHandler tstamp s.sockid s.loggedIn s.pairs evt = some (todo, loggedIn, pairs)) :
    Mortal (trace ++ .took evt :: s.refusal evt) { s with
      controllerQueue := queue, controller := ⟨true, todo⟩, loggedIn := loggedIn, pairs := pairs } := by
  have untaken : ∀ evt', .took evt' ∉ s.refusal evt := by
    intro evt'
    cases evt with
    | sendMessageToServer text =>
      simp only [Client.refusal]
      split <;> simp
    | _ => exact List.not_mem_nil
  have alive : ¬Doomed trace := fun doomed => (mortal.doomed doomed).not_handled there other ready
  have going : .took .exit ∉ trace := by
    intro taken
    have ended := mortal.exited taken
    rw [ready] at ended
    cases ended
  have transition := ClientTransition.handled tstamp evt queue todo loggedIn pairs there other ready ran
  refine ⟨mortal.conversing.step transition, (fun ended => by cases ended), ?_, ?_, ?_⟩
  · intro taken
    rcases List.mem_append.mp taken with before | now
    · exact absurd before going
    · rcases List.mem_cons.mp now with same | now
      · cases same
        exact absurd rfl other
      · exact absurd now (untaken _)
  · intro doomed
    rcases doomed.of_took untaken with before | ends
    · exact absurd before alive
    · obtain ⟨text, rfl⟩ := controllerHandler_ends mortal.conversing.accepted ends ran
      exact .handling _ rfl (by simp) (by simp [internalMessage])
  · rw [← List.singleton_append, ← List.append_assoc]
    apply ((follows_append_singleton trace (.took evt)).mpr ⟨mortal.follows, fun _ => alive, going⟩).append
    intro sight member before
    cases sight with
    | took evt' => exact absurd member (untaken evt')
    | wrote sockid msg =>
      cases evt with
      | sendMessageToServer text =>
        simp only [Client.refusal] at member
        split at member
        · cases List.mem_singleton.mp member
        · cases member
      | _ => cases member
    | _ => trivial

theorem step (mortal : Mortal trace s) (transition : ClientTransition s did s') : Mortal (trace ++ did) s' := by
  have whole := transition
  cases transition with
  | performed who effect todo there => exact mortal.performed there
  | handled tstamp evt queue todo loggedIn pairs there other ready ran => exact mortal.handled there other ready ran
  | idle => simpa using mortal
  | exited queue there ready =>
    refine ⟨mortal.conversing.step whole, fun _ => rfl, fun _ => rfl, fun _ => .ended rfl, ?_⟩
    rw [follows_append_singleton]
    refine ⟨mortal.follows, fun wrong => absurd rfl wrong, ?_⟩
    intro taken
    have ended := mortal.exited taken
    rw [ready] at ended
    cases ended
  | pressed tstamp key todo =>
    have typed : ∀ sight ∈ todo.filterMap ClientEffect.typed, ∃ text, sight = .typed text := by
      intro sight member
      obtain ⟨effect, _, same⟩ := List.mem_filterMap.mp member
      unfold ClientEffect.typed at same
      split at same <;> cases same
      exact ⟨_, rfl⟩
    have untaken : ∀ evt, .took evt ∉ todo.filterMap ClientEffect.typed := by
      intro evt member
      obtain ⟨_, wrong⟩ := typed _ member
      cases wrong
    have unwritten : ∀ sockid msg, .wrote sockid msg ∉ todo.filterMap ClientEffect.typed := by
      intro sockid msg member
      obtain ⟨_, wrong⟩ := typed _ member
      cases wrong
    exact mortal.untaken whole untaken rfl id (mortal.free untaken unwritten)
  | listened | lost => exact mortal.untaken whole (by simp) rfl id (mortal.free (by simp) (by simp))
  | joinedListener =>
    apply mortal.untaken whole _ rfl id (mortal.free _ _)
    all_goals
      intros
      split <;> simp
  | _ => exact mortal.untaken whole (by simp) rfl id (mortal.free (by simp) (by simp))

end Mortal

theorem ran_mortal {cond : Client → ClientAction → Prop} {trace : List ClientSighting} {s : Client}
    (ran : Ran Client.step cond Client.init trace s) : Mortal trace s :=
  ran.invariant .init fun _ _ _ _ _ mortal _ taken => mortal.step (Client.step_transition taken)

/-- In every run of the client: after a kick, a loss of the connection or a login that the server
rejects, the controller takes nothing but EXIT, and nothing after EXIT, whatever is typed or
received; and from then on no line is written. -/
theorem controller_ends {cond : Client → ClientAction → Prop} {trace : List ClientSighting} {s : Client}
    (ran : Ran Client.step cond Client.init trace s) : Follows NeedsLife trace :=
  (ran_mortal ran).follows

theorem controller_ends_whole : Follows NeedsLife wholeTrace := by
  obtain ⟨s, ran, _⟩ := wholeTalk_ran
  exact controller_ends ran

/-! ### `main` -/

/-- What `main` has joined has ended, and nothing is left of it to do. -/
structure Joined (trace : List ClientSighting) (s : Client) : Prop where
  gui : s.main ≠ .joinGui → s.gui = ⟨.ended, []⟩
  exit : s.main = .joinController → s.controller = ⟨false, []⟩ ∨ ∃ queue, s.controllerQueue = .exit :: queue
  controller : s.main = .joinListener ∨ s.main = .done → s.controller = ⟨false, []⟩
  listenerExit : s.main = .joinListener → s.listenerExit = true
  listener : s.main = .done → s.listener = ⟨.ended, []⟩
  open_ : s.main ≠ .done → ∀ sockid buf, .closed sockid buf ∉ trace
  closed : s.main = .done → ∃ before, (∀ sockid buf, .closed sockid buf ∉ before) ∧
    trace = before ++ if s.sockid = -1 then [] else [.closed s.sockid logoutBuffer]

/-- When `main` is through, nothing can be done any more. -/
theorem Joined.stuck {trace : List ClientSighting} {s : Client} (joined : Joined trace s) (done : s.main = .done)
    (action : ClientAction) : Client.step s action = none := by
  have gui := joined.gui (by simp [done])
  have controller := joined.controller (.inr done)
  have listener := joined.listener done
  cases action with
  | perform who => cases who <;> simp [Client.step, Client.todo, gui, controller, listener]
  | controllerIterate tstamp => simp [Client.step, controller]
  | key key tstamp => cases key <;> simp [Client.step, gui]
  | guiIterate => simp [Client.step, gui]
  | answer answer net tstamp => cases answer <;> simp [Client.step, gui]
  | listen poll wire tstamp => simp [Client.step, listener]
  | listenerIterate => simp [Client.step, listener]
  | main => simp [Client.step, done]

namespace Joined

variable {trace did : List ClientSighting} {s s' : Client}

theorem init : Joined [] Client.init where
  gui := fun wrong => absurd rfl wrong
  exit := nofun
  controller := by
    rintro (wrong | wrong) <;> cases wrong
  listenerExit := nofun
  listener := nofun
  open_ := fun _ _ _ => List.not_mem_nil
  closed := nofun

/-- A step that joins nothing. -/
theorem kept (joined : Joined trace s) (main : s'.main = s.main) (going : s.main ≠ .done)
    (gui : s.gui = ⟨.ended, []⟩ → s'.gui = ⟨.ended, []⟩)
    (controller : s.controller = ⟨false, []⟩ → s'.controller = ⟨false, []⟩)
    (exit : ∀ queue, s.controllerQueue = .exit :: queue →
      s'.controller = ⟨false, []⟩ ∨ ∃ queue, s'.controllerQueue = .exit :: queue)
    (listenerExit : s'.listenerExit = s.listenerExit) (unclosed : ∀ sockid buf, .closed sockid buf ∉ did) :
    Joined (trace ++ did) s' where
  gui := fun later => gui (joined.gui (main ▸ later))
  exit := by
    intro phase
    rcases joined.exit (main ▸ phase) with ended | ⟨queue, there⟩
    · exact .inl (controller ended)
    · exact exit queue there
  controller := fun phase => controller (joined.controller (main ▸ phase))
  listenerExit := fun phase => listenerExit.trans (joined.listenerExit (main ▸ phase))
  listener := fun phase => absurd (main ▸ phase) going
  open_ := by
    intro _ sockid buf member
    rcases List.mem_append.mp member with before | now
    · exact joined.open_ going sockid buf before
    · exact unclosed sockid buf now
  closed := fun phase => absurd (main ▸ phase) going

theorem step {action : ClientAction} (joined : Joined trace s)
    (taken : Client.step s action = some (did, some s')) : Joined (trace ++ did) s' := by
  have going : s.main ≠ .done := by
    intro done
    rw [joined.stuck done action] at taken
    cases taken
  cases Client.step_transition taken with
  | performed who effect todo there =>
    apply joined.kept (by cases effect <;> cases who <;> rfl) going
    · intro ended
      rw [Client.perform_gui]
      cases who with
      | gui =>
        rw [Client.todo, ended] at there
        cases there
      | controller | listener => exact ended
    · intro ended
      rw [Client.perform_controller]
      cases who with
      | controller =>
        rw [Client.todo, ended] at there
        cases there
      | gui | listener => exact ended
    · intro queue first
      apply Or.inr
      apply Dying.perform_first (s.setTodo who todo) effect queue
      cases who <;> exact first
    · cases effect <;> cases who <;> rfl
    · intro sockid buf
      cases effect with
      | write msg =>
        simp only [Client.perform]
        split <;> simp
      | _ => exact List.not_mem_nil
  | idle => simpa using joined
  | exited queue there ready =>
    exact joined.kept rfl going id (fun _ => rfl) (fun _ _ => .inl rfl) rfl (by simp)
  | handled tstamp evt queue todo loggedIn pairs there other ready =>
    refine joined.kept rfl going id ?_ ?_ rfl ?_
    · intro ended
      rw [ready] at ended
      cases ended
    · intro queue' first
      rw [there, List.cons.injEq] at first
      exact absurd first.1 other
    · intro sockid buf
      cases evt with
      | sendMessageToServer text =>
        simp only [Client.refusal]
        split <;> simp
      | _ => simp [Client.refusal]
  | left => exact joined.kept rfl going (fun _ => rfl) id (fun queue there => .inr ⟨queue, there⟩) rfl (by simp)
  | pressed tstamp key todo ready =>
    refine joined.kept rfl going (fun ended => by rw [ready] at ended; cases ended) id
      (fun queue there => .inr ⟨queue, there⟩) rfl ?_
    intro sockid buf member
    obtain ⟨effect, _, same⟩ := List.mem_filterMap.mp member
    unfold ClientEffect.typed at same
    split at same <;> cases same
  | unasked ready | printed _ _ _ _ _ ready | asked _ _ ready | entered _ _ _ _ _ _ _ ready | cancelled _ _ _ _ ready =>
    exact joined.kept rfl going (fun ended => by rw [ready] at ended; cases ended) id
      (fun queue there => .inr ⟨queue, there⟩) rfl (by simp)
  | unconnected | listened | lost | iterated =>
    exact joined.kept rfl going id id (fun queue there => .inr ⟨queue, there⟩) rfl (by simp)
  | joinedGui phase ended =>
    rw [List.append_nil]
    exact ⟨fun _ => ended, fun _ => .inr ⟨_, rfl⟩, (by rintro (wrong | wrong) <;> cases wrong), (by simp), (by simp),
      fun _ => joined.open_ going, (by simp)⟩
  | joinedController phase ended =>
    rw [List.append_nil]
    exact ⟨fun _ => joined.gui (by simp [phase]), (by simp), fun _ => ended, fun _ => rfl, (by simp),
      fun _ => joined.open_ going, (by simp)⟩
  | joinedListener phase ended =>
    exact ⟨fun _ => joined.gui (by simp [phase]), (by simp), fun _ => joined.controller (.inl phase), (by simp),
      fun _ => ended, fun wrong => absurd rfl wrong, fun _ => ⟨trace, joined.open_ going, rfl⟩⟩

end Joined

theorem ran_joined {cond : Client → ClientAction → Prop} {trace : List ClientSighting} {s : Client}
    (ran : Ran Client.step cond Client.init trace s) : Joined trace s :=
  ran.invariant .init fun _ _ _ _ _ joined _ taken => joined.step taken

/-! ### The way out -/

def GuiPhase.rest : GuiPhase → Nat
  | .iterate => 5
  -- a callback that fails makes two calls
  | .dialog _ => 4
  | .key => 1
  | .ended => 0

def PollPhase.rest : PollPhase → Nat
  | .turn => 2
  | .iterate => 1
  | .ended => 0

def MainPhase.rest : MainPhase → Nat
  | .joinGui => 3
  | .joinController => 2
  | .joinListener => 1
  | .done => 0

/-- How far it is to the end, when the user presses F10. -/
def Client.rest (s : Client) : Nat :=
  s.main.rest + (s.gui.phase.rest + s.gui.todo.length) + (s.controller.phase.toNat + s.controller.todo.length) +
    (s.listener.phase.rest + s.listener.todo.length)

/-- A call of a handler is one step less. -/
theorem Client.rest_performed {s : Client} (who : ClientThread) {effect : ClientEffect} {todo : List ClientEffect}
    (there : s.todo who = effect :: todo) : ∃ action did s', Client.step s action = some (did, some s') ∧
      s'.rest < s.rest := by
  refine ⟨.perform who, _, _, by rw [Client.step, there], ?_⟩
  have main : ((s.setTodo who todo).perform effect).2.main = s.main := by
    cases effect <;> cases who <;> rfl
  simp only [Client.rest, Client.perform_controller, Client.perform_gui, Client.perform_listener, main]
  cases who with
  | controller =>
    have todo_eq : s.controller.todo = effect :: todo := there
    simp [Client.setTodo, todo_eq]
  | gui =>
    have todo_eq : s.gui.todo = effect :: todo := there
    simp [Client.setTodo, todo_eq]
  | listener =>
    have todo_eq : s.listener.todo = effect :: todo := there
    simp [Client.setTodo, todo_eq]

theorem DialogFails.length_le {tstamp : UInt64} {pairs : Pairs} {dialog : Dialog}
    {left : List ClientEffect × Pairs} (fails : DialogFails tstamp pairs dialog left) : left.1.length ≤ 2 := by
  cases fails <;> simp [getServerAddrCallbackFailure]

/-- The GUI comes to its end: F10 closes the dialogs, and then the window. -/
theorem Client.rest_gui {s : Client} (housed : Housed s.pairs s.dialogs) {phase : GuiPhase}
    (ready : s.gui = ⟨phase, []⟩) (running : phase ≠ .ended) :
    ∃ action did s', Client.step s action = some (did, some s') ∧ s'.rest < s.rest := by
  cases phase with
  | key =>
    refine ⟨.key .closeApp 0, [], { s with gui := ⟨.ended, []⟩ }, by simp [Client.step, ready], ?_⟩
    simp [Client.rest, ready, GuiPhase.rest]
  | iterate =>
    cases queue : s.guiQueue with
    | nil =>
      refine ⟨.guiIterate, [], { s with gui := ⟨.key, []⟩ }, by simp [Client.step, ready, queue], ?_⟩
      simp [Client.rest, ready, GuiPhase.rest]
    | cons evt later =>
      cases evt with
      | displayParsedMessage type author text tstamp =>
        refine ⟨.guiIterate, [.printed type author text tstamp], { s with guiQueue := later, gui := ⟨.key, []⟩ },
          by simp [Client.step, ready, queue], ?_⟩
        simp [Client.rest, ready, GuiPhase.rest]
      | readinput dialog =>
        refine ⟨.guiIterate, [.asked dialog.prompt dialog.passwd], { s with guiQueue := later, gui := ⟨.dialog dialog, []⟩ },
          by simp [Client.step, ready, queue], ?_⟩
        simp [Client.rest, ready, GuiPhase.rest]
  | dialog asked =>
    have held : Housed s.pairs (asked :: s.dialogs.tail) := by
      have first : s.dialogs = asked :: s.dialogs.tail := by simp [Client.dialogs, ready, GuiPhase.asks]
      rw [← first]
      exact housed
    obtain ⟨⟨todo, pairs⟩, failed⟩ := Option.isSome_iff_exists.mp (held.failure_isSome 0)
    have few : todo.length ≤ 2 := (Dialog.failure_cases failed).length_le
    refine ⟨.answer .closeApp ⟨0, fun _ => none, fun _ _ => false⟩ 0, [],
      { s with gui := ⟨.key, todo⟩, pairs := pairs }, ?_, ?_⟩
    · simp [Client.step, ready, failed, Client.calledBack]
    · simp only [Client.rest, ready, GuiPhase.rest, List.length_nil]
      omega
  | ended => exact absurd rfl running

/-- The listener comes to its end, whatever the socket has. -/
theorem Client.rest_listener {s : Client} (exit : s.listenerExit = true) {phase : PollPhase}
    (ready : s.listener = ⟨phase, []⟩) (running : phase ≠ .ended) :
    ∃ action did s', Client.step s action = some (did, some s') ∧ s'.rest < s.rest := by
  cases phase with
  | turn =>
    by_cases unset : s.sockid = -1
    · refine ⟨.listen .none ⟨[], [], .quiet, fun _ => true⟩ 0, [], { s with listener := ⟨.iterate, []⟩ },
        by simp [Client.step, ready, unset], ?_⟩
      simp [Client.rest, ready, PollPhase.rest]
    · refine ⟨.listen .none ⟨[], [], .quiet, fun _ => true⟩ 0, [], { s with listener := ⟨.iterate, []⟩ },
        by simp [Client.step, ready, unset, clientListenerTurn], ?_⟩
      simp [Client.rest, ready, PollPhase.rest]
  | iterate =>
    refine ⟨.listenerIterate, [], { s with listener := ⟨.ended, []⟩ }, by simp [Client.step, ready, exit], ?_⟩
    simp [Client.rest, ready, PollPhase.rest]
  | ended => exact absurd rfl running

/-- What the way to the end needs. -/
def Client.Sound (s : Client) : Prop := ∃ trace, Joined trace s ∧ s.Calls ∧ Housed s.pairs s.dialogs

theorem Client.Sound.step (s : Client) (action : ClientAction) (did : List ClientSighting) (s' : Client)
    (sound : s.Sound) (taken : Client.step s action = some (did, some s')) : s'.Sound := by
  obtain ⟨trace, joined, calls, housed⟩ := sound
  have transition := Client.step_transition taken
  exact ⟨_, joined.step taken, calls.step transition, housed.step calls transition⟩

/-- Until `main` is through, the client can come closer to that. -/
theorem Client.Sound.progress (s : Client) (sound : s.Sound) (going : ¬s.main = .done) :
    ∃ action did s', Client.step s action = some (did, some s') ∧ s'.rest < s.rest := by
  obtain ⟨trace, joined, _, housed⟩ := sound
  cases main : s.main with
  | joinGui =>
    cases gui : s.gui with
    | mk phase todo =>
      cases todo with
      | cons effect todo => exact Client.rest_performed .gui (by rw [Client.todo, gui])
      | nil =>
        by_cases running : phase ≠ .ended
        · exact Client.rest_gui housed gui running
        · rw [not_not.mp running] at gui
          refine ⟨.main, [], { s with controllerQueue := .exit :: s.controllerQueue, main := .joinController },
            by simp [Client.step, main, gui], ?_⟩
          simp [Client.rest, main, MainPhase.rest]
  | joinController =>
    cases controller : s.controller with
    | mk phase todo =>
      cases todo with
      | cons effect todo => exact Client.rest_performed .controller (by rw [Client.todo, controller])
      | nil =>
        cases phase with
        | true =>
          rcases joined.exit main with ended | ⟨queue, first⟩
          · rw [controller] at ended
            cases ended
          · refine ⟨.controllerIterate fun _ => 0, [.took .exit],
              { s with controllerQueue := queue, controller := ⟨false, []⟩ },
              by simp [Client.step, controller, first], ?_⟩
            simp [Client.rest, controller]
        | false =>
          refine ⟨.main, [], { s with listenerExit := true, main := .joinListener },
            by simp [Client.step, main, controller], ?_⟩
          simp [Client.rest, main, MainPhase.rest]
  | joinListener =>
    cases listener : s.listener with
    | mk phase todo =>
      cases todo with
      | cons effect todo => exact Client.rest_performed .listener (by rw [Client.todo, listener])
      | nil =>
        by_cases running : phase ≠ .ended
        · exact Client.rest_listener (joined.listenerExit main) listener running
        · rw [not_not.mp running] at listener
          refine ⟨.main, if s.sockid = -1 then [] else [.closed s.sockid logoutBuffer], { s with main := .done },
            by simp [Client.step, main, listener], ?_⟩
          simp [Client.rest, main, MainPhase.rest]
  | done => exact absurd main going

/-- In every run of the client: when `main` is through nothing can be done any more, and the LOGOUT is
the last that is seen, if there was a connection; it is written then only. And from every state that the
client can be in, that end can be reached. -/
theorem client_shutdown {cond : Client → ClientAction → Prop} {trace : List ClientSighting} {s : Client}
    (ran : Ran Client.step cond Client.init trace s) :
    (s.main = .done → (∀ action, Client.step s action = none) ∧
      ∃ before, (∀ sockid buf, .closed sockid buf ∉ before) ∧
        trace = before ++ if s.sockid = -1 then [] else [.closed s.sockid logoutBuffer]) ∧
    (s.main ≠ .done → ∀ sockid buf, .closed sockid buf ∉ trace) ∧
    ∃ s', Reaches Client.step s s' ∧ s'.main = .done := by
  have joined := ran_joined ran
  refine ⟨fun done => ⟨joined.stuck done, joined.closed done⟩, joined.open_, ?_⟩
  exact reaches_of_measure Client.rest Client.Sound.step Client.Sound.progress
    ⟨trace, joined, Client.ran_calls ran, (client_pairs_kept ran).1⟩

theorem client_shutdown_whole : ∃ s : Client, s.main = .done ∧ (∀ action, Client.step s action = none) ∧
    ∃ before, (∀ sockid buf, .closed sockid buf ∉ before) ∧
      wholeTrace = before ++ if s.sockid = -1 then [] else [.closed s.sockid logoutBuffer] := by
  obtain ⟨s, ran, done⟩ := wholeTalk_ran
  exact ⟨s, done, (client_shutdown ran).1 done⟩

end AcosChat

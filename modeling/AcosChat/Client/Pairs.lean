import AcosChat.Client.Calls
import Mathlib.Tactic.Abel

/-!
# The pairs of the dialogs

Each pair that is allocated is the `env` of one dialog, which is asked, waits or is about to be
sent; its callback fills the pair for the next dialog or frees it. So no callback touches a pair that is
gone, and none finds the null pointer where it needs a string.
-/
namespace AcosChat

open Store Run Bytes

/-! ### Dialogs -/

def Dialog.env : Dialog → Option Nat
  | .username env | .password env | .kickReason env => some env
  | .serverAddr | .kickUid => none

/-- The callback of the dialog needs the second component of its pair. -/
def Dialog.NeedsString : Dialog → Prop
  | .password _ | .kickReason _ => True
  | _ => False

/-- The pairs are those of the dialogs, each of one. -/
structure Housed (pairs : Pairs) (dialogs : List Dialog) : Prop where
  nodup : (dialogs.filterMap Dialog.env).Nodup
  exact : ∀ env, env ∈ dialogs.filterMap Dialog.env ↔ (pairs.read env).isSome = true
  bounded : ∀ env second, pairs.read env = some second → env < pairs.next
  strings : ∀ dialog ∈ dialogs, dialog.NeedsString → ∀ env, dialog.env = some env →
    ∃ str, pairs.read env = some (some str)

namespace Housed

variable {pairs pairs' : Pairs} {dialogs dialogs' rest : List Dialog} {dialog next : Dialog} {env : Nat}

theorem empty : Housed Store.empty [.serverAddr] where
  nodup := List.nodup_nil
  exact := by simp [Dialog.env, Store.empty, Store.read]
  bounded := nofun
  strings := by
    intro dialog member needs
    rw [List.mem_singleton.mp member] at needs
    exact needs.elim

theorem perm (housed : Housed pairs dialogs) (perm : dialogs.Perm dialogs') : Housed pairs dialogs' where
  nodup := (perm.filterMap Dialog.env).nodup_iff.mp housed.nodup
  exact := fun env => (perm.filterMap Dialog.env).mem_iff.symm.trans (housed.exact env)
  bounded := housed.bounded
  strings := fun dialog member => housed.strings dialog (perm.mem_iff.mpr member)

/-- A dialog without a pair is closed or answered. -/
theorem drop (housed : Housed pairs (dialog :: rest)) (bare : dialog.env = none) : Housed pairs rest where
  nodup := by
    have nodup := housed.nodup
    rwa [List.filterMap_cons_none bare] at nodup
  exact := by
    intro env
    rw [← housed.exact, List.filterMap_cons_none bare]
  bounded := housed.bounded
  strings := fun dialog member => housed.strings dialog (List.mem_cons_of_mem _ member)

/-- A dialog without a pair is asked. -/
theorem add (housed : Housed pairs rest) (bare : dialog.env = none) : Housed pairs (dialog :: rest) where
  nodup := by
    rw [List.filterMap_cons_none bare]
    exact housed.nodup
  exact := by
    intro env
    rw [← housed.exact, List.filterMap_cons_none bare]
  bounded := housed.bounded
  strings := by
    intro dialog' member needs env same
    rcases List.mem_cons.mp member with rfl | member
    · rw [bare] at same
      cases same
    · exact housed.strings dialog' member needs env same

theorem fresh (housed : Housed pairs rest) : pairs.next ∉ rest.filterMap Dialog.env := by
  intro member
  obtain ⟨second, there⟩ := Option.isSome_iff_exists.mp ((housed.exact _).mp member)
  exact absurd (housed.bounded _ _ there) (Nat.lt_irrefl _)

/-- A dialog is asked with a new pair. -/
theorem alloc (housed : Housed pairs rest) (second : Option Block) (new : dialog.env = some pairs.next)
    (given : dialog.NeedsString → second ≠ none) : Housed (pairs.alloc second).2 (dialog :: rest) where
  nodup := by
    rw [List.filterMap_cons_some new, List.nodup_cons]
    exact ⟨housed.fresh, housed.nodup⟩
  exact := by
    intro env
    rw [List.filterMap_cons_some new, List.mem_cons, housed.exact, read_alloc]
    by_cases here : env = pairs.next
    · simp [here]
    · simp [here]
  bounded := by
    intro env second' there
    rw [read_alloc] at there
    change env < pairs.next + 1
    split at there
    next here => omega
    next =>
      have before := housed.bounded env second' there
      omega
  strings := by
    intro dialog' member needs env same
    rw [read_alloc]
    rcases List.mem_cons.mp member with rfl | member
    · rw [new, Option.some.injEq] at same
      obtain ⟨str, rfl⟩ := Option.ne_none_iff_exists'.mp (given needs)
      exact ⟨str, by rw [if_pos same.symm]⟩
    · have other : env ≠ pairs.next := by
        rintro rfl
        exact housed.fresh (List.mem_filterMap.mpr ⟨dialog', member, same⟩)
      rw [if_neg other]
      exact housed.strings dialog' member needs env same

/-- The pair of a dialog that is asked or waits is there. -/
theorem there (housed : Housed pairs (dialog :: rest)) (has : dialog.env = some env) :
    ∃ second, pairs.read env = some second := by
  apply Option.isSome_iff_exists.mp
  rw [← housed.exact, List.filterMap_cons_some has]
  exact List.mem_cons_self

/-- The pairs of different dialogs are different. -/
theorem apart (housed : Housed pairs (dialog :: rest)) (has : dialog.env = some env) :
    env ∉ rest.filterMap Dialog.env := by
  have nodup := housed.nodup
  rw [List.filterMap_cons_some has, List.nodup_cons] at nodup
  exact nodup.1

/-- The pair of a dialog goes with a string to the next one. -/
theorem fill (housed : Housed pairs (dialog :: rest)) (has : dialog.env = some env) (same : next.env = some env)
    {str : Block} (modified : pairs.modify env (fun _ => some str) = some pairs') :
    Housed pairs' (next :: rest) where
  nodup := by
    have nodup := housed.nodup
    rw [List.filterMap_cons_some has] at nodup
    rwa [List.filterMap_cons_some same]
  exact := by
    intro env'
    obtain ⟨second, _, _, reads⟩ := modify_eq_some modified
    have before := housed.exact env'
    rw [List.filterMap_cons_some has] at before
    rw [List.filterMap_cons_some same, before, reads]
    split
    next here => rw [here, ← housed.exact, List.filterMap_cons_some has]; simp
    next => rfl
  bounded := by
    intro env' second there
    obtain ⟨second', there', next', reads⟩ := modify_eq_some modified
    rw [next']
    rw [reads] at there
    split at there
    next here => exact here ▸ housed.bounded env second' there'
    next => exact housed.bounded env' second there
  strings := by
    intro dialog' member needs env' same'
    obtain ⟨_, _, _, reads⟩ := modify_eq_some modified
    rw [reads]
    rcases List.mem_cons.mp member with rfl | member
    · rw [same, Option.some.injEq] at same'
      exact ⟨str, by rw [if_pos same'.symm]⟩
    · have other : env' ≠ env := by
        rintro rfl
        exact housed.apart has (List.mem_filterMap.mpr ⟨dialog', member, same'⟩)
      rw [if_neg other]
      exact housed.strings dialog' (List.mem_cons_of_mem _ member) needs env' same'

/-- The pair of a dialog is freed. -/
theorem free (housed : Housed pairs (dialog :: rest)) (has : dialog.env = some env)
    (freed : pairs.free env = some pairs') : Housed pairs' rest where
  nodup := by
    have nodup := housed.nodup
    rw [List.filterMap_cons_some has, List.nodup_cons] at nodup
    exact nodup.2
  exact := by
    intro env'
    obtain ⟨_, _, _, reads⟩ := free_eq_some freed
    have before := housed.exact env'
    rw [List.filterMap_cons_some has, List.mem_cons] at before
    rw [reads]
    by_cases here : env' = env
    · rw [if_pos here, here]
      exact iff_of_false (housed.apart has) (by simp)
    · rw [if_neg here, ← before, or_iff_right here]
  bounded := by
    intro env' second there
    obtain ⟨_, _, next', reads⟩ := free_eq_some freed
    rw [reads] at there
    rw [next']
    split at there
    next => cases there
    next => exact housed.bounded env' second there
  strings := by
    intro dialog' member needs env' same
    obtain ⟨_, _, _, reads⟩ := free_eq_some freed
    have other : env' ≠ env := by
      rintro rfl
      exact housed.apart has (List.mem_filterMap.mpr ⟨dialog', member, same⟩)
    rw [reads, if_neg other]
    exact housed.strings dialog' (List.mem_cons_of_mem _ member) needs env' same

end Housed

/-! ### The dialogs of the client -/

def ClientEffect.asks : ClientEffect → List Dialog
  | .toGui (.readinput dialog) => [dialog]
  | _ => []

def GuiEvent.asks : GuiEvent → List Dialog
  | .readinput dialog => [dialog]
  | .displayParsedMessage .. => []

def GuiPhase.asks : GuiPhase → List Dialog
  | .dialog asked => [asked]
  | _ => []

/-- The dialog that is open, those that are about to be sent and those that wait. -/
def Client.dialogs (s : Client) : List Dialog :=
  s.gui.phase.asks ++ s.gui.todo.flatMap ClientEffect.asks ++ s.controller.todo.flatMap ClientEffect.asks ++
    s.guiQueue.flatMap GuiEvent.asks

/-- The handlers of the controller and the listener ask nothing. -/
theorem ClientCall.asks_eq_nil {who : ClientThread} {effect : ClientEffect} (call : ClientCall who effect)
    (other : who ≠ .gui) : effect.asks = [] := by
  cases call with
  | event evt => cases evt <;> rfl
  | dialog => exact absurd rfl other
  | _ => rfl

theorem Key.calls_asks {key : Key} {tstamp : UInt64} {todo : List ClientEffect}
    (calls : key.calls tstamp = some todo) : todo.flatMap ClientEffect.asks = [] ∨
      todo.flatMap ClientEffect.asks = [.kickUid] := by
  cases key with
  | enter field =>
    obtain ⟨_, _, rfl⟩ := Option.map_eq_some_iff.mp calls
    exact .inl rfl
  | kickUsers =>
    cases calls
    exact .inr rfl
  | _ =>
    cases calls
    exact .inl rfl

/-- The pair of a login that the server rejects is freed at once. -/
theorem Housed.handled {pairs pairs' : Pairs} {dialogs : List Dialog} (housed : Housed pairs dialogs)
    {tstamp : Nat → UInt64} {sockid : Int32} {loggedIn loggedIn' : Bool} {todo : List ClientEffect}
    {evt : ControlEvent}
    (ran : controllerHandler tstamp sockid loggedIn pairs evt = some (todo, loggedIn', pairs')) :
    Housed pairs' dialogs := by
  cases evt with
  | status status =>
    simp only [controllerHandler, statusEventHandler] at ran
    split at ran
    next =>
      split at ran
      next =>
        cases ran
        exact housed
      next =>
        obtain ⟨_, failed, same⟩ := Option.map_eq_some_iff.mp ran
        cases same
        obtain ⟨_, freed, same⟩ := Option.map_eq_some_iff.mp failed
        cases same
        have mine : (Dialog.username pairs.next).env = some pairs.next := rfl
        exact (housed.alloc none mine fun wrong => wrong.elim).free mine freed
    next =>
      cases ran
      exact housed
  | list msg =>
    obtain ⟨_, _, same⟩ := Option.map_eq_some_iff.mp ran
    cases same
    exact housed
  | _ =>
    cases ran
    exact housed

/-- The callback of an answered dialog leaves the pairs to the dialog that it asks. -/
theorem Housed.succeeds {pairs : Pairs} {dialog : Dialog} {rest : List Dialog}
    (housed : Housed pairs (dialog :: rest)) {net : Network} {tstamp : UInt64} {str : Block} {sockid : Int32}
    {left : CalledBack} (succeeds : DialogSucceeds net tstamp str sockid pairs dialog left) :
    Housed left.2.2 (left.1.flatMap ClientEffect.asks ++ rest) := by
  cases succeeds with
  | unreachable => exact housed.drop rfl
  | connected => exact (housed.drop rfl).alloc none rfl nofun
  | username env pairs' modified => exact housed.fill rfl rfl modified
  | password env login pairs' read freed => exact housed.free rfl freed
  | kickUid => exact (housed.drop rfl).alloc (some str) rfl fun _ => nofun
  | kickReason env uidStr pairs' read freed => exact housed.free rfl freed

theorem Housed.fails {pairs : Pairs} {dialog : Dialog} {rest : List Dialog}
    (housed : Housed pairs (dialog :: rest)) {tstamp : UInt64} {left : List ClientEffect × Pairs}
    (fails : DialogFails tstamp pairs dialog left) :
    Housed left.2 (left.1.flatMap ClientEffect.asks ++ rest) := by
  cases fails with
  | serverAddr | kickUid => exact housed.drop rfl
  | username env pairs' freed | password env pairs' freed | kickReason env pairs' freed =>
    exact housed.free rfl freed

theorem Client.perform_asks (s : Client) (effect : ClientEffect) :
    (s.perform effect).2.guiQueue.flatMap GuiEvent.asks = s.guiQueue.flatMap GuiEvent.asks ++ effect.asks := by
  cases effect with
  | toGui evt => cases evt <;> simp [Client.perform, ClientEffect.asks, GuiEvent.asks]
  | _ => simp [Client.perform, ClientEffect.asks]

theorem Housed.step {did : List ClientSighting} {s s' : Client} (housed : Housed s.pairs s.dialogs)
    (calls : s.Calls) (transition : ClientTransition s did s') : Housed s'.pairs s'.dialogs := by
  cases transition with
  | performed who effect todo there =>
    have pairs : ((s.setTodo who todo).perform effect).2.pairs = s.pairs := by
      cases effect <;> cases who <;> rfl
    rw [pairs]
    apply housed.perm
    rw [← Multiset.coe_eq_coe]
    simp only [Client.dialogs, Client.perform_asks, Client.perform_gui, Client.perform_controller,
      ← Multiset.coe_add]
    cases who with
    | controller =>
      have todo_eq : s.controller.todo = effect :: todo := there
      simp only [Client.setTodo, todo_eq, List.flatMap_cons, ← Multiset.coe_add]
      abel
    | gui =>
      have todo_eq : s.gui.todo = effect :: todo := there
      simp only [Client.setTodo, todo_eq, List.flatMap_cons, ← Multiset.coe_add]
      abel
    | listener =>
      have member : effect ∈ s.listener.todo := by
        rw [show s.listener.todo = effect :: todo from there]
        exact List.mem_cons_self
      have silent := (calls.listener effect member).asks_eq_nil (by decide)
      simp [Client.setTodo, silent]
  | handled tstamp evt queue todo loggedIn pairs there other ready ran =>
    have silent : todo.flatMap ClientEffect.asks = [] := by
      rw [List.flatMap_eq_nil_iff]
      exact fun effect member => (controllerHandler_calls ran effect member).asks_eq_nil (by decide)
    have same : s.dialogs = Client.dialogs { s with
        controllerQueue := queue, controller := ⟨true, todo⟩, loggedIn := loggedIn, pairs := pairs } := by
      simp [Client.dialogs, ready, silent]
    rw [← same]
    exact housed.handled ran
  | exited queue there ready =>
    simpa [Client.dialogs, ready] using housed
  | pressed tstamp key todo ready pressed =>
    simp only [Client.dialogs, ready, GuiPhase.asks, List.flatMap_nil, List.append_nil, List.nil_append] at housed ⊢
    rcases Key.calls_asks pressed with none | one
    · simpa [none] using housed
    · simpa [one] using housed.add rfl
  | printed type author text tstamp queue ready there =>
    simpa [Client.dialogs, ready, there, GuiPhase.asks, GuiEvent.asks] using housed
  | asked dialog queue ready there =>
    apply housed.perm
    rw [← Multiset.coe_eq_coe]
    simp only [Client.dialogs, ready, there, GuiPhase.asks, GuiEvent.asks, List.flatMap_nil, List.flatMap_cons,
      List.append_nil, List.nil_append, ← Multiset.coe_add]
    abel
  | entered dialog net tstamp str todo sockid pairs ready ran =>
    simp only [Client.dialogs, ready, GuiPhase.asks, List.flatMap_nil, List.append_nil, List.cons_append,
      List.nil_append] at housed
    simpa [Client.dialogs, GuiPhase.asks] using housed.succeeds (Dialog.success_cases ran)
  | cancelled dialog tstamp todo pairs ready ran =>
    simp only [Client.dialogs, ready, GuiPhase.asks, List.flatMap_nil, List.append_nil, List.cons_append,
      List.nil_append] at housed
    simpa [Client.dialogs, GuiPhase.asks] using housed.fails (Dialog.failure_cases ran)
  | left ready | unasked ready => simpa [Client.dialogs, ready, GuiPhase.asks] using housed
  | idle | unconnected | listened | lost | iterated | joinedGui | joinedController | joinedListener => exact housed

/-! ### No callback fails -/

theorem Housed.success_isSome {pairs : Pairs} {dialog : Dialog} {rest : List Dialog}
    (housed : Housed pairs (dialog :: rest)) (net : Network) (tstamp : UInt64) (str : Block) (sockid : Int32) :
    (dialog.success net tstamp str sockid pairs).isSome = true := by
  cases dialog with
  | serverAddr | kickUid => rfl
  | username env =>
    obtain ⟨second, there⟩ := housed.there rfl
    have there' : pairs.cells env = some second := there
    simp [Dialog.success, getUsernameCallbackSuccess, Store.modify, there']
  | password env =>
    obtain ⟨login, there⟩ := housed.strings (.password env) List.mem_cons_self trivial env rfl
    have there' : pairs.cells env = some (some login) := there
    simp [Dialog.success, passwordCallbackSuccess, Store.free, there, there']
  | kickReason env =>
    obtain ⟨uidStr, there⟩ := housed.strings (.kickReason env) List.mem_cons_self trivial env rfl
    have there' : pairs.cells env = some (some uidStr) := there
    simp [Dialog.success, kickReasonCallbackSuccess, Store.free, there, there']

theorem Housed.failure_isSome {pairs : Pairs} {dialog : Dialog} {rest : List Dialog}
    (housed : Housed pairs (dialog :: rest)) (tstamp : UInt64) :
    (dialog.failure tstamp pairs).isSome = true := by
  cases dialog with
  | serverAddr | kickUid => rfl
  | username env | password env | kickReason env =>
    obtain ⟨second, there⟩ := housed.there rfl
    have there' : pairs.cells env = some second := there
    simp [Dialog.failure, loginCallbackFailure, getKickReasonFailure, Store.free, there']

/-- The handlers of the controller fail on a LIST that is cut off only. -/
theorem controllerHandler_eq_none {tstamp : Nat → UInt64} {sockid : Int32} {loggedIn : Bool} {pairs : Pairs}
    {evt : ControlEvent} (failed : controllerHandler tstamp sockid loggedIn pairs evt = none) :
    ∃ msg, evt = .list msg ∧ listEventHandler tstamp msg = none := by
  cases evt with
  | list msg => exact ⟨msg, rfl, Option.map_eq_none_iff.mp failed⟩
  | status status =>
    simp only [controllerHandler, statusEventHandler] at failed
    split at failed
    next =>
      split at failed
      next => cases failed
      next =>
        have there : (pairs.alloc none).2.cells (pairs.alloc none).1 = some none := by simp [Store.alloc]
        rw [Option.map_eq_none_iff, loginCallbackFailure, Option.map_eq_none_iff, Store.free, there] at failed
        cases failed
    next => cases failed
  | _ => cases failed

/-- In every run of the client the pairs that are allocated are those of the dialogs that are open,
wait or are about to be sent, each of one dialog; and the client crashes in no callback and no
handler, but in `list_event_handler` on a LIST that is malformed. -/
theorem client_pairs_kept {cond : Client → ClientAction → Prop} {trace : List ClientSighting} {s : Client}
    (ran : Ran Client.step cond Client.init trace s) : Housed s.pairs s.dialogs ∧
      ∀ action did rest, Client.step s action = some (did, rest) → .crashed ∈ did →
        ∃ tstamp msg, did = [.took (.list msg), .crashed] ∧ listEventHandler tstamp msg = none := by
  have housed : Housed s.pairs s.dialogs ∧ s.Calls :=
    @Ran.invariant _ _ _ _ _ _ (fun _ s => Housed s.pairs s.dialogs ∧ s.Calls) ⟨Housed.empty, Client.init_calls⟩
      (fun _ _ _ _ _ kept _ taken =>
        ⟨kept.1.step kept.2 (Client.step_transition taken), kept.2.step (Client.step_transition taken)⟩) _ _ ran
  refine ⟨housed.1, ?_⟩
  intro action did rest taken crashed
  cases rest with
  | some s' => exact absurd crashed (Client.step_transition taken).not_crashed
  | none =>
    obtain ⟨tstamp, evt, rfl, failed⟩ | ⟨dialog, rfl, open_, failed⟩ := Client.step_crashed taken
    · obtain ⟨msg, rfl, malformed⟩ := controllerHandler_eq_none failed
      exact ⟨tstamp, msg, rfl, malformed⟩
    · have held : Housed s.pairs (dialog :: s.dialogs.tail) := by
        have first : s.dialogs = dialog :: s.dialogs.tail := by simp [Client.dialogs, open_, GuiPhase.asks]
        rw [← first]
        exact housed.1
      rcases failed with ⟨net, tstamp, str, failed⟩ | ⟨tstamp, failed⟩
      · have succeeds := held.success_isSome net tstamp str s.sockid
        rw [failed] at succeeds
        cases succeeds
      · have fails := held.failure_isSome tstamp
        rw [failed] at fails
        cases fails

theorem client_pairs_kept_whole : ∃ s : Client, Housed s.pairs s.dialogs ∧
    ∀ action did rest, Client.step s action = some (did, rest) → .crashed ∈ did →
      ∃ tstamp msg, did = [.took (.list msg), .crashed] ∧ listEventHandler tstamp msg = none := by
  obtain ⟨s, ran, _⟩ := wholeTalk_ran
  exact ⟨s, client_pairs_kept ran⟩

end AcosChat

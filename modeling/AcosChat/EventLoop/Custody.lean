import AcosChat.EventLoop.Transitions
import Mathlib.Algebra.BigOperators.Group.List.Basic
import Mathlib.Algebra.Order.BigOperators.Group.Multiset

/-!
# Who has an event

An event of the heap is with its sender, with a call or in the queue of a loop, until its
deleter is called. These places together have every event that has ever been created once.
-/
namespace AcosChat

open Store Run EventLoop

variable {η δ : Type}

/-! ### Sums over lists -/

/-- One entry of a list, apart from what the others add up to. -/
theorem sum_at {β M : Type} [AddCommMonoid M] (f : β → M) {list : List β} {i : Nat} {x : β}
    (there : list[i]? = some x) : ∃ rest, (list.map f).sum = f x + rest ∧
      ((list.eraseIdx i).map f).sum = rest ∧ ∀ y, ((list.set i y).map f).sum = f y + rest := by
  obtain ⟨inside, rfl⟩ := List.getElem?_eq_some_iff.mp there
  have split (y : β) : ((list.take i ++ y :: list.drop (i + 1)).map f).sum =
      f y + (((list.take i).map f).sum + ((list.drop (i + 1)).map f).sum) := by
    rw [List.map_append, List.map_cons, List.sum_append, List.sum_cons, add_left_comm]
  refine ⟨((list.take i).map f).sum + ((list.drop (i + 1)).map f).sum, ?_, ?_, ?_⟩
  · rw [← split, ← List.drop_eq_getElem_cons inside, List.take_append_drop]
  · rw [List.eraseIdx_eq_take_drop_succ, List.map_append, List.sum_append]
  · intro y
    rw [List.set_eq_take_append_cons_drop, if_pos inside, split]

theorem mem_sum_map {β : Type} (f : β → Multiset Nat) (list : List β) (a : Nat) :
    a ∈ (list.map f).sum ↔ ∃ x ∈ list, a ∈ f x := by
  induction list with
  | nil => simp
  | cons x list ih => simp only [List.map_cons, List.sum_cons, Multiset.mem_add, ih, List.mem_cons,
      exists_eq_or_imp]

theorem mem_of_mem_set {β : Type} {list : List β} {i : Nat} {x y : β} (there : list[i]? = some y)
    {z : β} (member : z ∈ list.set i x) : z = x ∨ z ∈ list.eraseIdx i := by
  have inside := (List.getElem?_eq_some_iff.mp there).1
  rw [List.set_eq_take_append_cons_drop, if_pos inside] at member
  rw [List.eraseIdx_eq_take_drop_succ]
  rcases List.mem_append.mp member with before | after
  · exact .inr (List.mem_append_left _ before)
  · rcases List.mem_cons.mp after with same | after
    · exact .inl same
    · exact .inr (List.mem_append_right _ after)

/-! ### The places -/

namespace EventLoop

def EventPtr.addresses : EventPtr → Multiset Nat
  | .exitEvt => 0
  | .heap address => {address}

@[simp] theorem EventPtr.mem_addresses {a : Nat} {evt : EventPtr} :
    a ∈ evt.addresses ↔ evt = .heap a := by
  cases evt with
  | exitEvt => simp [addresses]
  | heap address => simp [addresses, eq_comm]

def queued (lv : Option (LoopView η δ)) : Multiset Nat :=
  match lv with
  | none => 0
  | some lv => (lv.queue.map EventPtr.addresses).sum

/-- The events that a step deletes. -/
def LoopSighting.gone : LoopSighting η δ → Multiset Nat
  | .deleted _ evt _ => evt.addresses
  | _ => 0

end EventLoop

def deletedIn (trace : List (LoopSighting η δ)) : Multiset Nat := (trace.map LoopSighting.gone).sum

def inCalls (calls : List (Stage η)) : Multiset Nat :=
  (calls.map fun stage => stage.evt.addresses).sum

def inQueues (loops : List (Option (LoopView η δ))) : Multiset Nat := (loops.map queued).sum

/-- The events that have not been deleted. -/
def held (v : Views η δ) : Multiset Nat := v.owned + inCalls v.calls + inQueues v.loops

/-- Every event that was ever created is in one place, once. -/
def Conserved (trace : List (LoopSighting η δ)) (v : Views η δ) : Prop :=
  deletedIn trace + held v = Multiset.range v.heap.next

@[simp] theorem deletedIn_append (trace did : List (LoopSighting η δ)) :
    deletedIn (trace ++ did) = deletedIn trace + deletedIn did := by
  rw [deletedIn, List.map_append, List.sum_append]
  rfl

theorem mem_deletedIn {trace : List (LoopSighting η δ)} {a : Nat} :
    a ∈ deletedIn trace ↔ ∃ l deleter, .deleted l (.heap a) deleter ∈ trace := by
  rw [deletedIn, mem_sum_map]
  constructor
  · rintro ⟨sight, member, here⟩
    cases sight with
    | deleted l evt deleter =>
      rw [LoopSighting.gone, EventPtr.mem_addresses] at here
      exact ⟨l, deleter, here ▸ member⟩
    | _ => exact absurd here (Multiset.notMem_zero a)
  · rintro ⟨l, deleter, member⟩
    exact ⟨_, member, EventPtr.mem_addresses.mpr rfl⟩

theorem mem_inCalls {calls : List (Stage η)} {a : Nat} :
    a ∈ inCalls calls ↔ ∃ stage ∈ calls, stage.evt = .heap a := by
  simp only [inCalls, mem_sum_map, EventPtr.mem_addresses]

theorem mem_inQueues {v : Views η δ} {a : Nat} :
    a ∈ inQueues v.loops ↔ ∃ l lv, v.loop l = some lv ∧ .heap a ∈ lv.queue := by
  rw [inQueues, mem_sum_map]
  constructor
  · rintro ⟨lv, member, here⟩
    cases lv with
    | none => exact absurd here (Multiset.notMem_zero a)
    | some lv =>
      obtain ⟨l, inside, same⟩ := List.getElem_of_mem member
      rw [queued, mem_sum_map] at here
      obtain ⟨evt, inQueue, same'⟩ := here
      refine ⟨l, lv, ?_, EventPtr.mem_addresses.mp same' ▸ inQueue⟩
      rw [System.loop, List.getElem?_eq_getElem inside, same]
      rfl
  · rintro ⟨l, lv, live, member⟩
    refine ⟨some lv, ?_, ?_⟩
    · exact List.mem_of_getElem? (Option.join_eq_some_iff.mp live)
    · rw [queued, mem_sum_map]
      exact ⟨_, member, EventPtr.mem_addresses.mpr rfl⟩

/-! ### Destruction -/

/-- The events of a queue are deleted in order. -/
inductive Drained (l : Nat) (exitEvt : Event δ) :
    List EventPtr → Store (Event δ) → Store (Event δ) → List (LoopSighting η δ) → Prop
  | nil (heap : Store (Event δ)) : Drained l exitEvt [] heap heap []
  | exitEvt {queue : List EventPtr} {heap heap' : Store (Event δ)} {did : List (LoopSighting η δ)}
      {deleter : Deleter δ} (bound : exitEvt.deleter = some deleter)
      (rest : Drained l exitEvt queue heap heap' did) :
      Drained l exitEvt (.exitEvt :: queue) heap heap' (.deleted l .exitEvt deleter :: did)
  | heap {queue : List EventPtr} {heap between heap' : Store (Event δ)} {did : List (LoopSighting η δ)}
      {a : Nat} {event : Event δ} {deleter : Deleter δ} (read : heap.read a = some event)
      (bound : event.deleter = some deleter) (freed : heap.free a = some between)
      (rest : Drained l exitEvt queue between heap' did) :
      Drained l exitEvt (.heap a :: queue) heap heap' (.deleted l (.heap a) deleter :: did)

theorem drain_none (l : Nat) (exitEvt : Event δ) (queue : List EventPtr) :
    queue.foldl (fun state evt => eventDestructor (η := η) l exitEvt (some evt) state) none = none := by
  induction queue with
  | nil => rfl
  | cons evt queue ih => exact ih

theorem drained_of_foldl {l : Nat} {exitEvt : Event δ} {queue : List EventPtr}
    {heap heap' : Store (Event δ)} {before did : List (LoopSighting η δ)}
    (ran : queue.foldl (fun state evt => eventDestructor l exitEvt (some evt) state)
      (some (heap, before)) = some (heap', did)) :
    ∃ later, did = before ++ later ∧ Drained l exitEvt queue heap heap' later := by
  induction queue generalizing heap before with
  | nil =>
    cases ran
    exact ⟨[], (List.append_nil _).symm, .nil _⟩
  | cons evt queue ih =>
    rw [List.foldl_cons] at ran
    cases first : eventDestructor l exitEvt (some evt) (some (heap, before)) with
    | none =>
      rw [first, drain_none] at ran
      cases ran
    | some state =>
      rw [first] at ran
      obtain ⟨later, rfl, drained⟩ := ih ran
      cases evt with
      | exitEvt =>
        obtain ⟨deleter, bound, same⟩ := Option.bind_eq_some_iff.mp first
        cases same
        exact ⟨_, List.append_assoc _ _ _, .exitEvt bound drained⟩
      | heap a =>
        obtain ⟨event, read, same⟩ := Option.bind_eq_some_iff.mp first
        obtain ⟨between, freed, same⟩ := Option.bind_eq_some_iff.mp same
        obtain ⟨deleter, bound, same⟩ := Option.bind_eq_some_iff.mp same
        cases same
        exact ⟨_, List.append_assoc _ _ _, .heap read bound freed drained⟩

theorem drained_of_drain {l : Nat} {exitEvt : Event δ} {queue : List EventPtr}
    {heap heap' : Store (Event δ)} {did : List (LoopSighting η δ)}
    (ran : drain l exitEvt queue heap = some (heap', did)) : Drained l exitEvt queue heap heap' did := by
  obtain ⟨later, same, drained⟩ := drained_of_foldl ran
  rwa [same, List.nil_append]

namespace Drained

variable {l : Nat} {exitEvt : Event δ} {queue : List EventPtr} {heap heap' : Store (Event δ)}
  {did : List (LoopSighting η δ)}

theorem deletedIn_eq (drained : Drained l exitEvt queue heap heap' did) :
    deletedIn did = (queue.map EventPtr.addresses).sum := by
  induction drained with
  | nil => rfl
  | exitEvt _ _ ih => rw [List.map_cons, List.sum_cons, ← ih]; rfl
  | heap _ _ _ _ ih => rw [List.map_cons, List.sum_cons, ← ih]; rfl

theorem next_eq (drained : Drained l exitEvt queue heap heap' did) : heap'.next = heap.next := by
  induction drained with
  | nil => rfl
  | exitEvt _ _ ih => exact ih
  | heap _ _ freed _ ih =>
    obtain ⟨_, _, next, _⟩ := Store.free_eq_some freed
    rw [ih, next]

/-- The events that are not in the queue stay. -/
theorem read_eq (drained : Drained l exitEvt queue heap heap' did) {b : Nat}
    (outside : .heap b ∉ queue) : heap'.read b = heap.read b := by
  induction drained with
  | nil => rfl
  | exitEvt _ _ ih => exact ih (fun member => outside (List.mem_cons_of_mem _ member))
  | @heap queue heap between heap' did a _ _ _ _ freed _ ih =>
    obtain ⟨_, _, _, same⟩ := Store.free_eq_some freed
    have other : b ≠ a := fun same => outside (same ▸ List.mem_cons_self)
    rw [ih (fun member => outside (List.mem_cons_of_mem _ member)), same, if_neg other]

end Drained

/-! ### Balance -/

theorem EventLoop.System.setDeleter_frame {Λ : Type} {s t : System Λ η δ} {evt : EventPtr}
    {deleter : Option (Deleter δ)} (set : s.setDeleter evt deleter = some t) :
    t.loops = s.loops ∧ t.calls = s.calls ∧ t.owned = s.owned ∧ t.heap.next = s.heap.next := by
  cases evt with
  | exitEvt =>
    cases set
    exact ⟨rfl, rfl, rfl, rfl⟩
  | heap a =>
    obtain ⟨heap, wrote, same⟩ := Option.bind_eq_some_iff.mp set
    obtain ⟨_, _, next, _⟩ := Store.modify_eq_some wrote
    cases same
    exact ⟨rfl, rfl, rfl, next⟩

/-- What a send sets only if it is null. -/
theorem defaulted_frame {Λ : Type} {s t : System Λ η δ} {evt : EventPtr} {event : Event δ}
    {deleter : Option (Deleter δ)}
    (set : (if event.deleter = none then s.setDeleter evt deleter else some s) = some t) :
    t.loops = s.loops ∧ t.calls = s.calls ∧ t.owned = s.owned ∧ t.heap.next = s.heap.next := by
  split at set
  · exact System.setDeleter_frame set
  · cases set
    exact ⟨rfl, rfl, rfl, rfl⟩

theorem EventLoop.System.release_frame {Λ : Type} {s t : System Λ η δ} {evt : EventPtr}
    (gone : s.release evt = some t) :
    t.loops = s.loops ∧ t.calls = s.calls ∧ t.owned = s.owned ∧ t.heap.next = s.heap.next := by
  cases evt with
  | exitEvt =>
    cases gone
    exact ⟨rfl, rfl, rfl, rfl⟩
  | heap a =>
    obtain ⟨heap, freed, same⟩ := Option.bind_eq_some_iff.mp gone
    obtain ⟨_, _, next, _⟩ := Store.free_eq_some freed
    cases same
    exact ⟨rfl, rfl, rfl, next⟩

section Places

variable {s : Views η δ} {i : Nat} {old : Stage η}

/-- What the other calls hold, apart from what one does. -/
theorem inCalls_at (there : s.calls[i]? = some old) : ∃ others,
    inCalls s.calls = old.evt.addresses + others ∧ inCalls (s.finish i).calls = others ∧
      ∀ stage, inCalls (s.setCall i stage).calls = stage.evt.addresses + others :=
  sum_at (fun stage : Stage η => stage.evt.addresses) there

theorem inCalls_begin (stage : Stage η) :
    inCalls (s.begin stage).calls = inCalls s.calls + stage.evt.addresses := by
  rw [System.begin, inCalls, List.map_append, List.sum_append]
  simp only [List.map_cons, List.map_nil, List.sum_cons, List.sum_nil, add_zero, inCalls]

/-- What the queues of the other loops hold, apart from that of one. -/
theorem inQueues_at {l : Nat} {lv : LoopView η δ} (live : s.loop l = some lv) : ∃ others,
    inQueues s.loops = queued (some lv) + others ∧
      (∀ lv', inQueues (s.setLoop l lv').loops = queued (some lv') + others) ∧
      inQueues (s.loops.set l none) = others := by
  obtain ⟨others, before, _, after⟩ := sum_at queued (Option.join_eq_some_iff.mp live)
  refine ⟨others, before, fun lv' => after (some lv'), ?_⟩
  have unset := after none
  rwa [queued, zero_add] at unset

end Places

/-- A step after which nothing more is deleted, held or created keeps the balance. -/
theorem Conserved.keep {trace did : List (LoopSighting η δ)} {v v' : Views η δ}
    (balanced : Conserved trace v) (none : deletedIn did = 0) (same : held v' = held v)
    (next : v'.heap.next = v.heap.next) : Conserved (trace ++ did) v' := by
  rw [Conserved, deletedIn_append, none, add_zero, same, next]
  exact balanced

/-- What a step deletes, it takes from what is held. -/
theorem Conserved.delete {trace did : List (LoopSighting η δ)} {v v' : Views η δ}
    (balanced : Conserved trace v) (gone : held v = deletedIn did + held v')
    (next : v'.heap.next = v.heap.next) : Conserved (trace ++ did) v' := by
  rw [Conserved, deletedIn_append, next, add_assoc, ← gone]
  exact balanced

theorem held_setLoop {v : Views η δ} {l : Nat} {lv lv' : LoopView η δ} (live : v.loop l = some lv)
    (same : lv'.queue = lv.queue) : held (v.setLoop l lv') = held v := by
  obtain ⟨others, before, after, _⟩ := inQueues_at live
  have queues : inQueues (v.setLoop l lv').loops = inQueues v.loops := by
    rw [before, after, EventLoop.queued, EventLoop.queued, same]
  rw [held, queues]
  rfl

theorem held_setCall {v : Views η δ} {i : Nat} {old new : Stage η} (there : v.calls[i]? = some old)
    (same : new.evt = old.evt) : held (v.setCall i new) = held v := by
  obtain ⟨others, before, _, after⟩ := inCalls_at there
  have calls : inCalls (v.setCall i new).calls = inCalls v.calls := by
    rw [before, after, same]
  rw [held, calls]
  rfl

theorem held_of_frame {v w : Views η δ} (loops : w.loops = v.loops) (calls : w.calls = v.calls)
    (owned : w.owned = v.owned) : held w = held v := by
  rw [held, loops, calls, owned, held]

theorem held_finish {v : Views η δ} {i : Nat} {old : Stage η} (there : v.calls[i]? = some old) :
    held v = old.evt.addresses + held (v.finish i) := by
  obtain ⟨others, before, after, _⟩ := inCalls_at there
  rw [held, held, before, after]
  simp only [System.finish]
  ac_rfl

/-- A sender's event goes to the call that sends it. -/
theorem held_give {v : Views η δ} {evt : EventPtr} {stage : Stage η} (same : stage.evt = evt)
    (owned : ∀ a, evt = .heap a → a ∈ v.owned) : held ((v.give evt).begin stage) = held v := by
  have calls := inCalls_begin (s := v.give evt) stage
  rw [held, calls, same]
  cases evt with
  | exitEvt =>
    rw [EventPtr.addresses, add_zero]
    rfl
  | heap a =>
    have whole : (v.owned.erase a : Multiset Nat) + {a} = v.owned := by
      rw [← Multiset.coe_erase, add_comm, Multiset.singleton_add,
        Multiset.cons_erase (Multiset.mem_coe.mpr (owned a rfl))]
    have moved : (v.owned.erase a : Multiset Nat) + (inCalls v.calls + {a}) + inQueues v.loops =
        (v.owned.erase a : Multiset Nat) + {a} + inCalls v.calls + inQueues v.loops := by
      ac_rfl
    rw [whole] at moved
    exact moved

/-- An event that enters or leaves a queue. -/
theorem held_enqueue {v : Views η δ} {l : Nat} {lv : LoopView η δ} {evt : EventPtr}
    (live : v.loop l = some lv) (lv' : LoopView η δ) (more : lv'.queue.Perm (evt :: lv.queue)) :
    held (v.setLoop l lv') = evt.addresses + held v := by
  obtain ⟨others, before, after, _⟩ := inQueues_at live
  have queue : EventLoop.queued (some lv') = evt.addresses + EventLoop.queued (some lv) := by
    rw [EventLoop.queued, EventLoop.queued, (more.map _).sum_eq, List.map_cons, List.sum_cons]
  have queues : inQueues (v.setLoop l lv').loops = evt.addresses + inQueues v.loops := by
    rw [after, before, queue, add_assoc]
  rw [held, held, queues, System.setLoop]
  ac_rfl

theorem held_dequeue {v : Views η δ} {l : Nat} {lv : LoopView η δ} {evt : EventPtr}
    {rest : List EventPtr} (live : v.loop l = some lv) (front : lv.queue = evt :: rest) :
    held v = evt.addresses + held (v.setLoop l { lv with queue := rest }) := by
  obtain ⟨others, before, after, _⟩ := inQueues_at live
  have queue : EventLoop.queued (some lv) =
      evt.addresses + EventLoop.queued (some { lv with queue := rest }) := by
    rw [EventLoop.queued, EventLoop.queued, front, List.map_cons, List.sum_cons]
  rw [held, held, after, before, queue, System.setLoop]
  ac_rfl

/-- The events of the heap that are in queues are not of the type of `EXIT_EVT`. -/
def Typed (v : Views η δ) : Prop :=
  ∀ l lv, v.loop l = some lv → ∀ a, .heap a ∈ lv.queue → ∀ event, v.heap.read a = some event →
    event.type ≠ exitEventType

theorem LoopTransition.balanced {trace did : List (LoopSighting η δ)} {v v' : Views η δ}
    (balanced : Conserved trace v) (typed : Typed v) (transition : LoopTransition v did v') :
    Conserved (trace ++ did) v' := by
  cases transition with
  | init =>
    refine balanced.keep ?_ ?_ rfl
    · simp [deletedIn, LoopSighting.gone]
    · simp [held, inQueues, EventLoop.queued]
  | @destroyed l lv heap did live unused drained =>
    have drained := drained_of_drain drained
    obtain ⟨others, before, _, unset⟩ := inQueues_at live
    refine balanced.delete ?_ drained.next_eq
    have gone : deletedIn (did ++ [.destroyed l]) = EventLoop.queued (some lv) := by
      rw [deletedIn_append, drained.deletedIn_eq]
      simp [deletedIn, LoopSighting.gone, EventLoop.queued]
    rw [held, held, before, unset, gone]
    ac_rfl
  | handlers live handlers => exact balanced.keep rfl (held_setLoop live rfl) rfl
  | registered live key deleter =>
    exact balanced.keep (by simp [deletedIn, LoopSighting.gone]) (held_setLoop live rfl) rfl
  | created type =>
    have before := balanced
    rw [Conserved] at before ⊢
    rw [List.append_nil, show ((v.heap.alloc (⟨type, none⟩ : Event δ)).2).next = v.heap.next + 1 from rfl,
      Multiset.range_succ, ← before, held, held, ← Multiset.coe_add, ← Multiset.singleton_add,
      Multiset.coe_singleton]
    ac_rfl
  | @sent l lv evt event w live sendable urgent read set =>
    obtain ⟨loops, calls, owned, next⟩ := System.setDeleter_frame set
    have mine : ∀ a, evt = .heap a → a ∈ w.owned := by
      rintro a rfl
      rw [owned]
      exact sendable.1
    have given : held ((w.give evt).begin (.found l evt urgent)) = held w := held_give rfl mine
    refine balanced.keep (by simp [deletedIn, LoopSighting.gone]) ?_ (by cases evt <;> exact next)
    rw [given, held_of_frame loops calls owned]
  | @defaulted i l evt urgent event w there read set =>
    obtain ⟨loops, calls, owned, next⟩ := defaulted_frame set
    refine balanced.keep rfl ?_ next
    have there' : w.calls[i]? = some (.found l evt urgent) := calls ▸ there
    have same : held (w.setCall i (.ready l evt urgent)) = held w := held_setCall there' rfl
    rw [same, held_of_frame loops calls owned]
  | @queued i l evt urgent lv there live =>
    refine balanced.keep (by simp [deletedIn, LoopSighting.gone]) ?_ rfl
    have more : (if urgent then evt :: lv.queue else lv.queue ++ [evt]).Perm (evt :: lv.queue) := by
      cases urgent with
      | true => exact .refl _
      | false => exact List.perm_append_singleton evt lv.queue
    have entered := held_enqueue live { lv with
      queue := if urgent then evt :: lv.queue else lv.queue ++ [evt] } more
    have left := held_finish (v := v.setLoop l { lv with
      queue := if urgent then evt :: lv.queue else lv.queue ++ [evt] }) there
    exact add_left_cancel (left.symm.trans entered)
  | idle live empty => exact balanced.keep (by simp [deletedIn, LoopSighting.gone]) rfl rfl
  | @left l lv evt rest event live front read exit =>
    refine balanced.keep (by simp [deletedIn, LoopSighting.gone]) ?_ rfl
    have none : evt.addresses = 0 := by
      cases evt with
      | exitEvt => rfl
      | heap a => exact absurd exit (typed l lv live a (front ▸ List.mem_cons_self) event read)
    rw [held_dequeue live front, none, zero_add]
  | @taken l lv evt rest event live front read other =>
    refine balanced.keep (by simp [deletedIn, LoopSighting.gone]) ?_ rfl
    rw [held_dequeue live front, held, inCalls_begin, Stage.evt, held]
    simp only [System.begin]
    ac_rfl
  | looked there handler => exact balanced.keep rfl (held_setCall there rfl) rfl
  | @handled i l evt handler there =>
    refine balanced.keep ?_ (held_setCall there rfl) rfl
    cases handler <;> simp [deletedIn, LoopSighting.gone]
  | @deleted i l evt event deleter w there read bound gone =>
    obtain ⟨loops, calls, owned, next⟩ := System.release_frame gone
    refine balanced.delete ?_ next
    rw [← held_of_frame loops calls owned, held_finish (calls ▸ there)]
    simp [deletedIn, LoopSighting.gone, Stage.evt]

end AcosChat

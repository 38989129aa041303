import AcosChat.EventLoop.Custody

/-!
# Which deleter an event has

A send binds its event to the deleter that is registered for its type at that time, or to
the default deleter; the event keeps it until it is deleted. `EXIT_EVT` is bound to the stub
that every loop registers when it is initialised.
-/
namespace AcosChat

open Std Store Run EventLoop

variable {η δ : Type}

/-! ### The registry of a loop -/

/-- The first registration of a deleter for a type; a later one has no effect. -/
def firstRegistration (trace : List (LoopSighting η δ)) (l : Nat) (key : UInt64) :
    Option (Option (Deleter δ)) :=
  trace.findSome? fun
    | .registered l' key' deleter => if l' = l ∧ key' = key then some deleter else none
    | _ => none

/-- What `ts_map_find` of a deleter finds. -/
def registeredFor (trace : List (LoopSighting η δ)) (l : Nat) (key : UInt64) : Option (Deleter δ) :=
  (firstRegistration trace l key).join

theorem firstRegistration_append (trace did : List (LoopSighting η δ)) (l : Nat) (key : UInt64) :
    firstRegistration (trace ++ did) l key =
      (firstRegistration trace l key).or (firstRegistration did l key) :=
  List.findSome?_append

theorem firstRegistration_singleton (l l' : Nat) (key key' : UInt64) (deleter : Option (Deleter δ)) :
    firstRegistration (η := η) [.registered l key deleter] l' key' =
      if l = l' ∧ key = key' then some deleter else none := by
  rw [firstRegistration, List.findSome?_cons, List.findSome?_nil]
  split <;> simp_all

/-- The loops that have been initialised have the deleters that the trace registers. -/
structure Registries (trace : List (LoopSighting η δ)) (v : Views η δ) : Prop where
  deleters : ∀ l lv, v.loop l = some lv → ∀ key, lv.deleters[key]? = firstRegistration trace l key
  stub : ∀ l lv, v.loop l = some lv →
    firstRegistration trace l (mapKey exitEventType) = some (some .stub)
  new : ∀ l, v.loops.length ≤ l → ∀ key, firstRegistration trace l key = none

/-- A step that registers nothing. -/
theorem Registries.keep {trace did : List (LoopSighting η δ)} {v v' : Views η δ}
    (registered : Registries trace v) (nothing : ∀ l key, firstRegistration did l key = none)
    (loops : ∀ l lv', v'.loop l = some lv' → ∃ lv, v.loop l = some lv ∧ lv'.deleters = lv.deleters)
    (count : v'.loops.length = v.loops.length) : Registries (trace ++ did) v' := by
  have same (l : Nat) (key : UInt64) : firstRegistration (trace ++ did) l key =
      firstRegistration trace l key := by
    rw [firstRegistration_append, nothing, Option.or_none]
  constructor
  · intro l lv' live key
    obtain ⟨lv, live, deleters⟩ := loops l lv' live
    rw [same, deleters, registered.deleters l lv live]
  · intro l lv' live
    obtain ⟨lv, live, _⟩ := loops l lv' live
    rw [same, registered.stub l lv live]
  · intro l new key
    rw [same, registered.new l (count ▸ new)]

/-- A loop that is set keeps its deleters. -/
theorem deleters_setLoop {v : Views η δ} {l : Nat} {lv lv' : LoopView η δ} (live : v.loop l = some lv)
    (same : lv'.deleters = lv.deleters) (k : Nat) (lk : LoopView η δ)
    (there : (v.setLoop l lv').loop k = some lk) :
    ∃ lv, v.loop k = some lv ∧ lk.deleters = lv.deleters := by
  rw [System.loop_setLoop live] at there
  split at there
  next here =>
    cases there
    exact ⟨lv, here ▸ live, same⟩
  next => exact ⟨lk, there, rfl⟩

theorem loop_of_loops {s t : Views η δ} (same : s.loops = t.loops) (l : Nat) : s.loop l = t.loop l := by
  rw [System.loop, System.loop, same]

theorem Drained.not_registered {l : Nat} {exitEvt : Event δ} {queue : List EventPtr}
    {heap heap' : Store (Event δ)} {did : List (LoopSighting η δ)}
    (drained : Drained l exitEvt queue heap heap' did) (k : Nat) (key : UInt64) :
    firstRegistration (did ++ [.destroyed l]) k key = none := by
  induction drained with
  | nil => rfl
  | exitEvt _ _ ih => exact ih
  | heap _ _ _ _ ih => exact ih

theorem LoopTransition.registered_step {trace did : List (LoopSighting η δ)} {v v' : Views η δ}
    (registered : Registries trace v) (transition : LoopTransition v did v') :
    Registries (trace ++ did) v' := by
  cases transition with
  | init =>
    -- nothing was registered for the new loop before it was there
    constructor
    · intro l lv live key
      rw [System.loop_append (s := v) rfl] at live
      rw [firstRegistration_append, firstRegistration_singleton]
      split at live
      next same =>
        cases live
        rw [registered.new l same.ge, Option.none_or, ExtTreeMap.getElem?_insertIfNew]
        simp [same]
      next other =>
        rw [registered.deleters l lv live, if_neg (fun h => other h.1.symm), Option.or_none]
    · intro l lv live
      rw [System.loop_append (s := v) rfl] at live
      rw [firstRegistration_append, firstRegistration_singleton]
      split at live
      next same => rw [registered.new l same.ge, Option.none_or, if_pos ⟨same.symm, rfl⟩]
      next other => rw [registered.stub l lv live, Option.some_or]
    · intro l new key
      rw [List.length_append, List.length_singleton] at new
      rw [firstRegistration_append, firstRegistration_singleton, registered.new l (by omega), if_neg (by omega)]
      rfl
  | @destroyed l lv heap did live unused drained =>
    refine registered.keep (drained_of_drain drained).not_registered ?_ (List.length_set)
    intro k lk there
    rw [System.loop_unset (s := v) rfl] at there
    split at there
    · cases there
    · exact ⟨lk, there, rfl⟩
  | handlers live handlers =>
    exact registered.keep (fun _ _ => rfl) (deleters_setLoop live rfl) List.length_set
  | @registered l lv live key deleter =>
    -- a key that the loop has keeps its deleter, as the first registration of the key stays the first
    constructor
    · intro l' lv' live' key'
      rw [System.loop_setLoop live] at live'
      rw [firstRegistration_append, firstRegistration_singleton]
      split at live'
      next same =>
        subst same
        cases live'
        rw [ExtTreeMap.getElem?_insertIfNew, ← registered.deleters l' lv live]
        by_cases other : key = key'
        · subst other
          cases found : lv.deleters[key]? with
          | none => simp_all
          | some old =>
            have member : key ∈ lv.deleters := by simp [ExtTreeMap.mem_iff_isSome_getElem?, found]
            simp [member]
        · simp [other]
      next other =>
        rw [registered.deleters l' lv' live', if_neg (fun h => other h.1.symm), Option.or_none]
    · intro l' lv' live'
      rw [System.loop_setLoop live] at live'
      rw [firstRegistration_append]
      split at live'
      next same => rw [same, registered.stub l lv live, Option.some_or]
      next other => rw [registered.stub l' lv' live', Option.some_or]
    · intro l' new key'
      rw [System.setLoop, List.length_set] at new
      have inside := System.lt_of_loop live
      rw [firstRegistration_append, firstRegistration_singleton, registered.new l' new, if_neg (by omega)]
      rfl
  | created type => exact registered.keep (fun _ _ => rfl) (fun _ lv live => ⟨lv, live, rfl⟩) rfl
  | @sent l lv evt event w live sendable urgent read set =>
    obtain ⟨loops, _⟩ := System.setDeleter_frame set
    refine registered.keep (fun _ _ => rfl) ?_ ?_
    · intro k lk there
      rw [loop_of_loops (t := v) (by cases evt <;> exact loops)] at there
      exact ⟨lk, there, rfl⟩
    · cases evt <;> exact congrArg List.length loops
  | @defaulted i l evt urgent event w there read set =>
    have loops := (defaulted_frame set).1
    refine registered.keep (fun _ _ => rfl) ?_ (congrArg List.length loops)
    intro k lk there
    rw [loop_of_loops (t := v) (by exact loops)] at there
    exact ⟨lk, there, rfl⟩
  | queued there live =>
    exact registered.keep (fun _ _ => rfl) (deleters_setLoop live rfl) List.length_set
  | idle live empty => exact registered.keep (fun _ _ => rfl) (fun _ lv live => ⟨lv, live, rfl⟩) rfl
  | left live front read exit =>
    exact registered.keep (fun _ _ => rfl) (deleters_setLoop live rfl) List.length_set
  | taken live front read other =>
    exact registered.keep (fun _ _ => rfl) (deleters_setLoop live rfl) List.length_set
  | looked there handler =>
    exact registered.keep (fun _ _ => rfl) (fun _ lv live => ⟨lv, live, rfl⟩) rfl
  | @handled i l evt handler there =>
    refine registered.keep ?_ (fun _ lv live => ⟨lv, live, rfl⟩) rfl
    cases handler <;> exact fun _ _ => rfl
  | deleted there read bound gone =>
    obtain ⟨loops, _⟩ := System.release_frame gone
    refine registered.keep (fun _ _ => rfl) ?_ (congrArg List.length loops)
    intro k lk there
    rw [loop_of_loops (t := v) (by exact loops)] at there
    exact ⟨lk, there, rfl⟩

/-! ### Distinct places -/

section Distinct

variable {trace : List (LoopSighting η δ)} {v : Views η δ}

theorem mem_held {a : Nat} : a ∈ held v ↔ a ∈ v.owned ∨ (∃ stage ∈ v.calls, stage.evt = .heap a) ∨
    ∃ l lv, v.loop l = some lv ∧ .heap a ∈ lv.queue := by
  rw [held, Multiset.mem_add, Multiset.mem_add, mem_inCalls, mem_inQueues, Multiset.mem_coe, or_assoc]

theorem held_of_call {stage : Stage η} {a : Nat} (member : stage ∈ v.calls)
    (same : stage.evt = .heap a) : a ∈ held v :=
  mem_held.mpr (.inr (.inl ⟨stage, member, same⟩))

theorem held_of_queue {l : Nat} {lv : LoopView η δ} {a : Nat} (live : v.loop l = some lv)
    (member : .heap a ∈ lv.queue) : a ∈ held v :=
  mem_held.mpr (.inr (.inr ⟨l, lv, live, member⟩))

theorem used_held {a : Nat} (member : a ∈ inCalls v.calls + inQueues v.loops) : a ∈ held v := by
  rw [held, add_assoc]
  exact Multiset.mem_add.mpr (.inr member)

variable (balanced : Conserved trace v)

include balanced

theorem Conserved.nodup : (deletedIn trace + held v).Nodup :=
  balanced ▸ Multiset.nodup_range _

theorem Conserved.lt_next {a : Nat} (member : a ∈ held v) : a < v.heap.next := by
  rw [← Multiset.mem_range, ← balanced, Multiset.mem_add]
  exact .inr member

/-- What one place has, the others do not. -/
theorem Conserved.apart {here others : Multiset Nat} (split : held v = here + others) {a : Nat}
    (member : a ∈ others) : a ∉ here := by
  have distinct := (Multiset.nodup_add.mp balanced.nodup).2.1
  rw [split] at distinct
  exact fun same => Multiset.disjoint_left.mp (Multiset.nodup_add.mp distinct).2.2 same member

theorem Conserved.apart_call {i : Nat} {stage : Stage η} (there : v.calls[i]? = some stage) {a : Nat}
    (member : a ∈ held (v.finish i)) : stage.evt ≠ .heap a :=
  fun same => balanced.apart (held_finish there) member (EventPtr.mem_addresses.mpr same)

theorem Conserved.apart_owned {a : Nat} (member : a ∈ inCalls v.calls + inQueues v.loops) :
    a ∉ v.owned :=
  balanced.apart (by rw [held, add_assoc]) member

theorem Conserved.apart_queue {l : Nat} {lv : LoopView η δ} (live : v.loop l = some lv) {a : Nat}
    (member : a ∈ held { v with loops := v.loops.set l none }) : .heap a ∉ lv.queue := by
  intro queued
  obtain ⟨others, before, _, unset⟩ := inQueues_at live
  have split : held v = EventLoop.queued (some lv) + held { v with loops := v.loops.set l none } := by
    rw [held, held, before, unset]
    ac_rfl
  apply balanced.apart split member
  rw [EventLoop.queued, mem_sum_map]
  exact ⟨_, queued, EventPtr.mem_addresses.mpr rfl⟩

theorem Conserved.queue_nodup {l : Nat} {lv : LoopView η δ} (live : v.loop l = some lv) :
    (lv.queue.map EventPtr.addresses).sum.Nodup := by
  obtain ⟨others, before, _, _⟩ := inQueues_at live
  have distinct := (Multiset.nodup_add.mp balanced.nodup).2.1
  rw [held, before] at distinct
  exact (Multiset.nodup_add.mp (Multiset.nodup_add.mp distinct).2.1).1

end Distinct

/-! ### What an event is bound to -/

namespace EventLoop

/-- The loop that the call is about. -/
def Stage.loop : Stage η → Nat
  | .found l _ _ | .ready l _ _ | .popped l _ | .handling l _ _ | .handled l _ => l

/-- A send has not yet replaced a null deleter by the default one. -/
def Stage.isSet : Stage η → Bool
  | .found _ _ _ => false
  | _ => true

def Stage.sends : Stage η → Bool
  | .found _ _ _ | .ready _ _ _ => true
  | _ => false

end EventLoop

/-- An event was sent to a loop that had this deleter for its type. -/
def SentWith (trace : List (LoopSighting η δ)) (l a : Nat) (deleter : Option (Deleter δ)) : Prop :=
  ∃ before type after, trace = before ++ .sent l (.heap a) type :: after ∧
    deleter = registeredFor before l (mapKey type)

theorem SentWith.append {trace : List (LoopSighting η δ)} {l a : Nat} {deleter : Option (Deleter δ)}
    (sent : SentWith trace l a deleter) (did : List (LoopSighting η δ)) :
    SentWith (trace ++ did) l a deleter := by
  obtain ⟨before, type, after, rfl, same⟩ := sent
  exact ⟨before, type, after ++ did, by rw [List.append_assoc, List.cons_append], same⟩

def BoundTo (trace : List (LoopSighting η δ)) (v : Views η δ) (l : Nat) (isSet : Bool) : EventPtr → Prop
  | .exitEvt => v.exitEvt.deleter = some .stub
  | .heap a => ∃ event deleter, v.heap.read a = some event ∧ event.type ≠ exitEventType ∧
      SentWith trace l a deleter ∧
      event.deleter = if isSet then some (deleter.getD .default) else deleter

/-- Every event that is with a call or in a queue has the deleter that its send found. -/
structure Bound (trace : List (LoopSighting η δ)) (v : Views η δ) : Prop where
  exitType : v.exitEvt.type = exitEventType
  calls : ∀ stage ∈ v.calls, BoundTo trace v stage.loop stage.isSet stage.evt
  iterating : ∀ stage ∈ v.calls, stage.sends = false → stage.evt ≠ .exitEvt
  queues : ∀ l lv, v.loop l = some lv → ∀ evt ∈ lv.queue, BoundTo trace v l true evt

/-- A step leaves an event as it is. -/
def SameEvent (v v' : Views η δ) (evt : EventPtr) : Prop :=
  ∀ a, evt = .heap a → v'.heap.read a = v.heap.read a

theorem BoundTo.keep {trace : List (LoopSighting η δ)} {v v' : Views η δ} {l : Nat} {isSet : Bool}
    {evt : EventPtr} (bound : BoundTo trace v l isSet evt)
    (exit : v.exitEvt.deleter = some .stub → v'.exitEvt.deleter = some .stub)
    (same : SameEvent v v' evt) (did : List (LoopSighting η δ)) :
    BoundTo (trace ++ did) v' l isSet evt := by
  cases evt with
  | exitEvt => exact exit bound
  | heap a =>
    obtain ⟨event, deleter, read, other, sent, set⟩ := bound
    exact ⟨event, deleter, (same a rfl).trans read, other, sent.append did, set⟩

/-- A step binds the events that it moves, and leaves the others where they are. -/
theorem Bound.step {trace did : List (LoopSighting η δ)} {v v' : Views η δ} (bound : Bound trace v)
    (type : v'.exitEvt.type = v.exitEvt.type)
    (exit : v.exitEvt.deleter = some .stub → v'.exitEvt.deleter = some .stub)
    (calls : ∀ stage ∈ v'.calls, stage ∈ v.calls ∧ SameEvent v v' stage.evt ∨
      BoundTo (trace ++ did) v' stage.loop stage.isSet stage.evt ∧
        (stage.sends = false → stage.evt ≠ .exitEvt))
    (queues : ∀ l lv', v'.loop l = some lv' → ∀ evt ∈ lv'.queue,
      (∃ lv, v.loop l = some lv ∧ evt ∈ lv.queue ∧ SameEvent v v' evt) ∨
      BoundTo (trace ++ did) v' l true evt) : Bound (trace ++ did) v' := by
  constructor
  · rw [type, bound.exitType]
  · intro stage member
    rcases calls stage member with ⟨old, same⟩ | ⟨new, _⟩
    · exact (bound.calls stage old).keep exit same did
    · exact new
  · intro stage member
    rcases calls stage member with ⟨old, _⟩ | ⟨_, new⟩
    · exact bound.iterating stage old
    · exact new
  · intro l lv' live evt member
    rcases queues l lv' live evt member with ⟨lv, live, old, same⟩ | new
    · exact (bound.queues l lv live evt old).keep exit same did
    · exact new

namespace EventLoop.System

variable {Λ : Type} {s t : System Λ η δ} {evt : EventPtr} {deleter : Option (Deleter δ)}

theorem setDeleter_exitEvt (set : s.setDeleter evt deleter = some t) :
    t.exitEvt = if evt = .exitEvt then { s.exitEvt with deleter := deleter } else s.exitEvt := by
  cases evt with
  | exitEvt =>
    cases set
    rfl
  | heap a =>
    obtain ⟨heap, wrote, same⟩ := Option.bind_eq_some_iff.mp set
    cases same
    rfl

theorem setDeleter_read (set : s.setDeleter evt deleter = some t) (b : Nat) :
    t.heap.read b = if evt = .heap b then
      (s.heap.read b).map fun event => { event with deleter := deleter } else s.heap.read b := by
  cases evt with
  | exitEvt =>
    cases set
    rfl
  | heap a =>
    obtain ⟨heap, wrote, same⟩ := Option.bind_eq_some_iff.mp set
    obtain ⟨event, there, _, read⟩ := Store.modify_eq_some wrote
    cases same
    rw [read b]
    by_cases here : b = a
    · subst here
      rw [if_pos rfl, if_pos rfl, there]
      rfl
    · rw [if_neg here, if_neg (fun same => here (EventPtr.heap.inj same).symm)]

theorem release_exitEvt (gone : s.release evt = some t) : t.exitEvt = s.exitEvt := by
  cases evt with
  | exitEvt =>
    cases gone
    rfl
  | heap a =>
    obtain ⟨heap, freed, same⟩ := Option.bind_eq_some_iff.mp gone
    cases same
    rfl

theorem release_read (gone : s.release evt = some t) {b : Nat} (other : evt ≠ .heap b) :
    t.heap.read b = s.heap.read b := by
  cases evt with
  | exitEvt =>
    cases gone
    rfl
  | heap a =>
    obtain ⟨heap, freed, same⟩ := Option.bind_eq_some_iff.mp gone
    obtain ⟨_, _, _, read⟩ := Store.free_eq_some freed
    cases same
    rw [read b, if_neg (fun same => other (congrArg EventPtr.heap same.symm))]

end EventLoop.System

/-- What is in a queue after one loop is set. -/
theorem queues_setLoop {v : Views η δ} {l k : Nat} {lv lv' lk : LoopView η δ} {evt : EventPtr}
    (live : v.loop l = some lv) (there : (v.setLoop l lv').loop k = some lk) (member : evt ∈ lk.queue) :
    k = l ∧ evt ∈ lv'.queue ∨ ∃ lv, v.loop k = some lv ∧ evt ∈ lv.queue := by
  rw [System.loop_setLoop live] at there
  split at there
  next same =>
    cases there
    exact .inl ⟨same, member⟩
  next => exact .inr ⟨lk, there, member⟩

theorem queues_kept {v : Views η δ} {l k : Nat} {lv lv' lk : LoopView η δ} {evt : EventPtr}
    (live : v.loop l = some lv) (there : (v.setLoop l lv').loop k = some lk) (member : evt ∈ lk.queue)
    (fewer : ∀ evt ∈ lv'.queue, evt ∈ lv.queue) : ∃ lv, v.loop k = some lv ∧ evt ∈ lv.queue := by
  rcases queues_setLoop live there member with ⟨rfl, here⟩ | elsewhere
  · exact ⟨lv, live, fewer evt here⟩
  · exact elsewhere

/-- A null deleter becomes the default one; another stays. -/
theorem BoundTo.defaulted {trace : List (LoopSighting η δ)} {v w : Views η δ} {l : Nat}
    {evt : EventPtr} {event : Event δ} (before : BoundTo trace v l false evt)
    (read : v.event evt = some event)
    (set : (if event.deleter = none then v.setDeleter evt (some .default) else some v) = some w) :
    BoundTo trace w l true evt := by
  cases evt with
  | exitEvt =>
    cases read
    rw [if_neg (by rw [before]; simp)] at set
    cases set
    exact before
  | heap a =>
    obtain ⟨_, deleter, read', other, sent, found⟩ := before
    cases read.symm.trans read'
    simp only [Bool.false_eq_true, if_false] at found
    split at set
    next null =>
      have read'' : w.heap.read a = some { event with deleter := some .default } := by
        rw [System.setDeleter_read set, if_pos rfl, read']
        rfl
      refine ⟨_, deleter, read'', other, sent, ?_⟩
      rw [← found, null]
      rfl
    next given =>
      cases set
      obtain ⟨d, found'⟩ := Option.ne_none_iff_exists'.mp given
      refine ⟨event, deleter, read', other, sent, ?_⟩
      rw [← found, found']
      rfl

section Steps

variable {trace did : List (LoopSighting η δ)} {v : Views η δ} (bound : Bound trace v)

include bound

/-- A step that moves no event to a new place and changes none that a call or a queue still has. -/
theorem Bound.fewer {v' : Views η δ} (exit : v'.exitEvt = v.exitEvt)
    (calls : ∀ stage ∈ v'.calls, stage ∈ v.calls)
    (queues : ∀ l lv', v'.loop l = some lv' → ∀ evt ∈ lv'.queue,
      ∃ lv, v.loop l = some lv ∧ evt ∈ lv.queue)
    (same : ∀ a ∈ inCalls v'.calls + inQueues v'.loops, v'.heap.read a = v.heap.read a) :
    Bound (trace ++ did) v' := by
  refine bound.step (congrArg Event.type exit) (fun stub => exit ▸ stub) ?_ ?_
  · intro stage member
    refine .inl ⟨calls stage member, fun a here => same a (Multiset.mem_add.mpr (.inl ?_))⟩
    exact mem_inCalls.mpr ⟨stage, member, here⟩
  · intro l lv' live evt member
    obtain ⟨lv, before, old⟩ := queues l lv' live evt member
    refine .inl ⟨lv, before, old, ?_⟩
    rintro a rfl
    exact same a (Multiset.mem_add.mpr (.inr (mem_inQueues.mpr ⟨l, lv', live, member⟩)))

/-- A call that goes on with the same event, in an iteration. -/
theorem Bound.setCall {i : Nat} {old new : Stage η} (there : v.calls[i]? = some old)
    (iterates : old.sends = false) (loop : new.loop = old.loop) (set : new.isSet = old.isSet)
    (evt : new.evt = old.evt) : Bound (trace ++ did) (v.setCall i new) := by
  have member := List.mem_of_getElem? there
  refine bound.step rfl id ?_ fun l lv live evt queued => .inl ⟨lv, live, queued, fun _ _ => rfl⟩
  intro stage inside
  rcases mem_of_mem_set there inside with rfl | others
  · rw [loop, set, evt]
    have kept : BoundTo (trace ++ did) (v.setCall i stage) old.loop old.isSet old.evt :=
      (bound.calls old member).keep id (fun _ _ => rfl) did
    exact .inr ⟨kept, fun _ => bound.iterating old member iterates⟩
  · exact .inl ⟨List.mem_of_mem_eraseIdx others, fun _ _ => rfl⟩

/-- `event_loop_send` binds the event to what its loop has for the type. -/
theorem Bound.sent (registered : Registries trace v) (balanced : Conserved trace v) {l : Nat}
    {lv : LoopView η δ} {evt : EventPtr} {event : Event δ} {w : Views η δ} (live : v.loop l = some lv)
    (sendable : Sendable v evt) (urgent : Bool) (read : v.event evt = some event)
    (set : v.setDeleter evt (lv.deleters[mapKey event.type]?).join = some w) :
    Bound (trace ++ [.sent l evt event.type]) ((w.give evt).begin (.found l evt urgent)) := by
  obtain ⟨loops, calls, owned, _⟩ := System.setDeleter_frame set
  have exitEvt := System.setDeleter_exitEvt set
  have found : (lv.deleters[mapKey event.type]?).join = registeredFor trace l (mapKey event.type) := by
    rw [registered.deleters l lv live]
    rfl
  -- every loop has the stub for the type of `EXIT_EVT` from its initialisation on
  have stub : evt = .exitEvt → (lv.deleters[mapKey event.type]?).join = some .stub := by
    rintro rfl
    cases read
    rw [bound.exitType, registered.deleters l lv live, registered.stub l lv live]
    rfl
  -- the event is still its sender's, so that no call and no queue sees its deleter change
  have same {other : EventPtr}
      (member : ∀ a, other = .heap a → a ∈ inCalls v.calls + inQueues v.loops) :
      SameEvent v ((w.give evt).begin (.found l evt urgent)) other := by
    intro a here
    have heap : ((w.give evt).begin (.found l evt urgent)).heap = w.heap := by cases evt <;> rfl
    rw [heap, System.setDeleter_read set, if_neg]
    rintro rfl
    exact balanced.apart_owned (member a here) (Multiset.mem_coe.mpr sendable.1)
  refine bound.step ?_ ?_ ?_ ?_
  · have type : w.exitEvt.type = v.exitEvt.type := by
      rw [exitEvt]
      split <;> rfl
    cases evt <;> exact type
  · intro before
    have deleter : w.exitEvt.deleter = some .stub := by
      rw [exitEvt]
      split
      next this => exact stub this
      next => exact before
    cases evt <;> exact deleter
  · intro stage member
    have split : stage ∈ v.calls ∨ stage = .found l evt urgent := by
      rw [← calls]
      cases evt <;> simpa [System.begin, System.give] using member
    rcases split with old | rfl
    · refine .inl ⟨old, same fun a here => Multiset.mem_add.mpr (.inl ?_)⟩
      exact mem_inCalls.mpr ⟨stage, old, here⟩
    · refine .inr ⟨?_, fun other => absurd other (by simp [Stage.sends])⟩
      cases evt with
      | exitEvt =>
        change w.exitEvt.deleter = some .stub
        rw [exitEvt, if_pos rfl]
        exact stub rfl
      | heap a =>
        obtain ⟨_, event', read', other⟩ := sendable
        cases read.symm.trans read'
        have after : w.heap.read a =
            some { event with deleter := (lv.deleters[mapKey event.type]?).join } := by
          rw [System.setDeleter_read set, if_pos rfl, read']
          rfl
        exact ⟨_, _, after, other, ⟨trace, event.type, [], rfl, rfl⟩, found⟩
  · intro k lk there other member
    have before : v.loop k = some lk := by
      rw [loop_of_loops (t := w) (by cases evt <;> rfl), loop_of_loops loops] at there
      exact there
    refine .inl ⟨lk, before, member, same ?_⟩
    rintro a rfl
    exact Multiset.mem_add.mpr (.inr (mem_inQueues.mpr ⟨k, lk, before, member⟩))

/-- `event_loop_send` puts the default deleter where it has found none. -/
theorem Bound.defaulted (balanced : Conserved trace v) {i l : Nat} {evt : EventPtr} {urgent : Bool}
    {event : Event δ} {w : Views η δ} (there : v.calls[i]? = some (.found l evt urgent))
    (read : v.event evt = some event)
    (set : (if event.deleter = none then v.setDeleter evt (some .default) else some v) = some w) :
    Bound (trace ++ did) (w.setCall i (.ready l evt urgent)) := by
  obtain ⟨loops, calls, owned, _⟩ := defaulted_frame set
  have before : BoundTo trace v l false evt := bound.calls _ (List.mem_of_getElem? there)
  have after : BoundTo trace w l true evt := before.defaulted read set
  have same {other : EventPtr} (member : ∀ b, other = .heap b → b ∈ held (v.finish i)) :
      SameEvent v w other := by
    intro b here
    split at set
    · have apart : evt ≠ .heap b := balanced.apart_call there (member b here)
      rw [System.setDeleter_read set, if_neg apart]
    · cases set
      rfl
  -- `EXIT_EVT` already has the stub, and so it never gets the default deleter
  have exit : w.exitEvt.type = v.exitEvt.type ∧
      (v.exitEvt.deleter = some .stub → w.exitEvt.deleter = some .stub) := by
    split at set
    next null =>
      rw [System.setDeleter_exitEvt set]
      split
      next isExit =>
        subst isExit
        cases read
        exact ⟨rfl, fun stub => by rw [null] at stub; cases stub⟩
      next => exact ⟨rfl, id⟩
    next =>
      cases set
      exact ⟨rfl, id⟩
  refine bound.step exit.1 exit.2 ?_ ?_
  · intro stage member
    rcases mem_of_mem_set (calls ▸ there) member with rfl | others
    · refine .inr ⟨?_, fun other => absurd other (by simp [Stage.sends])⟩
      exact after.keep id (fun _ _ => rfl) did
    · rw [calls] at others
      exact .inl ⟨List.mem_of_mem_eraseIdx others, same fun b => held_of_call others⟩
  · intro k lk live evt member
    rw [loop_of_loops (t := v) (by exact loops)] at live
    refine .inl ⟨lk, live, member, same ?_⟩
    rintro b rfl
    exact held_of_queue live member

end Steps

theorem LoopTransition.bound_step {trace did : List (LoopSighting η δ)} {v v' : Views η δ}
    (registered : Registries trace v) (balanced : Conserved trace v) (bound : Bound trace v)
    (transition : LoopTransition v did v') : Bound (trace ++ did) v' := by
  cases transition with
  | init =>
    refine bound.fewer rfl (fun _ old => old) ?_ fun _ _ => rfl
    intro l lv live evt member
    rw [System.loop_append (s := v) rfl] at live
    split at live
    · cases live
      cases member
    · exact ⟨lv, live, member⟩
  | @destroyed l lv heap did live unused drained =>
    -- what the destructor deletes was in the queue, and so neither with a call nor in another queue
    have drained := drained_of_drain drained
    refine bound.fewer rfl (fun _ old => old) ?_ fun a member => drained.read_eq ?_
    · intro k lk there evt member
      rw [System.loop_unset (s := v) rfl] at there
      split at there
      · cases there
      · exact ⟨lk, there, member⟩
    · exact balanced.apart_queue live (used_held (v := { v with loops := v.loops.set l none }) member)
  | handlers live handlers =>
    exact bound.fewer rfl (fun _ old => old)
      (fun k lk there evt member => queues_kept live there member fun _ same => same) fun _ _ => rfl
  | registered live key deleter =>
    exact bound.fewer rfl (fun _ old => old)
      (fun k lk there evt member => queues_kept live there member fun _ same => same) fun _ _ => rfl
  | created type =>
    refine bound.fewer rfl (fun _ old => old) (fun l lv live evt member => ⟨lv, live, member⟩) ?_
    intro a member
    have old := balanced.lt_next (used_held member)
    rw [Store.read_alloc, if_neg (by omega)]
  | sent live sendable urgent read set => exact bound.sent registered balanced live sendable urgent read set
  | defaulted there read set => exact bound.defaulted balanced there read set
  | @queued i l evt urgent lv there live =>
    have before : BoundTo trace v l true evt := bound.calls _ (List.mem_of_getElem? there)
    refine bound.step rfl id ?_ ?_
    · intro stage member
      exact .inl ⟨List.mem_of_mem_eraseIdx member, fun _ _ => rfl⟩
    · intro k lk there' other member
      rcases queues_setLoop live there' member with ⟨rfl, here⟩ | ⟨lk, live, old⟩
      · have split : other = evt ∨ other ∈ lv.queue := by
          cases urgent <;> simp at here <;> tauto
        rcases split with rfl | old
        · exact .inr (before.keep id (fun _ _ => rfl) _)
        · exact .inl ⟨lv, live, old, fun _ _ => rfl⟩
      · exact .inl ⟨lk, live, old, fun _ _ => rfl⟩
  | idle live empty =>
    exact bound.fewer rfl (fun _ old => old) (fun l lv live evt member => ⟨lv, live, member⟩)
      fun _ _ => rfl
  | left live front read exit =>
    refine bound.fewer rfl (fun _ old => old) ?_ fun _ _ => rfl
    intro k lk there other member
    exact queues_kept live there member fun _ later => front ▸ List.mem_cons_of_mem _ later
  | @taken l lv evt rest event live front read other =>
    have before := bound.queues l lv live evt (front ▸ List.mem_cons_self)
    refine bound.step rfl id ?_ ?_
    · intro stage member
      rcases List.mem_append.mp member with old | new
      · exact .inl ⟨old, fun _ _ => rfl⟩
      · cases List.mem_singleton.mp new
        refine .inr ⟨before.keep id (fun _ _ => rfl) _, ?_⟩
        -- an iteration that has taken `EXIT_EVT` would have returned
        rintro - rfl
        cases read
        exact other bound.exitType
    · intro k lk there other member
      obtain ⟨lv, live, old⟩ := queues_kept live there member
        fun _ later => front ▸ List.mem_cons_of_mem _ later
      exact .inl ⟨lv, live, old, fun _ _ => rfl⟩
  | looked there handler => exact bound.setCall there rfl rfl rfl rfl
  | handled there => exact bound.setCall there rfl rfl rfl rfl
  | @deleted i l evt event deleter w there read found gone =>
    obtain ⟨loops, calls, owned, _⟩ := System.release_frame gone
    have exit := System.release_exitEvt gone
    refine bound.fewer exit ?_ ?_ ?_
    · intro stage member
      rw [System.finish, calls] at member
      exact List.mem_of_mem_eraseIdx member
    · intro k lk live evt member
      rw [loop_of_loops (t := v) (by exact loops)] at live
      exact ⟨lk, live, member⟩
    · intro a member
      have used : a ∈ inCalls (v.finish i).calls + inQueues (v.finish i).loops := by
        rw [System.finish, ← calls, ← loops]
        exact member
      exact System.release_read gone (balanced.apart_call there (used_held used))

end AcosChat

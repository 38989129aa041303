import AcosChat.EventLoop.Model
import AcosChat.TsMap.Refinement
import AcosChat.TsQueue.Refinement

/-!
# What a step of the event loops can do

A loop is seen as two finite maps and a list of events. Every step of the code, where it is
one that the senders may take, is one of the transitions between such views, and none
faults.
-/
namespace AcosChat

open Store Run EventLoop TsQueue

variable {η δ : Type}

/-! ### Views -/

/-- What a loop is for: two registries and a list of events. -/
structure LoopView (η δ : Type) where
  handlers : KeyMap η
  deleters : KeyMap (Deleter δ)
  queue : List EventPtr

abbrev Views (η δ : Type) := System (LoopView η δ) η δ

structure EventLoop.Shows (el : EventLoop η δ) (lv : LoopView η δ) : Prop where
  handlers : Refines el.handlers lv.handlers
  deleters : Refines el.deleters lv.deleters
  queue : ∃ nodes, Linked el.eventQueue nodes 0 ∧ nodes.map Prod.snd = lv.queue.map some

/-- The loops are shown by their views; the events and the calls are the same. -/
structure Loops.Shows (s : Loops η δ) (v : Views η δ) : Prop where
  count : s.loops.length = v.loops.length
  loops : ∀ l, Option.Rel EventLoop.Shows (s.loop l) (v.loop l)
  heap : s.heap = v.heap
  exitEvt : s.exitEvt = v.exitEvt
  owned : s.owned = v.owned
  calls : s.calls = v.calls

namespace EventLoop.System

variable {Λ : Type} {s : System Λ η δ} {l : Nat} {el : Λ}

theorem lt_of_loop (there : s.loop l = some el) : l < s.loops.length := by
  by_contra outside
  rw [loop, List.getElem?_eq_none (by omega)] at there
  cases there

theorem loop_setLoop (there : s.loop l = some el) (el' : Λ) (k : Nat) :
    (s.setLoop l el').loop k = if k = l then some el' else s.loop k := by
  have inside := lt_of_loop there
  by_cases same : k = l
  · subst same
    rw [if_pos rfl, loop, setLoop, List.getElem?_set_self inside]
    rfl
  · rw [if_neg same, loop, setLoop, List.getElem?_set_ne (Ne.symm same)]
    rfl

theorem loop_append {t : System Λ η δ} {last : Option Λ} (more : t.loops = s.loops ++ [last])
    (k : Nat) : t.loop k = if k = s.loops.length then last else s.loop k := by
  by_cases same : k = s.loops.length
  · rw [if_pos same, loop, more, same, List.getElem?_concat_length]
    rfl
  · rw [if_neg same, loop, loop, more]
    rcases Nat.lt_or_ge k s.loops.length with inside | outside
    · rw [List.getElem?_append_left inside]
    · rw [List.getElem?_eq_none outside, List.getElem?_eq_none (by
        rw [List.length_append, List.length_singleton]
        omega)]

theorem loop_unset {t : System Λ η δ} (unset : t.loops = s.loops.set l none) (k : Nat) :
    t.loop k = if k = l then none else s.loop k := by
  by_cases same : k = l
  · subst same
    rw [if_pos rfl, loop, unset, List.getElem?_set, if_pos rfl]
    split <;> rfl
  · rw [if_neg same, loop, unset, List.getElem?_set_ne (Ne.symm same)]
    rfl

/-- A loop that is set to what it is stays as it is. -/
theorem setLoop_self (there : s.loop l = some el) : s.setLoop l el = s := by
  have inside := lt_of_loop there
  have here : s.loops[l] = some el := by
    rw [loop, List.getElem?_eq_getElem inside] at there
    exact there
  rw [setLoop, ← here, List.set_getElem_self]

/-- A write to an event that is there succeeds. -/
theorem exists_setDeleter {evt : EventPtr} {event : Event δ} (read : s.event evt = some event)
    (deleter : Option (Deleter δ)) : ∃ t, s.setDeleter evt deleter = some t := by
  cases evt with
  | exitEvt => exact ⟨_, rfl⟩
  | heap address =>
    have there : s.heap.cells address = some event := read
    rw [setDeleter, Store.modify, there]
    exact ⟨_, rfl⟩

theorem exists_release {evt : EventPtr} {event : Event δ} (read : s.event evt = some event) :
    ∃ t, s.release evt = some t := by
  cases evt with
  | exitEvt => exact ⟨_, rfl⟩
  | heap address =>
    have there : s.heap.cells address = some event := read
    rw [release, Store.free, there]
    exact ⟨_, rfl⟩

end EventLoop.System

namespace Loops.Shows

variable {s : Loops η δ} {v : Views η δ} (shows : Shows s v)

include shows

theorem live {l : Nat} {el : EventLoop η δ} (there : s.loop l = some el) :
    ∃ lv, v.loop l = some lv ∧ el.Shows lv := by
  have rel := shows.loops l
  rw [there] at rel
  cases seen : v.loop l with
  | none => rw [seen] at rel; cases rel
  | some lv =>
    rw [seen] at rel
    cases rel with
    | some same => exact ⟨lv, rfl, same⟩

theorem alive {l : Nat} {lv : LoopView η δ} (there : v.loop l = some lv) :
    ∃ el, s.loop l = some el ∧ el.Shows lv := by
  have rel := shows.loops l
  rw [there] at rel
  cases seen : s.loop l with
  | none => rw [seen] at rel; cases rel
  | some el =>
    rw [seen] at rel
    cases rel with
    | some same => exact ⟨el, rfl, same⟩

theorem event (evt : EventPtr) : s.event evt = v.event evt := by
  cases evt with
  | exitEvt => exact congrArg some shows.exitEvt
  | heap address => exact congrArg (fun heap => Store.read heap address) shows.heap

theorem setLoop {l : Nat} {el el' : EventLoop η δ} {lv lv' : LoopView η δ} (there : s.loop l = some el)
    (seen : v.loop l = some lv) (shown : el'.Shows lv') :
    Shows (s.setLoop l el') (v.setLoop l lv') := by
  refine ⟨?_, ?_, shows.heap, shows.exitEvt, shows.owned, shows.calls⟩
  · rw [System.setLoop, System.setLoop, List.length_set, List.length_set, shows.count]
  · intro k
    rw [System.loop_setLoop there, System.loop_setLoop seen]
    split
    · exact .some shown
    · exact shows.loops k

theorem setDeleter {evt : EventPtr} {deleter : Option (Deleter δ)} {w : Views η δ}
    (set : v.setDeleter evt deleter = some w) :
    ∃ t, s.setDeleter evt deleter = some t ∧ Shows t w := by
  cases evt with
  | exitEvt =>
    cases set
    exact ⟨_, rfl, shows.count, shows.loops, shows.heap, by rw [shows.exitEvt], shows.owned, shows.calls⟩
  | heap address =>
    rw [System.setDeleter, ← shows.heap] at set
    obtain ⟨heap, wrote, same⟩ := Option.bind_eq_some_iff.mp set
    cases same
    refine ⟨{ s with heap := heap }, ?_, shows.count, shows.loops, rfl, shows.exitEvt, shows.owned,
      shows.calls⟩
    rw [System.setDeleter, wrote]
    rfl

theorem release {evt : EventPtr} {w : Views η δ} (gone : v.release evt = some w) :
    ∃ t, s.release evt = some t ∧ Shows t w := by
  cases evt with
  | exitEvt =>
    cases gone
    exact ⟨_, rfl, shows⟩
  | heap address =>
    rw [System.release, ← shows.heap] at gone
    obtain ⟨heap, freed, same⟩ := Option.bind_eq_some_iff.mp gone
    cases same
    refine ⟨{ s with heap := heap }, ?_, shows.count, shows.loops, rfl, shows.exitEvt, shows.owned,
      shows.calls⟩
    rw [System.release, freed]
    rfl

theorem give (evt : EventPtr) : Shows (s.give evt) (v.give evt) := by
  cases evt with
  | exitEvt => exact shows
  | heap address =>
    exact ⟨shows.count, shows.loops, shows.heap, shows.exitEvt, by rw [System.give, shows.owned]; rfl,
      shows.calls⟩

theorem begin (stage : Stage η) : Shows (s.begin stage) (v.begin stage) :=
  ⟨shows.count, shows.loops, shows.heap, shows.exitEvt, shows.owned, by
    rw [System.begin, shows.calls]; rfl⟩

theorem setCall (i : Nat) (stage : Stage η) : Shows (s.setCall i stage) (v.setCall i stage) :=
  ⟨shows.count, shows.loops, shows.heap, shows.exitEvt, shows.owned, by
    rw [System.setCall, shows.calls]; rfl⟩

theorem finish (i : Nat) : Shows (s.finish i) (v.finish i) :=
  ⟨shows.count, shows.loops, shows.heap, shows.exitEvt, shows.owned, by
    rw [System.finish, shows.calls]; rfl⟩

end Loops.Shows

/-! ### Transitions -/

/-- What `event_loop_destroy` makes of the events in the queue. -/
def drain (l : Nat) (exitEvt : Event δ) (queue : List EventPtr) (heap : Store (Event δ)) :
    Option (Store (Event δ) × List (LoopSighting η δ)) :=
  queue.foldl (fun state evt => eventDestructor l exitEvt (some evt) state) (some (heap, []))

/-- An event that a sender may send: `EXIT_EVT`, or one that it owns, of another type. -/
def Sendable {Λ : Type} (s : System Λ η δ) : EventPtr → Prop
  | .exitEvt => True
  | .heap address => address ∈ s.owned ∧
      ∃ event, s.heap.read address = some event ∧ event.type ≠ exitEventType

/-- What the callers promise: every event that is sent is `EXIT_EVT` or an event that has not
been sent before, of another type; a loop is destroyed after all sends to it, when no
iteration uses it any more. -/
def Promised (s : Loops η δ) : LoopAction η δ → Prop
  | .send _ evt _ => Sendable s evt
  | .destroy l => ∀ stage ∈ s.calls, stage.uses ≠ some l
  | _ => True

instance {Λ : Type} (s : System Λ η δ) : (evt : EventPtr) → Decidable (Sendable s evt)
  | .exitEvt => .isTrue trivial
  | .heap address => inferInstanceAs (Decidable (address ∈ s.owned ∧
      ∃ event ∈ s.heap.read address, event.type ≠ exitEventType))

instance (s : Loops η δ) : (action : LoopAction η δ) → Decidable (Promised s action)
  | .send _ evt _ => inferInstanceAs (Decidable (Sendable s evt))
  | .destroy l => inferInstanceAs (Decidable (∀ stage ∈ s.calls, stage.uses ≠ some l))
  | .init | .registerHandler _ _ _ | .unregisterHandler _ _ | .registerDeleter _ _ _ | .create _
  | .iterate _ | .advance _ => .isTrue trivial

theorem Sendable.event {Λ : Type} {s : System Λ η δ} {evt : EventPtr} (sendable : Sendable s evt) :
    ∃ event, s.event evt = some event := by
  cases evt with
  | exitEvt => exact ⟨_, rfl⟩
  | heap address =>
    obtain ⟨_, event, read, _⟩ := sendable
    exact ⟨event, read⟩

inductive LoopTransition (v : Views η δ) : List (LoopSighting η δ) → Views η δ → Prop
  | init : LoopTransition v [.registered v.loops.length (mapKey exitEventType) (some .stub)]
      { v with loops := v.loops ++
          [some ⟨∅, (∅ : KeyMap (Deleter δ)).insertIfNew (mapKey exitEventType) (some .stub), []⟩] }
  | destroyed {l : Nat} {lv : LoopView η δ} {heap : Store (Event δ)} {did : List (LoopSighting η δ)}
      (live : v.loop l = some lv) (unused : ∀ stage ∈ v.calls, stage.uses ≠ some l)
      (drained : drain l v.exitEvt lv.queue v.heap = some (heap, did)) :
      LoopTransition v (did ++ [.destroyed l]) { v with heap := heap, loops := v.loops.set l none }
  | handlers {l : Nat} {lv : LoopView η δ} (live : v.loop l = some lv) (handlers : KeyMap η) :
      LoopTransition v [] (v.setLoop l { lv with handlers := handlers })
  | registered {l : Nat} {lv : LoopView η δ} (live : v.loop l = some lv) (key : UInt64)
      (deleter : Option (Deleter δ)) : LoopTransition v [.registered l key deleter]
        (v.setLoop l { lv with deleters := lv.deleters.insertIfNew key deleter })
  | created (type : Int32) : LoopTransition v []
      { v with heap := (v.heap.alloc ⟨type, none⟩).2, owned := v.owned ++ [v.heap.next] }
  | sent {l : Nat} {lv : LoopView η δ} {evt : EventPtr} {event : Event δ} {w : Views η δ}
      (live : v.loop l = some lv) (sendable : Sendable v evt) (urgent : Bool)
      (read : v.event evt = some event)
      (set : v.setDeleter evt (lv.deleters[mapKey event.type]?).join = some w) :
      LoopTransition v [.sent l evt event.type] ((w.give evt).begin (.found l evt urgent))
  | defaulted {i l : Nat} {evt : EventPtr} {urgent : Bool} {event : Event δ} {w : Views η δ}
      (there : v.calls[i]? = some (.found l evt urgent)) (read : v.event evt = some event)
      (set : (if event.deleter = none then v.setDeleter evt (some .default) else some v) = some w) :
      LoopTransition v [] (w.setCall i (.ready l evt urgent))
  | queued {i l : Nat} {evt : EventPtr} {urgent : Bool} {lv : LoopView η δ}
      (there : v.calls[i]? = some (.ready l evt urgent)) (live : v.loop l = some lv) :
      LoopTransition v [.queued l evt urgent] ((v.setLoop l { lv with
        queue := if urgent then evt :: lv.queue else lv.queue ++ [evt] }).finish i)
  | idle {l : Nat} {lv : LoopView η δ} (live : v.loop l = some lv) (empty : lv.queue = []) :
      LoopTransition v [.returned l true] v
  | left {l : Nat} {lv : LoopView η δ} {evt : EventPtr} {rest : List EventPtr} {event : Event δ}
      (live : v.loop l = some lv) (front : lv.queue = evt :: rest) (read : v.event evt = some event)
      (exit : event.type = exitEventType) :
      LoopTransition v [.taken l evt, .returned l false] (v.setLoop l { lv with queue := rest })
  | taken {l : Nat} {lv : LoopView η δ} {evt : EventPtr} {rest : List EventPtr} {event : Event δ}
      (live : v.loop l = some lv) (front : lv.queue = evt :: rest) (read : v.event evt = some event)
      (other : event.type ≠ exitEventType) :
      LoopTransition v [.taken l evt] ((v.setLoop l { lv with queue := rest }).begin (.popped l evt))
  | looked {i l : Nat} {evt : EventPtr} (there : v.calls[i]? = some (.popped l evt))
      (handler : Option η) : LoopTransition v [] (v.setCall i (.handling l evt handler))
  | handled {i l : Nat} {evt : EventPtr} {handler : Option η}
      (there : v.calls[i]? = some (.handling l evt handler)) :
      LoopTransition v (handler.toList.map (.handled l evt)) (v.setCall i (.handled l evt))
  | deleted {i l : Nat} {evt : EventPtr} {event : Event δ} {deleter : Deleter δ} {w : Views η δ}
      (there : v.calls[i]? = some (.handled l evt)) (read : v.event evt = some event)
      (bound : event.deleter = some deleter) (gone : v.release evt = some w) :
      LoopTransition v [.deleted l evt deleter, .returned l true] (w.finish i)

/-- What keeps a step from touching what is gone: the events in calls and queues are there, the
loops that calls use are not destroyed, and a deleter that is to be called is set. -/
structure Sound (v : Views η δ) : Prop where
  callEvent : ∀ stage ∈ v.calls, ∃ event, v.event stage.evt = some event
  callLoop : ∀ stage ∈ v.calls, ∀ l, stage.uses = some l → ∃ lv, v.loop l = some lv
  callDeleter : ∀ l evt, .handled l evt ∈ v.calls → ∀ event, v.event evt = some event →
    ∃ deleter, event.deleter = some deleter
  queueEvent : ∀ l lv, v.loop l = some lv → ∀ evt ∈ lv.queue, ∃ event, v.event evt = some event
  drains : ∀ l lv, v.loop l = some lv →
    ∃ heap did, (drain l v.exitEvt lv.queue v.heap : Option (_ × List (LoopSighting η δ))) = some (heap, did)

/-! ### The simulation -/

/-- A result is a transition of the view. -/
def Simulated (v : Views η δ) (result : Option (List (LoopSighting η δ) × Loops η δ)) : Prop :=
  ∃ did s' v', result = some (did, s') ∧ s'.Shows v' ∧ LoopTransition v did v'

theorem eventLoopInit_shows : ∃ el : EventLoop η δ, eventLoopInit = some el ∧
    el.Shows ⟨∅, (∅ : KeyMap (Deleter δ)).insertIfNew (mapKey exitEventType) (some .stub), []⟩ := by
  obtain ⟨deleters, ran, refines⟩ := insert_refines (tsMapInit_refines (α := Deleter δ))
    (mapKey exitEventType) (some .stub)
  refine ⟨⟨tsMapInit, deleters, tsQueueInit⟩, ?_, tsMapInit_refines, refines, [], linked_init, rfl⟩
  rw [eventLoopInit, ran]
  rfl

section Steps

variable {s : Loops η δ} {v : Views η δ} (shows : s.Shows v) (sound : Sound v)

include shows

theorem init_matched : Simulated v s.init := by
  obtain ⟨el, ran, shown⟩ := eventLoopInit_shows (η := η) (δ := δ)
  refine ⟨_, { s with loops := s.loops ++ [some el] }, _, ?_, ?_, .init⟩
  · rw [Loops.init, ran, shows.count]
    rfl
  · refine ⟨?_, ?_, shows.heap, shows.exitEvt, shows.owned, shows.calls⟩
    · rw [List.length_append, List.length_append, shows.count]
      rfl
    · intro l
      rw [System.loop_append (s := s) rfl, System.loop_append (s := v) rfl, shows.count]
      split
      · exact .some shown
      · exact shows.loops l

include sound in
theorem destroy_matched {l : Nat} {el : EventLoop η δ} (live : s.loop l = some el)
    (unused : ∀ stage ∈ s.calls, stage.uses ≠ some l) : Simulated v (s.destroy l el) := by
  obtain ⟨lv, seen, shown⟩ := shows.live live
  obtain ⟨nodes, linked, values⟩ := shown.queue
  obtain ⟨heap, did, drained⟩ := sound.drains l lv seen
  obtain ⟨q, ranQueue, _⟩ := tsQueueDestroy_spec (eventDestructor l s.exitEvt) linked
    (some (s.heap, ([] : List (LoopSighting η δ))))
  obtain ⟨_, _, ranDeleters, _⟩ := destroy_runs shown.deleters none ()
  obtain ⟨_, _, ranHandlers, _⟩ := destroy_runs shown.handlers none ()
  have emptied : (nodes.map Prod.snd).foldl (fun state evt => eventDestructor l s.exitEvt evt state)
      (some (s.heap, [])) = some (heap, did) := by
    rw [values, List.foldl_map, shows.heap, shows.exitEvt]
    exact drained
  refine ⟨_, { s with heap := heap, loops := s.loops.set l none }, _, ?_, ?_,
    .destroyed seen (shows.calls ▸ unused) drained⟩
  · simp only [Loops.destroy, ranQueue, emptied, ranDeleters, ranHandlers, Option.bind_eq_bind,
      Option.bind_some, Option.pure_def]
  · refine ⟨?_, ?_, rfl, shows.exitEvt, shows.owned, shows.calls⟩
    · rw [List.length_set, List.length_set, shows.count]
    · intro k
      rw [System.loop_unset (s := s) rfl, System.loop_unset (s := v) rfl]
      split
      · exact .none
      · exact shows.loops k

theorem registerHandler_matched {l : Nat} {el : EventLoop η δ} (live : s.loop l = some el)
    (key : UInt64) (handler : Option η) : Simulated v (s.registerHandler l el key handler) := by
  obtain ⟨lv, seen, shown⟩ := shows.live live
  obtain ⟨handlers, ran, refines⟩ := insert_refines shown.handlers key handler
  have shown' : EventLoop.Shows { el with handlers := handlers }
      { lv with handlers := lv.handlers.insertIfNew key handler } :=
    ⟨refines, shown.deleters, shown.queue⟩
  refine ⟨_, _, _, ?_, shows.setLoop live seen shown', .handlers seen _⟩
  rw [Loops.registerHandler, ran]
  rfl

theorem unregisterHandler_matched {l : Nat} {el : EventLoop η δ} (live : s.loop l = some el)
    (key : UInt64) : Simulated v (s.unregisterHandler l el key) := by
  obtain ⟨lv, seen, shown⟩ := shows.live live
  obtain ⟨handlers, ran, refines⟩ := erase_refines shown.handlers key
  have shown' : EventLoop.Shows { el with handlers := handlers }
      { lv with handlers := lv.handlers.erase key } :=
    ⟨refines, shown.deleters, shown.queue⟩
  refine ⟨_, _, _, ?_, shows.setLoop live seen shown', .handlers seen _⟩
  rw [Loops.unregisterHandler, ran]
  rfl

theorem registerDeleter_matched {l : Nat} {el : EventLoop η δ} (live : s.loop l = some el)
    (key : UInt64) (deleter : Option (Deleter δ)) :
    Simulated v (s.registerDeleter l el key deleter) := by
  obtain ⟨lv, seen, shown⟩ := shows.live live
  obtain ⟨deleters, ran, refines⟩ := insert_refines shown.deleters key deleter
  have shown' : EventLoop.Shows { el with deleters := deleters }
      { lv with deleters := lv.deleters.insertIfNew key deleter } :=
    ⟨shown.handlers, refines, shown.queue⟩
  refine ⟨_, _, _, ?_, shows.setLoop live seen shown', .registered seen key deleter⟩
  rw [Loops.registerDeleter, ran]
  rfl

theorem create_shows (type : Int32) : (s.create type).Shows
    { v with heap := (v.heap.alloc ⟨type, none⟩).2, owned := v.owned ++ [v.heap.next] } := by
  refine ⟨shows.count, shows.loops, ?_, shows.exitEvt, ?_, shows.calls⟩
  · rw [← shows.heap]
    rfl
  · rw [← shows.owned, ← shows.heap]
    rfl

theorem sendable_iff (evt : EventPtr) : Sendable s evt ↔ Sendable v evt := by
  cases evt with
  | exitEvt => exact .rfl
  | heap address => rw [Sendable, Sendable, shows.owned, shows.heap]

theorem send_matched {l : Nat} {el : EventLoop η δ} (live : s.loop l = some el) {evt : EventPtr}
    (sendable : Sendable s evt) (urgent : Bool) : Simulated v (s.send l el evt urgent) := by
  obtain ⟨lv, seen, shown⟩ := shows.live live
  have sendable' := (sendable_iff shows evt).mp sendable
  -- the event gets what is registered now, not what is registered when it is deleted
  obtain ⟨event, read⟩ := sendable'.event
  obtain ⟨w, set⟩ := System.exists_setDeleter read (lv.deleters[mapKey event.type]?).join
  obtain ⟨deleters, found, refines⟩ := find_refines shown.deleters (mapKey event.type)
  have shown' : EventLoop.Shows { el with deleters := deleters } lv :=
    ⟨shown.handlers, refines, shown.queue⟩
  have same := shows.setLoop live seen shown'
  rw [System.setLoop_self seen] at same
  obtain ⟨t, set', shows'⟩ := same.setDeleter set
  refine ⟨_, _, _, ?_, (shows'.give evt).begin _, .sent seen sendable' urgent read set⟩
  simp only [Loops.send, shows.event, read, found, set', Option.bind_eq_bind, Option.bind_some,
    Option.pure_def]

theorem iterate_matched (sound : Sound v) {l : Nat} {el : EventLoop η δ}
    (live : s.loop l = some el) : Simulated v (s.iterate l el) := by
  obtain ⟨lv, seen, shown⟩ := shows.live live
  obtain ⟨nodes, linked, values⟩ := shown.queue
  obtain ⟨q, nodes', popped, linked', rest⟩ := linked.pop
  rw [values] at popped rest
  cases front : lv.queue with
  | nil =>
    rw [front] at popped rest
    have shown' : EventLoop.Shows { el with eventQueue := q } lv :=
      ⟨shown.handlers, shown.deleters, nodes', linked', by rw [rest, front]; rfl⟩
    have same := shows.setLoop live seen shown'
    rw [System.setLoop_self seen] at same
    refine ⟨_, _, _, ?_, same, .idle seen front⟩
    rw [Loops.iterate, popped]
    rfl
  | cons evt queue =>
    rw [front] at popped rest
    have shown' : EventLoop.Shows { el with eventQueue := q } { lv with queue := queue } :=
      ⟨shown.handlers, shown.deleters, nodes', linked', rest⟩
    have shows' := shows.setLoop live seen shown'
    obtain ⟨event, read⟩ := sound.queueEvent l lv seen evt (front ▸ List.mem_cons_self)
    have read' : (s.setLoop l { el with eventQueue := q }).event evt = some event :=
      (shows'.event evt).trans read
    have ran : s.iterate l el = if event.type = exitEventType then
        some ([.taken l evt, .returned l false], s.setLoop l { el with eventQueue := q })
      else some ([.taken l evt], (s.setLoop l { el with eventQueue := q }).begin (.popped l evt)) := by
      rw [Loops.iterate, popped]
      simp only [List.map_cons, List.head?_cons, Option.join_some, Option.bind_eq_bind,
        Option.bind_some, read', Option.pure_def]
    by_cases exit : event.type = exitEventType
    · rw [if_pos exit] at ran
      exact ⟨_, _, _, ran, shows', .left seen front read exit⟩
    · rw [if_neg exit] at ran
      exact ⟨_, _, _, ran, shows'.begin _, .taken seen front read exit⟩

theorem advance_matched (sound : Sound v) {i : Nat} {stage : Stage η}
    (there : s.calls[i]? = some stage) : Simulated v (s.advance i stage) := by
  rw [shows.calls] at there
  have member : stage ∈ v.calls := List.mem_of_getElem? there
  obtain ⟨event, read⟩ := sound.callEvent stage member
  cases stage with
  | found l evt urgent =>
    rw [Stage.evt] at read
    have read' : s.event evt = some event := (shows.event evt).trans read
    by_cases null : event.deleter = none
    · obtain ⟨w, set⟩ := System.exists_setDeleter read (some .default)
      obtain ⟨t, set', shows'⟩ := shows.setDeleter set
      refine ⟨_, _, _, ?_, shows'.setCall i _, .defaulted there read (by rw [if_pos null, set])⟩
      simp only [Loops.advance, read', null, set', Option.bind_eq_bind, Option.bind_some, if_true,
        Option.pure_def]
    · refine ⟨_, _, _, ?_, shows.setCall i _, .defaulted there read (if_neg null)⟩
      simp only [Loops.advance, read', null, Option.bind_eq_bind, Option.bind_some, if_false,
        Option.pure_def]
  | ready l evt urgent =>
    obtain ⟨lv, seen⟩ := sound.callLoop _ member l rfl
    obtain ⟨el, live, shown⟩ := shows.alive seen
    obtain ⟨nodes, linked, values⟩ := shown.queue
    cases urgent with
    | true =>
      obtain ⟨q, nodes', pushed, linked', values'⟩ := linked.pushInFront (some evt)
      have shown' : EventLoop.Shows { el with eventQueue := q } { lv with queue := evt :: lv.queue } :=
        ⟨shown.handlers, shown.deleters, nodes', linked', by rw [values', values]; rfl⟩
      refine ⟨_, _, _, ?_, (shows.setLoop live seen shown').finish i, .queued there seen⟩
      simp only [Loops.advance, live, pushed, if_true, Option.bind_eq_bind, Option.bind_some,
        Option.pure_def]
    | false =>
      obtain ⟨q, nodes', pushed, linked', values'⟩ := linked.push (some evt)
      have shown' : EventLoop.Shows { el with eventQueue := q }
          { lv with queue := lv.queue ++ [evt] } :=
        ⟨shown.handlers, shown.deleters, nodes', linked', by rw [values', values, List.map_append]; rfl⟩
      refine ⟨_, _, _, ?_, (shows.setLoop live seen shown').finish i, .queued there seen⟩
      simp only [Loops.advance, live, pushed, Bool.false_eq_true, if_false, Option.bind_eq_bind,
        Option.bind_some, Option.pure_def]
  | popped l evt =>
    obtain ⟨lv, seen⟩ := sound.callLoop _ member l rfl
    obtain ⟨el, live, shown⟩ := shows.alive seen
    have read' : s.event evt = some event := (shows.event evt).trans read
    -- `ts_map_find` splays the map, which stands for the same handlers afterwards
    obtain ⟨handlers, found, refines⟩ := find_refines shown.handlers (mapKey event.type)
    have shown' : EventLoop.Shows { el with handlers := handlers } lv :=
      ⟨refines, shown.deleters, shown.queue⟩
    have same := shows.setLoop live seen shown'
    rw [System.setLoop_self seen] at same
    refine ⟨_, _, _, ?_, same.setCall i _, .looked there (lv.handlers[mapKey event.type]?).join⟩
    simp only [Loops.advance, live, read', found, Option.bind_eq_bind, Option.bind_some,
      Option.pure_def]
  | handling l evt handler => exact ⟨_, _, _, rfl, shows.setCall i _, .handled there⟩
  | handled l evt =>
    rw [Stage.evt] at read
    have read' : s.event evt = some event := (shows.event evt).trans read
    -- the deleter is called through the event, and so it has to be set
    obtain ⟨deleter, bound⟩ := sound.callDeleter l evt member event read
    obtain ⟨w, gone⟩ := System.exists_release read
    obtain ⟨t, gone', shows'⟩ := shows.release gone
    refine ⟨_, _, _, ?_, shows'.finish i, .deleted there read bound gone⟩
    simp only [Loops.advance, read', bound, gone', Option.bind_eq_bind, Option.bind_some,
      Option.pure_def]

end Steps

/-- A step does not fault and is a transition of the view. -/
theorem loopStep_matched {s : Loops η δ} {v : Views η δ} (shows : s.Shows v) (sound : Sound v)
    {action : LoopAction η δ} (promised : Promised s action) {did : List (LoopSighting η δ)}
    {rest : Option (Loops η δ)} (taken : loopStep s action = some (did, rest)) :
    ∃ s' v', rest = some s' ∧ s'.Shows v' ∧ LoopTransition v did v' := by
  have faultless {result : Option (List (LoopSighting η δ) × Loops η δ)} (matched : Simulated v result)
      (same : Loops.orFault result = some (did, rest)) :
      ∃ s' v', rest = some s' ∧ s'.Shows v' ∧ LoopTransition v did v' := by
    obtain ⟨did', s', v', rfl, shows', transition⟩ := matched
    cases same
    exact ⟨s', v', rfl, shows', transition⟩
  cases action with
  | init => exact faultless (init_matched shows) taken
  | destroy l =>
    obtain ⟨el, live, same⟩ := Option.bind_eq_some_iff.mp taken
    exact faultless (destroy_matched shows sound live promised) same
  | registerHandler l key handler =>
    obtain ⟨el, live, same⟩ := Option.bind_eq_some_iff.mp taken
    exact faultless (registerHandler_matched shows live key handler) same
  | unregisterHandler l key =>
    obtain ⟨el, live, same⟩ := Option.bind_eq_some_iff.mp taken
    exact faultless (unregisterHandler_matched shows live key) same
  | registerDeleter l key deleter =>
    obtain ⟨el, live, same⟩ := Option.bind_eq_some_iff.mp taken
    exact faultless (registerDeleter_matched shows live key deleter) same
  | create type =>
    cases taken
    exact ⟨_, _, rfl, create_shows shows type, .created type⟩
  | send l evt urgent =>
    obtain ⟨el, live, same⟩ := Option.bind_eq_some_iff.mp taken
    exact faultless (send_matched shows live promised urgent) same
  | iterate l =>
    obtain ⟨el, live, same⟩ := Option.bind_eq_some_iff.mp taken
    exact faultless (iterate_matched shows sound live) same
  | advance i =>
    obtain ⟨stage, there, same⟩ := Option.bind_eq_some_iff.mp taken
    exact faultless (advance_matched shows sound there) same

end AcosChat

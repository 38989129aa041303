import AcosChat.EventLoop.Bindings

/-!
# The loops do not fault

Every event that a call or a queue has is bound to a deleter and in no other place, and every
loop that a call uses is there. So each step of a run whose senders keep their promises is a
transition, and none touches what is gone.
-/
namespace AcosChat

open Store Run EventLoop

variable {η δ : Type}

/-! ### Draining -/

/-- The events of a queue are there, each once, with a deleter. -/
theorem exists_drained {l : Nat} {exitEvt : Event δ} {queue : List EventPtr} {heap : Store (Event δ)}
    (distinct : (queue.map EventPtr.addresses).sum.Nodup)
    (stub : .exitEvt ∈ queue → ∃ deleter, exitEvt.deleter = some deleter)
    (there : ∀ a, .heap a ∈ queue → ∃ event deleter, heap.read a = some event ∧
      event.deleter = some deleter) :
    ∃ heap' did, Drained (η := η) l exitEvt queue heap heap' did := by
  induction queue generalizing heap with
  | nil => exact ⟨heap, [], .nil heap⟩
  | cons evt queue ih =>
    rw [List.map_cons, List.sum_cons] at distinct
    obtain ⟨_, rest, apart⟩ := Multiset.nodup_add.mp distinct
    have stub' := fun member => stub (List.mem_cons_of_mem evt member)
    cases evt with
    | exitEvt =>
      obtain ⟨deleter, bound⟩ := stub List.mem_cons_self
      obtain ⟨heap', did, drained⟩ := ih rest stub' fun a member => there a (List.mem_cons_of_mem _ member)
      exact ⟨heap', _, .exitEvt bound drained⟩
    | heap a =>
      obtain ⟨event, deleter, read, bound⟩ := there a List.mem_cons_self
      have cell : heap.cells a = some event := read
      have freed : heap.free a = some { heap with cells := Function.update heap.cells a none } := by
        rw [Store.free, cell, Option.map_some]
      obtain ⟨_, _, _, same⟩ := Store.free_eq_some freed
      -- the events are distinct, so that the rest of the queue is still there
      have later (b : Nat) (member : .heap b ∈ queue) : ∃ event deleter,
          Store.read { heap with cells := Function.update heap.cells a none } b = some event ∧
            event.deleter = some deleter := by
        have other : b ≠ a := by
          rintro rfl
          apply Multiset.disjoint_left.mp apart (EventPtr.mem_addresses.mpr rfl)
          exact (mem_sum_map _ _ _).mpr ⟨_, member, EventPtr.mem_addresses.mpr rfl⟩
        rw [same, if_neg other]
        exact there b (List.mem_cons_of_mem _ member)
      obtain ⟨heap', did, drained⟩ := ih rest stub' later
      exact ⟨heap', _, .heap read bound freed drained⟩

theorem Drained.foldl_eq {l : Nat} {exitEvt : Event δ} {queue : List EventPtr}
    {heap heap' : Store (Event δ)} {did : List (LoopSighting η δ)}
    (drained : Drained l exitEvt queue heap heap' did) (before : List (LoopSighting η δ)) :
    queue.foldl (fun state evt => eventDestructor l exitEvt (some evt) state) (some (heap, before)) =
      some (heap', before ++ did) := by
  induction drained generalizing before with
  | nil => rw [List.append_nil, List.foldl_nil]
  | exitEvt bound _ ih =>
    rw [List.foldl_cons, List.append_cons, ← ih]
    simp only [eventDestructor, bound, Option.bind_eq_bind, Option.bind_some, Option.pure_def]
  | heap read bound freed _ ih =>
    rw [List.foldl_cons, List.append_cons, ← ih]
    simp only [eventDestructor, read, bound, freed, Option.bind_eq_bind, Option.bind_some,
      Option.pure_def]

/-! ### Live loops -/

/-- The loops that calls use have not been destroyed. -/
def Live (v : Views η δ) : Prop :=
  ∀ stage ∈ v.calls, ∀ l, stage.uses = some l → ∃ lv, v.loop l = some lv

theorem Live.step {v v' : Views η δ} (live : Live v)
    (loops : ∀ l lv, v.loop l = some lv → ∃ lv', v'.loop l = some lv')
    (calls : ∀ stage ∈ v'.calls, ∀ l, stage.uses = some l → stage ∈ v.calls ∨ ∃ lv, v.loop l = some lv) :
    Live v' := by
  intro stage member l uses
  rcases calls stage member l uses with old | ⟨lv, there⟩
  · obtain ⟨lv, there⟩ := live stage old l uses
    exact loops l lv there
  · exact loops l lv there

theorem stays_setLoop {v : Views η δ} {l : Nat} {lv : LoopView η δ} (live : v.loop l = some lv)
    (lv' : LoopView η δ) (k : Nat) (lk : LoopView η δ) (there : v.loop k = some lk) :
    ∃ lk', (v.setLoop l lv').loop k = some lk' := by
  rw [System.loop_setLoop live]
  split
  · exact ⟨lv', rfl⟩
  · exact ⟨lk, there⟩

/-- A call that goes on without using its loop again. -/
theorem Live.setCall {v : Views η δ} (live : Live v) {i : Nat} {old new : Stage η}
    (there : v.calls[i]? = some old) (unused : new.uses = none) : Live (v.setCall i new) := by
  refine live.step (fun _ lv there => ⟨lv, there⟩) ?_
  intro stage member k uses
  rcases mem_of_mem_set there member with rfl | others
  · rw [unused] at uses
    cases uses
  · exact .inl (List.mem_of_mem_eraseIdx others)

theorem LoopTransition.live_step {did : List (LoopSighting η δ)} {v v' : Views η δ} (live : Live v)
    (transition : LoopTransition v did v') : Live v' := by
  cases transition with
  | init =>
    apply live.step
    · intro k lk there
      have inside := System.lt_of_loop there
      exact ⟨lk, by rw [System.loop_append (s := v) rfl, if_neg inside.ne, there]⟩
    · exact fun _ old _ _ => .inl old
  | @destroyed l lv heap did there unused drained =>
    intro stage member k uses
    -- `Promised` rules out that a call still uses the loop
    have other : k ≠ l := fun same => unused stage member (same ▸ uses)
    rw [System.loop_unset (s := v) rfl, if_neg other]
    exact live stage member k uses
  | handlers there handlers =>
    exact live.step (stays_setLoop there _) fun _ old _ _ => .inl old
  | registered there key deleter =>
    exact live.step (stays_setLoop there _) fun _ old _ _ => .inl old
  | created type => exact live.step (fun _ lv there => ⟨lv, there⟩) fun _ old _ _ => .inl old
  | @sent l lv evt event w there sendable urgent read set =>
    obtain ⟨loops, calls, _⟩ := System.setDeleter_frame set
    apply live.step
    · intro k lk there
      refine ⟨lk, ?_⟩
      rw [← there]
      cases evt <;> exact loop_of_loops (t := v) loops k
    · intro stage member k uses
      have split : stage ∈ v.calls ∨ stage = .found l evt urgent := by
        rw [← calls]
        cases evt <;> simpa [System.begin, System.give] using member
      rcases split with old | rfl
      · exact .inl old
      · cases uses
        exact .inr ⟨lv, there⟩
  | @defaulted i l evt urgent event w there read set =>
    obtain ⟨loops, calls, _⟩ := defaulted_frame set
    apply live.step
    · intro k lk there
      exact ⟨lk, there ▸ loop_of_loops (t := v) loops k⟩
    · intro stage member k uses
      rcases mem_of_mem_set (calls ▸ there) member with rfl | others
      · cases uses
        exact .inr (live _ (List.mem_of_getElem? there) l rfl)
      · rw [calls] at others
        exact .inl (List.mem_of_mem_eraseIdx others)
  | queued there here =>
    exact live.step (stays_setLoop here _) fun _ member _ _ => .inl (List.mem_of_mem_eraseIdx member)
  | idle there empty => exact live
  | left there front read exit => exact live.step (stays_setLoop there _) fun _ old _ _ => .inl old
  | @taken l lv evt rest event there front read other =>
    refine live.step (stays_setLoop there { lv with queue := rest }) ?_
    intro stage member k uses
    rcases List.mem_append.mp member with old | new
    · exact .inl old
    · cases List.mem_singleton.mp new
      cases uses
      exact .inr ⟨lv, there⟩
  | looked there handler => exact live.setCall there rfl
  | handled there => exact live.setCall there rfl
  | deleted there read bound gone =>
    obtain ⟨loops, calls, _⟩ := System.release_frame gone
    apply live.step
    · intro k lk there
      exact ⟨lk, there ▸ loop_of_loops (t := v) loops k⟩
    · intro stage member k uses
      rw [System.finish, calls] at member
      exact .inl (List.mem_of_mem_eraseIdx member)

/-! ### Runs -/

/-- What every run keeps. -/
structure Kept (trace : List (LoopSighting η δ)) (v : Views η δ) : Prop where
  registered : Registries trace v
  balanced : Conserved trace v
  bound : Bound trace v
  live : Live v

namespace Kept

variable {trace did : List (LoopSighting η δ)} {v v' : Views η δ}

theorem event {l : Nat} {isSet : Bool} {evt : EventPtr} (bound : BoundTo trace v l isSet evt) :
    ∃ event, v.event evt = some event := by
  cases evt with
  | exitEvt => exact ⟨v.exitEvt, rfl⟩
  | heap a =>
    obtain ⟨event, _, read, _⟩ := bound
    exact ⟨event, read⟩

theorem sound (kept : Kept trace v) : Sound v := by
  have bound := kept.bound
  constructor
  · exact fun stage member => event (bound.calls stage member)
  · exact kept.live
  · intro l evt member found read
    have before := bound.calls _ member
    cases evt with
    | exitEvt => exact absurd rfl (bound.iterating _ member rfl)
    | heap a =>
      obtain ⟨found', deleter, read', _, _, set⟩ := before
      cases read.symm.trans read'
      exact ⟨_, set⟩
  · exact fun l lv there evt member => event (bound.queues l lv there evt member)
  · intro l lv there
    have queues := bound.queues l lv there
    have bound (a : Nat) (member : .heap a ∈ lv.queue) : ∃ event deleter,
        v.heap.read a = some event ∧ event.deleter = some deleter := by
      obtain ⟨found, deleter, read, _, _, set⟩ := queues (.heap a) member
      exact ⟨found, _, read, set⟩
    obtain ⟨heap, did, drained⟩ := exists_drained (kept.balanced.queue_nodup there)
      (fun member => ⟨_, queues .exitEvt member⟩) bound
    exact ⟨heap, did, drained.foldl_eq []⟩

theorem typed (kept : Kept trace v) : Typed v := by
  intro l lv there a member found read
  obtain ⟨found', _, read', other, _⟩ := kept.bound.queues l lv there _ member
  cases read.symm.trans read'
  exact other

theorem step (kept : Kept trace v) (transition : LoopTransition v did v') : Kept (trace ++ did) v' :=
  ⟨transition.registered_step kept.registered, transition.balanced kept.balanced kept.typed,
    transition.bound_step kept.registered kept.balanced kept.bound, transition.live_step kept.live⟩

theorem start : Kept [] (⟨[], Store.empty, ⟨exitEventType, none⟩, [], []⟩ : Views η δ) := by
  constructor
  · exact ⟨fun _ _ there => (by cases there), fun _ _ there => (by cases there), fun _ _ _ => rfl⟩
  · rfl
  · exact ⟨rfl, fun _ member => (by cases member), fun _ member => (by cases member),
      fun _ _ there => (by cases there)⟩
  · exact fun _ member => (by cases member)

end Kept

/-- What holds at the start and is kept by every transition holds after every run. -/
theorem loops_invariant {Inv : List (LoopSighting η δ) → Views η δ → Prop}
    (initial : Inv [] ⟨[], Store.empty, ⟨exitEventType, none⟩, [], []⟩)
    (step : ∀ trace v did v', Kept trace v → Inv trace v → LoopTransition v did v' → Inv (trace ++ did) v')
    {trace : List (LoopSighting η δ)} {s : Loops η δ} (ran : Ran loopStep Promised Loops.start trace s) :
    ∃ v, s.Shows v ∧ Kept trace v ∧ Inv trace v := by
  induction ran with
  | start => exact ⟨_, ⟨rfl, fun _ => .none, rfl, rfl, rfl, rfl⟩, Kept.start, initial⟩
  | step before promised taken ih =>
    obtain ⟨v, shows, kept, inv⟩ := ih
    obtain ⟨t, v', same, shows', transition⟩ := loopStep_matched shows kept.sound promised taken
    cases same
    exact ⟨v', shows', kept.step transition, step _ v _ v' kept inv transition⟩

end AcosChat

import AcosChat.EventLoop.Faultless

/-!
# What an event goes through

An event of the heap is sent, queued, taken, handled and deleted, in this order and each at
most once; it may be deleted without having been taken, or taken without having a handler.
-/
namespace AcosChat

open Store Run EventLoop

variable {η δ : Type}

namespace EventLoop

inductive Phase where
  | sent
  | queued
  | taken
  | handled
  | deleted
deriving DecidableEq, Repr

def Phase.all : List Phase := [.sent, .queued, .taken, .handled, .deleted]

/-- The phase of an event that is seen. -/
def LoopSighting.phase (evt : EventPtr) : LoopSighting η δ → Option Phase
  | .sent _ evt' _ => if evt' = evt then some .sent else none
  | .queued _ evt' _ => if evt' = evt then some .queued else none
  | .taken _ evt' => if evt' = evt then some .taken else none
  | .handled _ evt' _ => if evt' = evt then some .handled else none
  | .deleted _ evt' _ => if evt' = evt then some .deleted else none
  | _ => none

/-- The phases that the event of a call may have had. -/
def Stage.passed : Stage η → List Phase
  | .found _ _ _ | .ready _ _ _ => [.sent]
  | .popped _ _ | .handling _ _ _ => [.sent, .queued, .taken]
  | .handled _ _ => [.sent, .queued, .taken, .handled]

end EventLoop

def history (trace : List (LoopSighting η δ)) (evt : EventPtr) : List Phase :=
  trace.filterMap (LoopSighting.phase evt)

theorem history_append (trace did : List (LoopSighting η δ)) (evt : EventPtr) :
    history (trace ++ did) evt = history trace evt ++ history did evt :=
  List.filterMap_append

/-- Where an event is, with the phases that it may have had there. -/
inductive At (v : Views η δ) (a : Nat) : List Phase → Prop
  | owned (member : a ∈ v.owned) : At v a []
  | call {stage : Stage η} (member : stage ∈ v.calls) (same : stage.evt = .heap a) :
      At v a stage.passed
  | queue {l : Nat} {lv : LoopView η δ} (live : v.loop l = some lv) (member : .heap a ∈ lv.queue) :
      At v a [.sent, .queued]

theorem At.held {v : Views η δ} {a : Nat} {passed : List Phase} (here : At v a passed) : a ∈ held v := by
  cases here with
  | owned member => exact mem_held.mpr (.inl member)
  | call member same => exact held_of_call member same
  | queue live member => exact held_of_queue live member

theorem At.mono {v w : Views η δ} {a : Nat} {passed : List Phase} (here : At v a passed)
    (owned : ∀ a ∈ v.owned, a ∈ w.owned) (calls : ∀ stage ∈ v.calls, stage ∈ w.calls)
    (queues : ∀ l lv, v.loop l = some lv → ∀ evt ∈ lv.queue, ∃ lw, w.loop l = some lw ∧ evt ∈ lw.queue) :
    At w a passed := by
  cases here with
  | owned member => exact .owned (owned a member)
  | call member same => exact .call (calls _ member) same
  | queue live member =>
    obtain ⟨lw, live, member⟩ := queues _ _ live _ member
    exact .queue live member

/-- The phases that have been seen of an event are in order, and those of the place where it is. -/
structure Passed (trace : List (LoopSighting η δ)) (v : Views η δ) : Prop where
  here : ∀ a passed, At v a passed → (history trace (.heap a)).Sublist passed
  all : ∀ a, (history trace (.heap a)).Sublist Phase.all
  new : ∀ a, v.heap.next ≤ a → history trace (.heap a) = []

/-- An event that comes from another place has had the phases of that place. -/
def Stems (did : List (LoopSighting η δ)) (v : Views η δ) (a : Nat) (passed : List Phase) : Prop :=
  ∃ before, At v a before ∧ (before ++ history did (.heap a)).Sublist passed

theorem Passed.step {trace did : List (LoopSighting η δ)} {v v' : Views η δ} (balanced : Conserved trace v)
    (passed : Passed trace v) (next : v.heap.next ≤ v'.heap.next)
    (moves : ∀ a, history did (.heap a) ≠ [] → Stems did v a Phase.all)
    (stems : ∀ a after, At v' a after → Stems did v a after ∨
      v.heap.next ≤ a ∧ history did (.heap a) = []) : Passed (trace ++ did) v' := by
  have came {a : Nat} {after : List Phase} (stems : Stems did v a after) :
      (history (trace ++ did) (.heap a)).Sublist after := by
    obtain ⟨before, here, fits⟩ := stems
    rw [history_append]
    exact ((passed.here a before here).append (.refl _)).trans fits
  constructor
  · intro a after here
    rcases stems a after here with stems | ⟨new, nothing⟩
    · exact came stems
    · rw [history_append, nothing, passed.new a new]
      exact List.nil_sublist _
  · intro a
    by_cases nothing : history did (.heap a) = []
    · rw [history_append, nothing, List.append_nil]
      exact passed.all a
    · exact came (moves a nothing)
  · intro a new
    rw [history_append, passed.new a (Nat.le_trans next new), List.nil_append]
    by_contra something
    obtain ⟨before, here, _⟩ := moves a something
    have old := balanced.lt_next here.held
    omega

/-- A step that shows no phase of any event. -/
theorem Passed.quiet {trace did : List (LoopSighting η δ)} {v v' : Views η δ} (balanced : Conserved trace v)
    (passed : Passed trace v) (next : v.heap.next ≤ v'.heap.next)
    (nothing : ∀ a, history did (.heap a) = [])
    (stems : ∀ a after, At v' a after → v.heap.next ≤ a ∨ ∃ before, At v a before ∧ before.Sublist after) :
    Passed (trace ++ did) v' := by
  refine passed.step balanced next (fun a something => absurd (nothing a) something) ?_
  intro a after here
  rcases stems a after here with new | ⟨before, here, fits⟩
  · exact .inr ⟨new, nothing a⟩
  · refine .inl ⟨before, here, ?_⟩
    rwa [nothing, List.append_nil]

/-- A step that shows one phase of one event, which goes to another place or is gone. -/
theorem Passed.move {trace did : List (LoopSighting η δ)} {v v' : Views η δ} (balanced : Conserved trace v)
    (passed : Passed trace v) (evt : EventPtr) (phase : Phase) (before : List Phase)
    (did_eq : ∀ a, history did (.heap a) = if evt = .heap a then [phase] else [])
    (source : ∀ a, evt = .heap a → At v a before) (next : v'.heap.next = v.heap.next)
    (fits : (before ++ [phase]).Sublist Phase.all)
    (stems : ∀ a after, At v' a after →
      evt ≠ .heap a ∧ At v a after ∨ evt = .heap a ∧ (before ++ [phase]).Sublist after) :
    Passed (trace ++ did) v' := by
  refine passed.step balanced next.ge ?_ ?_
  · intro a something
    rw [did_eq] at something
    have same : evt = .heap a := by
      by_contra other
      exact something (if_neg other)
    refine ⟨before, source a same, ?_⟩
    rwa [did_eq, if_pos same]
  · intro a after here
    rcases stems a after here with ⟨other, here⟩ | ⟨same, fits⟩
    · refine .inl ⟨after, here, ?_⟩
      rw [did_eq, if_neg other, List.append_nil]
    · refine .inl ⟨before, source a same, ?_⟩
      rwa [did_eq, if_pos same]

theorem history_single {evt : EventPtr} {sight : LoopSighting η δ} {phase : Phase}
    (same : ∀ other, sight.phase other = if evt = other then some phase else none) (other : EventPtr) :
    history [sight] other = if evt = other then [phase] else [] := by
  rw [history, List.filterMap_cons, same]
  by_cases here : evt = other
  · rw [if_pos here, if_pos here]
    rfl
  · rw [if_neg here, if_neg here]
    rfl

/-- The events of a queue that is destroyed are deleted, each once. -/
theorem Drained.history_eq {l : Nat} {exitEvt : Event δ} {queue : List EventPtr}
    {heap heap' : Store (Event δ)} {did : List (LoopSighting η δ)}
    (drained : Drained l exitEvt queue heap heap' did)
    (distinct : (queue.map EventPtr.addresses).sum.Nodup) (a : Nat) :
    history did (.heap a) = if .heap a ∈ queue then [.deleted] else [] := by
  induction drained with
  | nil => rfl
  | exitEvt _ _ ih =>
    rw [List.map_cons, List.sum_cons] at distinct
    have rest := ih (Multiset.nodup_add.mp distinct).2.1
    rw [← List.singleton_append, history_append, rest, history_single fun _ => rfl]
    simp
  | @heap queue _ _ _ did b _ _ _ _ _ _ ih =>
    rw [List.map_cons, List.sum_cons] at distinct
    obtain ⟨_, distinct, apart⟩ := Multiset.nodup_add.mp distinct
    rw [← List.singleton_append, history_append, ih distinct, history_single fun _ => rfl]
    by_cases same : b = a
    · subst same
      have outside : .heap b ∉ queue := by
        intro member
        apply Multiset.disjoint_left.mp apart (EventPtr.mem_addresses.mpr rfl)
        exact (mem_sum_map _ _ _).mpr ⟨_, member, EventPtr.mem_addresses.mpr rfl⟩
      simp [outside]
    · simp [same, Ne.symm same]

theorem at_of_loops {v w : Views η δ} {a : Nat} {passed : List Phase} (here : At v a passed)
    (owned : w.owned = v.owned) (calls : w.calls = v.calls) (loops : w.loops = v.loops) :
    At w a passed := by
  apply here.mono
  · exact fun _ member => owned ▸ member
  · exact fun _ member => calls ▸ member
  · exact fun l lv live evt member => ⟨lv, loop_of_loops loops l ▸ live, member⟩

/-- One loop is set to have a part of its queue. -/
theorem at_of_setLoop {v : Views η δ} {l a : Nat} {lv lv' : LoopView η δ} {passed : List Phase}
    (live : v.loop l = some lv) (here : At (v.setLoop l lv') a passed)
    (fewer : ∀ evt ∈ lv'.queue, evt ∈ lv.queue) : At v a passed :=
  here.mono (fun _ member => member) (fun _ member => member)
    fun _ _ there _ member => queues_kept live there member fewer

theorem at_of_finish {v : Views η δ} {i a : Nat} {passed : List Phase}
    (here : At (v.finish i) a passed) : At v a passed :=
  here.mono (fun _ member => member) (fun _ member => List.mem_of_mem_eraseIdx member)
    fun _ lv live _ member => ⟨lv, live, member⟩

/-- One call goes on. -/
theorem at_of_setCall {v : Views η δ} {i a : Nat} {old new : Stage η} {passed : List Phase}
    (there : v.calls[i]? = some old) (here : At (v.setCall i new) a passed) :
    new.evt = .heap a ∧ passed = new.passed ∨ At (v.finish i) a passed := by
  cases here with
  | owned member => exact .inr (.owned member)
  | call member same =>
    rcases mem_of_mem_set there member with rfl | others
    · exact .inl ⟨same, rfl⟩
    · exact .inr (.call others same)
  | queue live member => exact .inr (.queue live member)

theorem at_of_begin {v : Views η δ} {a : Nat} {new : Stage η} {passed : List Phase}
    (here : At (v.begin new) a passed) : new.evt = .heap a ∧ passed = new.passed ∨ At v a passed := by
  cases here with
  | owned member => exact .inr (.owned member)
  | call member same =>
    rcases List.mem_append.mp member with old | new
    · exact .inr (.call old same)
    · cases List.mem_singleton.mp new
      exact .inl ⟨same, rfl⟩
  | queue live member => exact .inr (.queue live member)

/-- The sender of an event does not have it any more. -/
theorem at_of_give {trace : List (LoopSighting η δ)} {v : Views η δ} (balanced : Conserved trace v)
    {evt : EventPtr} (sendable : Sendable v evt) {a : Nat} {passed : List Phase}
    (here : At (v.give evt) a passed) : evt ≠ .heap a ∧ At v a passed := by
  cases evt with
  | exitEvt => exact ⟨fun same => (by cases same), here⟩
  | heap b =>
    have apart {c : Nat} (member : c ∈ inCalls v.calls + inQueues v.loops) : .heap b ≠ EventPtr.heap c := by
      rintro ⟨⟩
      exact balanced.apart_owned member (Multiset.mem_coe.mpr sendable.1)
    cases here with
    | owned member =>
      have distinct := (Multiset.nodup_add.mp (Multiset.nodup_add.mp
        (Multiset.nodup_add.mp balanced.nodup).2.1).1).1
      obtain ⟨other, old⟩ := (Multiset.coe_nodup.mp distinct).mem_erase_iff.mp member
      exact ⟨fun same => other (EventPtr.heap.inj same).symm, .owned old⟩
    | call member same =>
      exact ⟨apart (Multiset.mem_add.mpr (.inl (mem_inCalls.mpr ⟨_, member, same⟩))), .call member same⟩
    | queue live member =>
      exact ⟨apart (Multiset.mem_add.mpr (.inr (mem_inQueues.mpr ⟨_, _, live, member⟩))),
        .queue live member⟩

/-- One call goes on with its event, and no phase of the event is seen. -/
theorem Passed.setCall {trace did : List (LoopSighting η δ)} {v w : Views η δ}
    (balanced : Conserved trace v) (passed : Passed trace v) {i : Nat} {old new : Stage η}
    (there : v.calls[i]? = some old) (frame : w.loops = v.loops ∧ w.calls = v.calls ∧ w.owned = v.owned ∧
      w.heap.next = v.heap.next) (evt : new.evt = old.evt) (fits : old.passed.Sublist new.passed)
    (nothing : ∀ a, history did (.heap a) = []) : Passed (trace ++ did) (w.setCall i new) := by
  obtain ⟨loops, calls, owned, next⟩ := frame
  refine passed.quiet balanced next.ge nothing ?_
  intro a after here
  rcases at_of_setCall (calls ▸ there) here with ⟨same, rfl⟩ | here
  · exact .inr ⟨_, .call (List.mem_of_getElem? there) (evt ▸ same), fits⟩
  · exact .inr ⟨_, at_of_loops (at_of_finish here) owned.symm calls.symm loops.symm, .refl _⟩

theorem LoopTransition.passed_step {trace did : List (LoopSighting η δ)} {v v' : Views η δ}
    (balanced : Conserved trace v) (typed : Typed v) (passed : Passed trace v)
    (transition : LoopTransition v did v') : Passed (trace ++ did) v' := by
  cases transition with
  | init =>
    refine passed.quiet balanced (Nat.le_refl _) (fun _ => rfl) ?_
    intro a after here
    refine .inr ⟨after, here.mono (fun _ => id) (fun _ => id) ?_, .refl _⟩
    intro l lv live evt member
    rw [System.loop_append (s := v) rfl] at live
    split at live
    · cases live
      cases member
    · exact ⟨lv, live, member⟩
  | @destroyed l lv heap did live unused drained =>
    have drained := drained_of_drain drained
    -- an event of the heap is in the queue once, and so it is deleted once
    have phases (a : Nat) : history (did ++ [.destroyed l]) (.heap a) =
        if .heap a ∈ lv.queue then [.deleted] else [] := by
      rw [history_append, drained.history_eq (balanced.queue_nodup live)]
      exact List.append_nil _
    refine passed.step balanced drained.next_eq.ge ?_ ?_
    · intro a something
      rw [phases] at something
      have member : .heap a ∈ lv.queue := by
        by_contra outside
        exact something (if_neg outside)
      refine ⟨_, .queue live member, ?_⟩
      rw [phases, if_pos member]
      decide
    · intro a after here
      -- the events that are left were not in this queue
      have outside : .heap a ∉ lv.queue := balanced.apart_queue live here.held
      refine .inl ⟨after, here.mono (fun _ => id) (fun _ => id) ?_, ?_⟩
      · intro k lk there evt member
        rw [System.loop_unset (s := v) rfl] at there
        split at there
        · cases there
        · exact ⟨lk, there, member⟩
      · rw [phases, if_neg outside, List.append_nil]
  | handlers live handlers =>
    refine passed.quiet balanced (Nat.le_refl _) (fun _ => rfl) ?_
    exact fun a after here => .inr ⟨after, at_of_setLoop live here fun _ => id, .refl _⟩
  | registered live key deleter =>
    refine passed.quiet balanced (Nat.le_refl _) (fun _ => rfl) ?_
    exact fun a after here => .inr ⟨after, at_of_setLoop live here fun _ => id, .refl _⟩
  | created type =>
    refine passed.quiet balanced (Nat.le_succ _) (fun _ => rfl) ?_
    intro a after here
    cases here with
    | owned member =>
      rcases List.mem_append.mp member with old | new
      · exact .inr ⟨_, .owned old, .refl _⟩
      · exact .inl (List.mem_singleton.mp new).ge
    | call member same => exact .inr ⟨_, .call member same, .refl _⟩
    | queue live member => exact .inr ⟨_, .queue live member, .refl _⟩
  | @sent l lv evt event w live sendable urgent read set =>
    obtain ⟨loops, calls, owned, next⟩ := System.setDeleter_frame set
    refine passed.move balanced evt .sent [] (fun a => history_single (fun _ => rfl) _) ?_ ?_ (by decide) ?_
    · rintro a rfl
      exact .owned sendable.1
    · cases evt <;> exact next
    · intro a after here
      rcases at_of_begin here with ⟨same, rfl⟩ | here
      · exact .inr ⟨same, .refl _⟩
      · apply Or.inl
        apply at_of_give balanced sendable
        apply at_of_loops here
        · cases evt with
          | exitEvt => exact owned.symm
          | heap b => rw [System.give, System.give, owned]
        · cases evt <;> exact calls.symm
        · cases evt <;> exact loops.symm
  | defaulted there read set =>
    exact passed.setCall balanced there (defaulted_frame set) rfl (.refl _) fun _ => rfl
  | @queued i l evt urgent lv there live =>
    have inCall := List.mem_of_getElem? there
    refine passed.move balanced evt .queued [.sent] (fun a => history_single (fun _ => rfl) _) ?_ rfl
      (by decide) ?_
    · exact fun a same => At.call inCall same
    · intro a after here
      -- without the call, the event is nowhere
      have apart (member : a ∈ held (v.finish i)) : evt ≠ .heap a := balanced.apart_call there member
      cases here with
      | owned member => exact .inl ⟨apart (mem_held.mpr (.inl member)), .owned member⟩
      | call member same =>
        exact .inl ⟨apart (held_of_call member same), .call (List.mem_of_mem_eraseIdx member) same⟩
      | queue there' member =>
        rcases queues_setLoop live there' member with ⟨rfl, here⟩ | ⟨lk, before, old⟩
        · have split : evt = .heap a ∨ .heap a ∈ lv.queue := by
            cases urgent <;> simp at here <;> tauto
          rcases split with same | old
          · exact .inr ⟨same, .refl _⟩
          · exact .inl ⟨apart (held_of_queue (v := v.finish i) live old), .queue live old⟩
        · exact .inl ⟨apart (held_of_queue (v := v.finish i) before old), .queue before old⟩
  | idle live empty =>
    refine passed.quiet balanced (Nat.le_refl _) (fun _ => rfl) ?_
    exact fun a after here => .inr ⟨after, here, .refl _⟩
  | @left l lv evt rest event live front read exit =>
    have fewer : ∀ evt ∈ rest, evt ∈ lv.queue := fun _ later => front ▸ List.mem_cons_of_mem _ later
    refine passed.quiet balanced (Nat.le_refl _) ?_ ?_
    · intro a
      -- what ends the loop is `EXIT_EVT`, which is not of the heap
      have other : evt ≠ .heap a := by
        rintro rfl
        exact typed l lv live a (front ▸ List.mem_cons_self) event read exit
      rw [← List.singleton_append, history_append, history_single fun _ => rfl, if_neg other]
      rfl
    · exact fun a after here => .inr ⟨after, at_of_setLoop live here fewer, .refl _⟩
  | @taken l lv evt rest event live front read other =>
    have fewer : ∀ evt ∈ rest, evt ∈ lv.queue := fun _ later => front ▸ List.mem_cons_of_mem _ later
    refine passed.move balanced evt .taken [.sent, .queued] (fun a => history_single (fun _ => rfl) _)
      ?_ rfl (by decide) ?_
    · rintro a rfl
      exact .queue live (front ▸ List.mem_cons_self)
    · intro a after here
      rcases at_of_begin (v := v.setLoop l { lv with queue := rest }) here with ⟨same, rfl⟩ | here
      · exact .inr ⟨same, .refl _⟩
      · have elsewhere := balanced.apart (held_dequeue live front) (At.held here)
        exact .inl ⟨fun same => elsewhere (EventPtr.mem_addresses.mpr same),
          at_of_setLoop live here fewer⟩
  | looked there handler =>
    exact passed.setCall balanced there ⟨rfl, rfl, rfl, rfl⟩ rfl (.refl _) fun _ => rfl
  | @handled i l evt handler there =>
    have inCall := List.mem_of_getElem? there
    cases handler with
    | none =>
      -- the event has no handler, and one phase less than it may have had
      refine passed.setCall balanced there ⟨rfl, rfl, rfl, rfl⟩ rfl ?_ fun _ => rfl
      rw [Stage.passed, Stage.passed]
      decide
    | some handler =>
      refine passed.move balanced evt .handled [.sent, .queued, .taken]
        (fun a => history_single (fun _ => rfl) _) ?_ rfl (by decide) ?_
      · exact fun a same => At.call inCall same
      · intro a after here
        rcases at_of_setCall there here with ⟨same, rfl⟩ | here
        · exact .inr ⟨same, .refl _⟩
        · exact .inl ⟨balanced.apart_call there here.held, at_of_finish here⟩
  | @deleted i l evt event deleter w there read bound gone =>
    obtain ⟨loops, calls, owned, next⟩ := System.release_frame gone
    have inCall := List.mem_of_getElem? there
    refine passed.move balanced evt .deleted [.sent, .queued, .taken, .handled] ?_ ?_ next
      (by decide) ?_
    · intro a
      rw [← List.singleton_append, history_append, history_single fun _ => rfl]
      exact List.append_nil _
    · exact fun a same => At.call inCall same
    · intro a after here
      have here : At (v.finish i) a after := by
        apply at_of_loops here
        · exact owned.symm
        · rw [System.finish, System.finish, calls]
        · exact loops.symm
      exact .inl ⟨balanced.apart_call there here.held, at_of_finish here⟩

end AcosChat

import AcosChat.EventLoop.Exits
import AcosChat.EventLoop.Order
import AcosChat.EventLoop.Phases

/-!
# Every event is handled and released as promised

The events that are sent to loops in a run, by any number of threads: in which order they are
taken, how often they are handled and deleted, with which deleter, and what becomes of
`EXIT_EVT`.
-/
namespace AcosChat

open Store Run EventLoop

variable {η δ : Type}

/-! ### Deleters -/

/-- The deleters that have been called are those that were promised. -/
structure Deleters (trace : List (LoopSighting η δ)) : Prop where
  heap : ∀ l a deleter, .deleted l (.heap a) deleter ∈ trace →
    ∃ found, SentWith trace l a found ∧ deleter = found.getD .default
  stub : ∀ l deleter, .deleted l .exitEvt deleter ∈ trace → deleter = .stub
  unhandled : ∀ l handler, .handled l .exitEvt handler ∉ trace

theorem Deleters.step {trace did : List (LoopSighting η δ)} (deleters : Deleters trace)
    (heap : ∀ l a deleter, .deleted l (.heap a) deleter ∈ did →
      ∃ found, SentWith trace l a found ∧ deleter = found.getD .default)
    (stub : ∀ l deleter, .deleted l .exitEvt deleter ∈ did → deleter = .stub)
    (unhandled : ∀ l handler, .handled l .exitEvt handler ∉ did) : Deleters (trace ++ did) := by
  constructor
  · intro l a deleter member
    have called : ∃ found, SentWith trace l a found ∧ deleter = found.getD .default := by
      rcases List.mem_append.mp member with old | new
      · exact deleters.heap l a deleter old
      · exact heap l a deleter new
    obtain ⟨found, sent, same⟩ := called
    exact ⟨found, sent.append did, same⟩
  · intro l deleter member
    rcases List.mem_append.mp member with old | new
    · exact deleters.stub l deleter old
    · exact stub l deleter new
  · intro l handler member
    rcases List.mem_append.mp member with old | new
    · exact deleters.unhandled l handler old
    · exact unhandled l handler new

/-- A step that calls no handler and no deleter. -/
theorem Deleters.keep {trace did : List (LoopSighting η δ)} (deleters : Deleters trace)
    (none : ∀ sight ∈ did, ∀ l evt, (∀ deleter, sight ≠ .deleted l evt deleter) ∧
      ∀ handler, sight ≠ .handled l evt handler) : Deleters (trace ++ did) := by
  apply deleters.step
  · exact fun l a deleter member => absurd rfl ((none _ member l _).1 deleter)
  · exact fun l deleter member => absurd rfl ((none _ member l _).1 deleter)
  · exact fun l handler member => (none _ member l _).2 handler rfl

/-- The deleters that a destruction calls are those that the events have. -/
theorem Drained.bound {l : Nat} {exitEvt : Event δ} {queue : List EventPtr}
    {heap heap' : Store (Event δ)} {did : List (LoopSighting η δ)}
    (drained : Drained l exitEvt queue heap heap' did) {sight : LoopSighting η δ} (member : sight ∈ did) :
    (∃ deleter, sight = .deleted l .exitEvt deleter ∧ .exitEvt ∈ queue ∧
        exitEvt.deleter = some deleter) ∨
      ∃ a event deleter, sight = .deleted l (.heap a) deleter ∧ .heap a ∈ queue ∧
        heap.read a = some event ∧ event.deleter = some deleter := by
  induction drained with
  | nil => cases member
  | exitEvt bound _ ih =>
    rcases List.mem_cons.mp member with rfl | later
    · exact .inl ⟨_, rfl, List.mem_cons_self, bound⟩
    · rcases ih later with ⟨deleter, same, inQueue, bound⟩ | ⟨a, event, deleter, same, inQueue, read, bound⟩
      · exact .inl ⟨deleter, same, List.mem_cons_of_mem _ inQueue, bound⟩
      · exact .inr ⟨a, event, deleter, same, List.mem_cons_of_mem _ inQueue, read, bound⟩
  | @heap queue heap between heap' did b _ _ read bound freed _ ih =>
    rcases List.mem_cons.mp member with rfl | later
    · exact .inr ⟨b, _, _, rfl, List.mem_cons_self, read, bound⟩
    · rcases ih later with ⟨deleter, same, inQueue, bound⟩ | ⟨a, event, deleter, same, inQueue, read, bound⟩
      · exact .inl ⟨deleter, same, List.mem_cons_of_mem _ inQueue, bound⟩
      · obtain ⟨_, _, _, free⟩ := Store.free_eq_some freed
        rw [free] at read
        split at read
        · cases read
        · exact .inr ⟨a, event, deleter, same, List.mem_cons_of_mem _ inQueue, read, bound⟩

theorem LoopTransition.deleters_step {trace did : List (LoopSighting η δ)} {v v' : Views η δ}
    (kept : Kept trace v) (deleters : Deleters trace) (transition : LoopTransition v did v') :
    Deleters (trace ++ did) := by
  cases transition with
  | @destroyed l lv heap did live unused drained =>
    -- a destruction only deletes, and each event of the queue is bound by its send
    have called {sight : LoopSighting η δ} (member : sight ∈ did ++ [.destroyed l]) :=
      (List.mem_append.mp member).imp_left (drained_of_drain drained).bound
    have queues := kept.bound.queues l lv live
    apply deleters.step
    · intro k a deleter member
      rcases called member with (⟨_, same, _⟩ | ⟨b, event, deleter', same, inQueue, read, found⟩) | same
      · cases same
      · cases same
        obtain ⟨event', promised, read', _, sent, set⟩ := queues _ inQueue
        cases read.symm.trans read'
        exact ⟨promised, sent, Option.some.inj (found.symm.trans set)⟩
      · cases List.mem_singleton.mp same
    · intro k deleter member
      rcases called member with (⟨deleter', same, inQueue, found⟩ | ⟨_, _, _, same, _⟩) | same
      · cases same
        exact Option.some.inj (found.symm.trans (queues _ inQueue))
      · cases same
      · cases List.mem_singleton.mp same
    · intro k handler member
      rcases called member with (⟨_, same, _⟩ | ⟨_, _, _, same, _⟩) | same
      · cases same
      · cases same
      · cases List.mem_singleton.mp same
  | @handled i l evt handler there =>
    -- an iteration that has taken `EXIT_EVT` returns before it looks for a handler
    have notExit := kept.bound.iterating _ (List.mem_of_getElem? there) rfl
    have called {sight : LoopSighting η δ} (member : sight ∈ handler.toList.map (.handled l evt)) :
        ∃ handler, sight = .handled l evt handler := by
      obtain ⟨handler, _, same⟩ := List.mem_map.mp member
      exact ⟨handler, same.symm⟩
    apply deleters.step
    · intro k a deleter member
      obtain ⟨_, same⟩ := called member
      cases same
    · intro k deleter member
      obtain ⟨_, same⟩ := called member
      cases same
    · intro k handler member
      obtain ⟨_, same⟩ := called member
      cases same
      exact notExit rfl
  | @deleted i l evt event deleter w there read bound gone =>
    have inCall := List.mem_of_getElem? there
    have notExit := kept.bound.iterating _ inCall rfl
    have before := kept.bound.calls _ inCall
    cases evt with
    | exitEvt => exact absurd rfl notExit
    | heap a =>
      obtain ⟨event', promised, read', _, sent, set⟩ := before
      cases read.symm.trans read'
      apply deleters.step
      · intro k b deleter' member
        simp only [List.mem_cons, LoopSighting.deleted.injEq, EventPtr.heap.injEq, List.not_mem_nil, or_false,
          reduceCtorEq] at member
        obtain ⟨rfl, rfl, rfl⟩ := member
        exact ⟨promised, sent, Option.some.inj (bound.symm.trans set)⟩
      · intro k deleter' member
        simp at member
      · intro k handler member
        simp at member
  | _ => exact deleters.keep (by simp)

/-! ### Iterations that return `false` -/

/-- An iteration returns `false` if and only if it has just taken `EXIT_EVT`. -/
def StopsDue (before : List (LoopSighting η δ)) (sight : LoopSighting η δ) : Prop :=
  ∀ l, before.getLast? = some (.taken l .exitEvt) ↔ sight = .returned l false

structure Stops (trace : List (LoopSighting η δ)) : Prop where
  due : Follows StopsDue trace
  returned : ∀ l, trace.getLast? ≠ some (.taken l .exitEvt)

theorem Stops.keep {trace did : List (LoopSighting η δ)} (stops : Stops trace)
    (none : ∀ sight ∈ did, ∀ l, sight ≠ .taken l .exitEvt ∧ sight ≠ .returned l false) :
    Stops (trace ++ did) := by
  induction did generalizing trace with
  | nil => rwa [List.append_nil]
  | cons sight did ih =>
    rw [List.append_cons]
    have other := none sight List.mem_cons_self
    apply ih
    · constructor
      · rw [follows_append_singleton]
        exact ⟨stops.due, fun l => ⟨fun last => absurd last (stops.returned l),
          fun same => absurd same (other l).2⟩⟩
      · intro l last
        rw [List.getLast?_concat] at last
        exact (other l).1 (Option.some.inj last)
    · exact fun sight member => none sight (List.mem_cons_of_mem _ member)

theorem Stops.leave {trace : List (LoopSighting η δ)} (stops : Stops trace) (l : Nat) :
    Stops (trace ++ [.taken l .exitEvt, .returned l false]) := by
  rw [List.append_cons]
  constructor
  · rw [follows_append_singleton, follows_append_singleton]
    refine ⟨⟨stops.due, fun k => ?_⟩, fun k => ?_⟩
    · exact ⟨fun last => absurd last (stops.returned k), fun same => by cases same⟩
    · rw [List.getLast?_concat]
      simp
  · intro k last
    rw [List.getLast?_concat] at last
    cases last

theorem LoopTransition.stops_step {trace did : List (LoopSighting η δ)} {v v' : Views η δ} (kept : Kept trace v)
    (stops : Stops trace) (transition : LoopTransition v did v') : Stops (trace ++ did) := by
  cases transition with
  | @destroyed l lv heap did live unused drained =>
    apply stops.keep
    intro sight member k
    rcases (List.mem_append.mp member).imp_left (drained_of_drain drained).bound with
      (⟨_, rfl, _⟩ | ⟨_, _, _, rfl, _⟩) | same
    · simp
    · simp
    · rw [List.mem_singleton.mp same]
      simp
  | @left l lv evt rest event live front read exit =>
    cases evt with
    | exitEvt => exact stops.leave l
    | heap a => exact absurd exit (kept.typed l lv live a (front ▸ List.mem_cons_self) event read)
  | @taken l lv evt rest event live front read other =>
    apply stops.keep
    intro sight member k
    rw [List.mem_singleton.mp member]
    constructor
    · rintro ⟨⟩
      cases read
      exact other kept.bound.exitType
    · simp
  | @handled i l evt handler there => cases handler <;> exact stops.keep (by simp)
  | _ => exact stops.keep (by simp)

/-! ### The order of two events -/

/-- What is seen when something is done to the queue of a loop. -/
def EventLoop.LoopSighting.ofLine (l : Nat) : Line.Event EventPtr → LoopSighting η δ
  | .back evt => .queued l evt false
  | .front evt => .queued l evt true
  | .left evt => .taken l evt
  | .closed => .destroyed l

theorem ofLine_eq {l : Nat} {sight : LoopSighting η δ} {event : Line.Event EventPtr}
    (same : sight.inLine l = some event) : LoopSighting.ofLine l event = sight := by
  cases sight with
  | queued k evt urgent =>
    obtain ⟨rfl, found⟩ := Option.ite_none_right_eq_some.mp same
    cases found
    cases urgent <;> rfl
  | taken k evt =>
    obtain ⟨rfl, found⟩ := Option.ite_none_right_eq_some.mp same
    cases found
    rfl
  | destroyed k =>
    obtain ⟨rfl, found⟩ := Option.ite_none_right_eq_some.mp same
    cases found
    rfl
  | _ => cases same

theorem map_lineOf_sublist (trace : List (LoopSighting η δ)) (l : Nat) :
    ((lineOf trace l).map (LoopSighting.ofLine l)).Sublist trace := by
  induction trace with
  | nil => exact .refl _
  | cons sight trace ih =>
    rw [lineOf, List.filterMap_cons]
    split
    next => exact ih.cons sight
    next event same =>
      rw [List.map_cons, ofLine_eq same]
      exact ih.cons_cons sight

/-- An event does not join the queue of a loop more often than it is queued. -/
theorem count_joined_lineOf_le (trace : List (LoopSighting η δ)) (l a : Nat) :
    (Line.joined (lineOf trace l)).count (.heap a) ≤ (history trace (.heap a)).count .queued := by
  rw [Line.joined, lineOf, List.filterMap_filterMap, List.count_filterMap, history, List.count_filterMap]
  apply List.countP_mono_left
  intro sight member joins
  rw [beq_iff_eq] at joins ⊢
  obtain ⟨event, inLine, joins⟩ := Option.bind_eq_some_iff.mp joins
  have same := ofLine_eq inLine
  cases event with
  | back evt =>
    cases joins
    rw [← same]
    exact if_pos rfl
  | front evt =>
    cases joins
    rw [← same]
    exact if_pos rfl
  | left evt => cases joins
  | closed => cases joins

section TwoEvents

variable {trace : List (LoopSighting η δ)} {l x y : Nat}

theorem taken_of_lineOf (before : [Line.Event.left (.heap x), .left (.heap y)].Sublist (lineOf trace l)) :
    [.taken l (.heap x), .taken l (.heap y)].Sublist trace := by
  have seen := before.map (LoopSighting.ofLine (η := η) (δ := δ) l)
  exact seen.trans (map_lineOf_sublist trace l)

variable {urgent urgent' : Bool} (orderly : Line.Orderly (lineOf trace l))
  (phases : ∀ a, (history trace (.heap a)).Sublist Phase.all)

include phases

theorem joined_once (a : Nat) : (Line.joined (lineOf trace l)).count (.heap a) ≤ 1 := by
  apply Nat.le_trans (count_joined_lineOf_le trace l a)
  exact (phases a).count_le .queued

theorem ne_of_queued
    (inOrder : [.queued l (.heap x) urgent, .queued l (.heap y) urgent'].Sublist trace) :
    EventPtr.heap x ≠ .heap y := by
  rintro ⟨⟩
  have twice := (inOrder.filterMap (LoopSighting.phase (.heap x))).trans (phases x)
  have never : ¬[Phase.queued, .queued].Sublist Phase.all := by decide
  exact never (by simpa [LoopSighting.phase] using twice)

include orderly

/-- A normal event is taken after all that have been queued before it. -/
theorem taken_in_order (inOrder : [.queued l (.heap x) urgent, .queued l (.heap y) false,
      .taken l (.heap y)].Sublist trace) :
    [.taken l (.heap x), .taken l (.heap y)].Sublist trace := by
  have inLine := inOrder.filterMap (LoopSighting.inLine l)
  have other := ne_of_queued phases (.trans (List.sublist_append_left [_, _] [_]) inOrder)
  simp [LoopSighting.inLine] at inLine
  apply taken_of_lineOf
  apply Line.left_before_of_back orderly _ other (joined_once phases y) inLine
  cases urgent <;> rfl

/-- An urgent event is taken before all that are queued at that time. -/
theorem taken_urgently (inOrder : [.queued l (.heap x) urgent, .queued l (.heap y) true,
      .taken l (.heap x)].Sublist trace) :
    [.taken l (.heap y), .taken l (.heap x)].Sublist trace := by
  have inLine := inOrder.filterMap (LoopSighting.inLine l)
  have other := ne_of_queued phases (.trans (List.sublist_append_left [_, _] [_]) inOrder)
  simp [LoopSighting.inLine] at inLine
  apply taken_of_lineOf
  apply Line.left_before_of_front orderly _ other (joined_once phases x) inLine
  cases urgent <;> rfl

end TwoEvents

/-! ### Runs -/

/-- A loop is destroyed in a trace. -/
theorem Lined.not_live {trace : List (LoopSighting η δ)} {v : Views η δ} (lined : Lined trace v) {l : Nat}
    (destroyed : .destroyed l ∈ trace) : v.loop l = none := by
  by_contra live
  obtain ⟨lv, there⟩ := Option.ne_none_iff_exists'.mp live
  apply lined.opened l lv there
  exact List.mem_filterMap.mpr ⟨_, destroyed, if_pos rfl⟩

/-- An event is sent to one loop. -/
theorem sent_to_one {trace : List (LoopSighting η δ)} {l k a : Nat} {type : Int32}
    {found : Option (Deleter δ)} (phases : (history trace (.heap a)).Sublist Phase.all)
    (sent : .sent l (.heap a) type ∈ trace) (also : SentWith trace k a found) : k = l := by
  obtain ⟨before, type', after, rfl, _⟩ := also
  have once := phases.count_le .sent
  rw [history_append, List.count_append, ← List.singleton_append, history_append, List.count_append,
    history_single fun _ => rfl, if_pos rfl] at once
  have single : [Phase.sent].count .sent = 1 := rfl
  have most : Phase.all.count .sent = 1 := rfl
  have elsewhere {part : List (LoopSighting η δ)} (member : .sent l (.heap a) type ∈ part) :
      0 < (history part (.heap a)).count .sent :=
    List.count_pos_iff.mpr (List.mem_filterMap.mpr ⟨.sent l (.heap a) type, member, if_pos rfl⟩)
  rcases List.mem_append.mp sent with earlier | rest
  · have again := elsewhere earlier
    omega
  · rcases List.mem_cons.mp rest with same | later
    · cases same
      rfl
    · have again := elsewhere later
      omega

/-- What every run keeps, of its trace. -/
structure Traced (trace : List (LoopSighting η δ)) (v : Views η δ) : Prop where
  lined : Lined trace v
  passed : Passed trace v
  exits : ExitsKept trace v
  deleters : Deleters trace
  stops : Stops trace

theorem Traced.start :
    Traced [] (⟨[], Store.empty, ⟨exitEventType, none⟩, [], []⟩ : Views η δ) := by
  constructor
  · exact ⟨fun _ => follows_nil, fun _ _ there => (by cases there), fun _ _ there => (by cases there),
      fun _ _ => rfl⟩
  · exact ⟨fun _ _ _ => List.nil_sublist _, fun _ => List.nil_sublist _, fun _ _ => rfl⟩
  · exact fun _ => rfl
  · exact ⟨fun _ _ _ member => (by cases member), fun _ _ member => (by cases member),
      fun _ _ member => (by cases member)⟩
  · exact ⟨follows_nil, fun _ last => (by cases last)⟩

theorem Traced.step {trace did : List (LoopSighting η δ)} {v v' : Views η δ} (kept : Kept trace v)
    (accounted : Traced trace v) (transition : LoopTransition v did v') : Traced (trace ++ did) v' :=
  ⟨transition.lined_step accounted.lined,
    transition.passed_step kept.balanced kept.typed accounted.passed,
    transition.exits_step kept.typed accounted.exits,
    transition.deleters_step kept accounted.deleters, transition.stops_step kept accounted.stops⟩

namespace Traced

variable {trace : List (LoopSighting η δ)} {v : Views η δ} (accounted : Traced trace v)

include accounted

theorem handled_once (evt : EventPtr) : (history trace evt).count .handled ≤ 1 := by
  cases evt with
  | exitEvt =>
    -- `EXIT_EVT` may be sent many times, but it is never handled
    rw [List.count_eq_zero.mpr]
    · exact Nat.zero_le 1
    · intro member
      obtain ⟨sight, member, phase⟩ := List.mem_filterMap.mp member
      cases sight with
      | handled l evt handler =>
        obtain ⟨rfl, _⟩ := Option.ite_none_right_eq_some.mp phase
        exact accounted.deleters.unhandled l handler member
      | _ => simp [LoopSighting.phase] at phase
  | heap a => exact (accounted.passed.all a).count_le .handled

/-- An event that is with nobody any more has been deleted. -/
theorem gone (kept : Kept trace v) {l a : Nat} {type : Int32} (sent : .sent l (.heap a) type ∈ trace)
    (destroyed : .destroyed l ∈ trace) (finished : ∀ stage ∈ v.calls, stage.evt ≠ .heap a) :
    a ∈ deletedIn trace := by
  obtain ⟨lined, passed, _⟩ := accounted
  have seen : Phase.sent ∈ history trace (.heap a) := List.mem_filterMap.mpr ⟨_, sent, if_pos rfl⟩
  have old : a < v.heap.next := by
    by_contra new
    rw [passed.new a (Nat.le_of_not_lt new)] at seen
    cases seen
  have somewhere : a ∈ deletedIn trace + held v := by
    rw [kept.balanced]
    exact Multiset.mem_range.mpr old
  rcases Multiset.mem_add.mp somewhere with gone | here
  · exact gone
  · exfalso
    rcases mem_held.mp here with owned | ⟨stage, member, same⟩ | ⟨k, lv, live, member⟩
    · -- what its creator has, has not been sent
      have none := List.sublist_nil.mp (passed.here a _ (.owned owned))
      rw [none] at seen
      cases seen
    · exact finished stage member same
    · -- the queue that it is in would be that of the loop it was sent to, which is destroyed
      obtain ⟨_, found, _, _, also, _⟩ := kept.bound.queues k lv live _ member
      rw [sent_to_one (passed.all a) sent also, lined.not_live destroyed] at live
      cases live

theorem deleted_once (kept : Kept trace v) {l a : Nat} {type : Int32}
    (sent : .sent l (.heap a) type ∈ trace) (destroyed : .destroyed l ∈ trace)
    (finished : ∀ stage ∈ v.calls, stage.evt ≠ .heap a) :
    (history trace (.heap a)).count .deleted = 1 := by
  have most : (history trace (.heap a)).count .deleted ≤ 1 :=
    (accounted.passed.all a).count_le .deleted
  obtain ⟨k, deleter, member⟩ := mem_deletedIn.mp (accounted.gone kept sent destroyed finished)
  have least : Phase.deleted ∈ history trace (.heap a) :=
    List.mem_filterMap.mpr ⟨_, member, if_pos rfl⟩
  have positive := List.count_pos_iff.mpr least
  omega

/-- A loop that is destroyed has no `EXIT_EVT` left, if no call is bringing one. -/
theorem exits_settled {l : Nat} (destroyed : .destroyed l ∈ trace)
    (finished : ∀ stage ∈ v.calls, stage.evt = .exitEvt → stage.loop ≠ l) :
    trace.countP (LoopSighting.sendsExit l) =
      trace.countP (LoopSighting.stops l) + trace.countP (LoopSighting.discardsExit l) := by
  have whole := accounted.exits l
  have none : waiting v l = 0 := by
    rw [waiting, accounted.lined.not_live destroyed, exitsIn, Nat.zero_add]
    apply List.sum_eq_zero
    intro n member
    obtain ⟨stage, inCall, rfl⟩ := List.mem_map.mp member
    rw [Stage.exits, if_neg]
    rintro ⟨isExit, here⟩
    exact finished stage inCall isExit here
  omega

end Traced

/-- What is promised of the events of a run. -/
structure Delivered (trace : List (LoopSighting η δ)) (s : Loops η δ) : Prop where
  /-- No step touches an event that is gone or a loop that is destroyed. -/
  faultless : ∀ action did rest, Promised s action → loopStep s action = some (did, rest) → rest.isSome
  handledOnce : ∀ evt, (history trace evt).count .handled ≤ 1
  /-- An event is handled before it is deleted, and each of its phases is had at most once. -/
  phases : ∀ a, (history trace (.heap a)).Sublist Phase.all
  /-- When its loop is destroyed and no call has it any more, an event has been deleted. -/
  deletedOnce : ∀ l a type, .sent l (.heap a) type ∈ trace → .destroyed l ∈ trace →
    (∀ stage ∈ s.calls, stage.evt ≠ .heap a) → (history trace (.heap a)).count .deleted = 1
  /-- It is deleted with the deleter for its type that was registered when it was sent. -/
  deleter : ∀ l a deleter, .deleted l (.heap a) deleter ∈ trace →
    ∃ found, SentWith trace l a found ∧ deleter = found.getD .default
  /-- An iteration takes the first event of its queue. -/
  orderly : ∀ l, Line.Orderly (lineOf trace l)
  /-- A normal event is taken after all that were queued before it. -/
  normal : ∀ l x y urgent, [.queued l (.heap x) urgent, .queued l (.heap y) false,
    .taken l (.heap y)].Sublist trace → [.taken l (.heap x), .taken l (.heap y)].Sublist trace
  /-- An urgent event is taken before all that were in the queue when it came. -/
  urgent : ∀ l x y urgent, [.queued l (.heap x) urgent, .queued l (.heap y) true,
    .taken l (.heap x)].Sublist trace → [.taken l (.heap y), .taken l (.heap x)].Sublist trace
  /-- An iteration returns `false` if and only if it has taken `EXIT_EVT`. -/
  stops : Follows StopsDue trace
  /-- Every `EXIT_EVT` ends one iteration or is discarded when the loop is destroyed. -/
  exits : ∀ l, .destroyed l ∈ trace → (∀ stage ∈ s.calls, stage.evt = .exitEvt → stage.loop ≠ l) →
    trace.countP (LoopSighting.sendsExit l) =
      trace.countP (LoopSighting.stops l) + trace.countP (LoopSighting.discardsExit l)
  /-- No iteration goes on with `EXIT_EVT`, so that only a destruction calls its deleter. -/
  notIterated : ∀ stage ∈ s.calls, stage.evt = .exitEvt → stage.sends
  stub : ∀ l deleter, .deleted l .exitEvt deleter ∈ trace → deleter = .stub

theorem events_delivered {trace : List (LoopSighting η δ)} {s : Loops η δ}
    (ran : Ran loopStep Promised Loops.start trace s) : Delivered trace s := by
  obtain ⟨v, shows, kept, accounted⟩ := loops_invariant Traced.start
    (fun _ _ _ _ kept accounted => accounted.step kept) ran
  have ⟨lined, passed, exits, deleters, stops⟩ := accounted
  constructor
  · intro action did rest promised taken
    obtain ⟨_, _, same, _⟩ := loopStep_matched shows kept.sound promised taken
    rw [same, Option.isSome_some]
  · exact accounted.handled_once
  · exact passed.all
  · intro l a type sent destroyed finished
    exact accounted.deleted_once kept sent destroyed (shows.calls ▸ finished)
  · exact deleters.heap
  · exact lined.orderly
  · exact fun l x y urgent inOrder => taken_in_order (lined.orderly l) passed.all inOrder
  · exact fun l x y urgent inOrder => taken_urgently (lined.orderly l) passed.all inOrder
  · exact stops.due
  · intro l destroyed finished
    exact accounted.exits_settled destroyed (shows.calls ▸ finished)
  · intro stage member isExit
    by_contra iterates
    exact kept.bound.iterating stage (shows.calls ▸ member) (Bool.eq_false_of_not_eq_true iterates) isExit
  · exact deleters.stub

theorem events_delivered_three : ∃ (trace : List (LoopSighting Nat Nat)) (s : Loops Nat Nat),
    replay loopStep Loops.start [.init, .registerDeleter 0 7 (some (.other 70)),
      .registerHandler 0 7 (some 700), .create 7, .create 9, .send 0 (.heap 0) false, .advance 0,
      .advance 0, .send 0 (.heap 1) false, .advance 0, .advance 0, .send 0 .exitEvt true, .advance 0,
      .advance 0, .iterate 0, .iterate 0, .advance 0, .advance 0, .advance 0, .destroy 0] =
      some (trace, s) ∧
    trace = [.registered 0 0 (some .stub), .registered 0 7 (some (.other 70)), .sent 0 (.heap 0) 7,
      .queued 0 (.heap 0) false, .sent 0 (.heap 1) 9, .queued 0 (.heap 1) false, .sent 0 .exitEvt 0,
      .queued 0 .exitEvt true, .taken 0 .exitEvt, .returned 0 false, .taken 0 (.heap 0),
      .handled 0 (.heap 0) 700, .deleted 0 (.heap 0) (.other 70), .returned 0 true,
      .deleted 0 (.heap 1) .default, .destroyed 0] ∧
    Delivered trace s := by
  have replayed : (replay loopStep (Loops.start : Loops Nat Nat) [.init,
      .registerDeleter 0 7 (some (.other 70)),
      .registerHandler 0 7 (some 700), .create 7, .create 9, .send 0 (.heap 0) false, .advance 0,
      .advance 0, .send 0 (.heap 1) false, .advance 0, .advance 0, .send 0 .exitEvt true, .advance 0,
      .advance 0, .iterate 0, .iterate 0, .advance 0, .advance 0, .advance 0, .destroy 0]).map Prod.fst =
      some [.registered 0 0 (some .stub), .registered 0 7 (some (.other 70)), .sent 0 (.heap 0) 7,
      .queued 0 (.heap 0) false, .sent 0 (.heap 1) 9, .queued 0 (.heap 1) false, .sent 0 .exitEvt 0,
      .queued 0 .exitEvt true, .taken 0 .exitEvt, .returned 0 false, .taken 0 (.heap 0),
      .handled 0 (.heap 0) 700, .deleted 0 (.heap 0) (.other 70), .returned 0 true,
      .deleted 0 (.heap 1) .default, .destroyed 0] := by decide
  obtain ⟨⟨trace, s⟩, replayed, same⟩ := Option.map_eq_some_iff.mp replayed
  exact ⟨trace, s, replayed, same, events_delivered (ran_of_replay (by decide) replayed)⟩

end AcosChat

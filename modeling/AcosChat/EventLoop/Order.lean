import AcosChat.EventLoop.Faultless
import AcosChat.Lib.Line

/-!
# In which order events are taken

The queue of a loop is the waiting line of what is seen: a normal event joins it at the back,
an urgent one at the front, an iteration takes the first, and the destruction of the loop
closes it.
-/
namespace AcosChat

open Store Run EventLoop

variable {η δ : Type}

/-- What is done to the queue of a loop. -/
def EventLoop.LoopSighting.inLine (l : Nat) : LoopSighting η δ → Option (Line.Event EventPtr)
  | .queued k evt urgent =>
    if k = l then some (if urgent then .front evt else .back evt) else none
  | .taken k evt => if k = l then some (.left evt) else none
  | .destroyed k => if k = l then some .closed else none
  | _ => none

def lineOf (trace : List (LoopSighting η δ)) (l : Nat) : List (Line.Event EventPtr) :=
  trace.filterMap (LoopSighting.inLine l)

theorem lineOf_append (trace did : List (LoopSighting η δ)) (l : Nat) :
    lineOf (trace ++ did) l = lineOf trace l ++ lineOf did l :=
  List.filterMap_append

theorem lineOf_single {l : Nat} {sight : LoopSighting η δ} {event : Line.Event EventPtr}
    (same : ∀ k, sight.inLine k = if l = k then some event else none) (k : Nat) :
    lineOf [sight] k = if k = l then [event] else [] := by
  rw [lineOf, List.filterMap_cons, same]
  by_cases here : l = k
  · rw [if_pos here, if_pos here.symm]
    rfl
  · rw [if_neg here, if_neg (Ne.symm here)]
    rfl

/-- The queues of the loops that are there are the open lines of the trace. -/
structure Lined (trace : List (LoopSighting η δ)) (v : Views η δ) : Prop where
  orderly : ∀ l, Line.Orderly (lineOf trace l)
  queue : ∀ l lv, v.loop l = some lv → lv.queue = Line.line (lineOf trace l)
  opened : ∀ l lv, v.loop l = some lv → .closed ∉ lineOf trace l
  new : ∀ l, v.loops.length ≤ l → lineOf trace l = []

namespace Lined

variable {trace did : List (LoopSighting η δ)} {v v' : Views η δ} (lined : Lined trace v)

include lined

/-- A step that does nothing to the queues. -/
theorem keep (nothing : ∀ l, lineOf did l = [])
    (loops : ∀ l lv', v'.loop l = some lv' → ∃ lv, v.loop l = some lv ∧ lv'.queue = lv.queue)
    (count : v.loops.length = v'.loops.length) : Lined (trace ++ did) v' := by
  have same (l : Nat) : lineOf (trace ++ did) l = lineOf trace l := by
    rw [lineOf_append, nothing, List.append_nil]
  constructor
  · intro l
    rw [same]
    exact lined.orderly l
  · intro l lv' live
    obtain ⟨lv, live, queue⟩ := loops l lv' live
    rw [same, queue, lined.queue l lv live]
  · intro l lv' live
    obtain ⟨lv, live, _⟩ := loops l lv' live
    rw [same]
    exact lined.opened l lv live
  · intro l new
    rw [same, lined.new l (count ▸ new)]

/-- A step that does one thing to one queue. -/
theorem step {l : Nat} {lv : LoopView η δ} (live : v.loop l = some lv) (event : Line.Event EventPtr)
    (here : ∀ k, lineOf did k = if k = l then [event] else [])
    (first : ∀ evt, event = .left evt → lv.queue.head? = some evt)
    (loops : ∀ k lk, v'.loop k = some lk →
      k = l ∧ lk.queue = Line.after lv.queue event ∧ event ≠ .closed ∨
      k ≠ l ∧ ∃ lk', v.loop k = some lk' ∧ lk.queue = lk'.queue)
    (count : v.loops.length = v'.loops.length) : Lined (trace ++ did) v' := by
  have opened := lined.opened l lv live
  have queue := lined.queue l lv live
  constructor
  · intro k
    rw [lineOf_append, here]
    split
    next same =>
      subst same
      refine (follows_append_singleton _ _).mpr ⟨lined.orderly k, opened, ?_⟩
      rw [← queue]
      exact first
    next =>
      rw [List.append_nil]
      exact lined.orderly k
  · intro k lk there
    rw [lineOf_append, here]
    rcases loops k lk there with ⟨rfl, after, _⟩ | ⟨other, lk', before, same⟩
    · rw [if_pos rfl, Line.line_append_singleton, after, queue]
    · rw [if_neg other, List.append_nil, same, lined.queue k lk' before]
  · intro k lk there
    rw [lineOf_append, here]
    rcases loops k lk there with ⟨rfl, _, still⟩ | ⟨other, lk', before, _⟩
    · rw [if_pos rfl, List.mem_append, List.mem_singleton]
      exact fun closed => closed.elim opened fun same => still same.symm
    · rw [if_neg other, List.append_nil]
      exact lined.opened k lk' before
  · intro k new
    have other : k ≠ l := by
      have inside := System.lt_of_loop live
      omega
    rw [lineOf_append, here, if_neg other, List.append_nil, lined.new k (count ▸ new)]

end Lined

/-- A loop that is set, with its queue or with another one. -/
theorem line_setLoop {v : Views η δ} {l : Nat} {lv lv' : LoopView η δ} (live : v.loop l = some lv)
    {event : Line.Event EventPtr} (after : lv'.queue = Line.after lv.queue event)
    (opened : event ≠ .closed) (k : Nat) (lk : LoopView η δ) (there : (v.setLoop l lv').loop k = some lk) :
    k = l ∧ lk.queue = Line.after lv.queue event ∧ event ≠ .closed ∨
      k ≠ l ∧ ∃ lk', v.loop k = some lk' ∧ lk.queue = lk'.queue := by
  rw [System.loop_setLoop live] at there
  split at there
  next here =>
    cases there
    exact .inl ⟨here, after, opened⟩
  next other => exact .inr ⟨other, lk, there, rfl⟩

theorem same_setLoop {v : Views η δ} {l : Nat} {lv lv' : LoopView η δ} (live : v.loop l = some lv)
    (same : lv'.queue = lv.queue) (k : Nat) (lk : LoopView η δ)
    (there : (v.setLoop l lv').loop k = some lk) :
    ∃ lk', v.loop k = some lk' ∧ lk.queue = lk'.queue := by
  rw [System.loop_setLoop live] at there
  split at there
  next here =>
    cases there
    exact ⟨lv, here ▸ live, same⟩
  next => exact ⟨lk, there, rfl⟩

theorem Drained.not_inLine {l : Nat} {exitEvt : Event δ} {queue : List EventPtr}
    {heap heap' : Store (Event δ)} {did : List (LoopSighting η δ)}
    (drained : Drained l exitEvt queue heap heap' did) (k : Nat) : lineOf did k = [] := by
  induction drained with
  | nil => rfl
  | exitEvt _ _ ih => exact ih
  | heap _ _ _ _ ih => exact ih

theorem LoopTransition.lined_step {trace did : List (LoopSighting η δ)} {v v' : Views η δ}
    (lined : Lined trace v) (transition : LoopTransition v did v') : Lined (trace ++ did) v' := by
  cases transition with
  | init =>
    have same (l : Nat) : lineOf (trace ++ [(.registered v.loops.length (mapKey exitEventType)
        (some .stub) : LoopSighting η δ)]) l = lineOf trace l := by
      rw [lineOf_append]
      exact List.append_nil _
    constructor
    · intro l
      rw [same]
      exact lined.orderly l
    · intro l lv live
      rw [System.loop_append (s := v) rfl] at live
      rw [same]
      split at live
      next here =>
        cases live
        rw [lined.new l here.ge]
        rfl
      next => exact lined.queue l lv live
    · intro l lv live
      rw [System.loop_append (s := v) rfl] at live
      rw [same]
      split at live
      next here =>
        rw [lined.new l here.ge]
        exact List.not_mem_nil
      next => exact lined.opened l lv live
    · intro l new
      rw [List.length_append, List.length_singleton] at new
      rw [same, lined.new l (by omega)]
  | @destroyed l lv heap did live unused drained =>
    -- the events that are deleted do not leave the line in its order: it is closed
    have drained := drained_of_drain drained
    refine lined.step live .closed ?_ (fun _ same => by cases same) ?_ List.length_set.symm
    · intro k
      rw [lineOf_append, drained.not_inLine]
      exact lineOf_single (fun _ => rfl) k
    · intro k lk there
      rw [System.loop_unset (s := v) rfl] at there
      split at there
      · cases there
      next other => exact .inr ⟨other, lk, there, rfl⟩
  | handlers live handlers =>
    exact lined.keep (fun _ => rfl) (same_setLoop live rfl) List.length_set.symm
  | registered live key deleter =>
    exact lined.keep (fun _ => rfl) (same_setLoop live rfl) List.length_set.symm
  | created type => exact lined.keep (fun _ => rfl) (fun _ lv live => ⟨lv, live, rfl⟩) rfl
  | @sent l lv evt event w live sendable urgent read set =>
    obtain ⟨loops, _⟩ := System.setDeleter_frame set
    have same : ((w.give evt).begin (.found l evt urgent)).loops = v.loops := by
      cases evt <;> exact loops
    refine lined.keep (fun _ => rfl) ?_ (congrArg List.length same.symm)
    exact fun k lk there => ⟨lk, loop_of_loops same k ▸ there, rfl⟩
  | @defaulted i l evt urgent event w there read set =>
    obtain ⟨loops, _⟩ := defaulted_frame set
    refine lined.keep (fun _ => rfl) ?_ (congrArg List.length loops.symm)
    exact fun k lk there => ⟨lk, loop_of_loops loops k ▸ there, rfl⟩
  | @queued i l evt urgent lv there live =>
    -- an urgent event goes to the front of the line, another to its back
    have joined : (if urgent then evt :: lv.queue else lv.queue ++ [evt]) =
        Line.after lv.queue (if urgent then .front evt else .back evt) := by
      cases urgent <;> rfl
    have still : (if urgent then .front evt else .back evt) ≠ (.closed : Line.Event EventPtr) := by
      cases urgent <;> simp
    refine lined.step live _ ?_ ?_ (line_setLoop live joined still) List.length_set.symm
    · exact lineOf_single fun _ => rfl
    · intro other same
      cases urgent <;> cases same
  | idle live empty => exact lined.keep (fun _ => rfl) (fun _ lv live => ⟨lv, live, rfl⟩) rfl
  | @left l lv evt rest event live front read exit =>
    refine lined.step live (.left evt) ?_ ?_ (line_setLoop live ?_ (by simp)) List.length_set.symm
    · intro k
      rw [← List.singleton_append, lineOf_append, lineOf_single (fun _ => rfl)]
      exact List.append_nil _
    · rintro other ⟨⟩
      rw [front, List.head?_cons]
    · rw [front, Line.after, List.tail_cons]
  | @taken l lv evt rest event live front read other =>
    refine lined.step live (.left evt) ?_ ?_ (line_setLoop live ?_ (by simp)) List.length_set.symm
    · exact lineOf_single fun _ => rfl
    · rintro other ⟨⟩
      rw [front, List.head?_cons]
    · rw [front, Line.after, List.tail_cons]
  | looked there handler => exact lined.keep (fun _ => rfl) (fun _ lv live => ⟨lv, live, rfl⟩) rfl
  | @handled i l evt handler there =>
    refine lined.keep ?_ (fun _ lv live => ⟨lv, live, rfl⟩) rfl
    cases handler <;> exact fun _ => rfl
  | @deleted i l evt event deleter w there read bound gone =>
    obtain ⟨loops, _⟩ := System.release_frame gone
    refine lined.keep (fun _ => rfl) ?_ (congrArg List.length loops.symm)
    exact fun k lk there => ⟨lk, loop_of_loops loops k ▸ there, rfl⟩

end AcosChat

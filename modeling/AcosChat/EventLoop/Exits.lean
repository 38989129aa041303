import AcosChat.EventLoop.Faultless

/-!
# What becomes of `EXIT_EVT`

Every `EXIT_EVT` that is sent to a loop waits in a call or in the queue until an iteration of
the loop takes it and returns `false`, or the destruction of the loop discards it. Its deleter
is the stub, and only the destruction calls it.
-/
namespace AcosChat

open Store Run EventLoop

variable {η δ : Type}

namespace EventLoop

def LoopSighting.sendsExit (l : Nat) : LoopSighting η δ → Bool
  | .sent k .exitEvt _ => k = l
  | _ => false

/-- An iteration returns `false`. -/
def LoopSighting.stops (l : Nat) : LoopSighting η δ → Bool
  | .returned k false => k = l
  | _ => false

def LoopSighting.discardsExit (l : Nat) : LoopSighting η δ → Bool
  | .deleted k .exitEvt _ => k = l
  | _ => false

def Stage.exits (l : Nat) (stage : Stage η) : Nat :=
  if stage.evt = .exitEvt ∧ stage.loop = l then 1 else 0

end EventLoop

def exitsIn (lv : Option (LoopView η δ)) : Nat :=
  match lv with
  | none => 0
  | some lv => lv.queue.count .exitEvt

/-- How many `EXIT_EVT`s are on their way to a loop or in its queue. -/
def waiting (v : Views η δ) (l : Nat) : Nat :=
  exitsIn (v.loop l) + (v.calls.map (Stage.exits l)).sum

def ExitsKept (trace : List (LoopSighting η δ)) (v : Views η δ) : Prop :=
  ∀ l, trace.countP (LoopSighting.sendsExit l) =
    trace.countP (LoopSighting.stops l) + trace.countP (LoopSighting.discardsExit l) + waiting v l

theorem ExitsKept.step {trace did : List (LoopSighting η δ)} {v v' : Views η δ} (kept : ExitsKept trace v)
    (change : ∀ l, did.countP (LoopSighting.sendsExit l) + waiting v l =
      did.countP (LoopSighting.stops l) + did.countP (LoopSighting.discardsExit l) + waiting v' l) :
    ExitsKept (trace ++ did) v' := by
  intro l
  have before := kept l
  have now := change l
  simp only [List.countP_append]
  omega

theorem sum_begin {v : Views η δ} (stage : Stage η) (f : Stage η → Nat) :
    ((v.begin stage).calls.map f).sum = (v.calls.map f).sum + f stage := by
  rw [System.begin, List.map_append, List.sum_append, List.map_singleton, List.sum_singleton]

theorem Stage.exits_eq (stage : Stage η) (l : Nat) :
    stage.exits l = if l = stage.loop then if stage.evt = .exitEvt then 1 else 0 else 0 := by
  simp only [Stage.exits, eq_comm]
  split <;> simp_all

theorem exitsIn_setLoop {v : Views η δ} {l : Nat} {lv : LoopView η δ} (live : v.loop l = some lv)
    (lv' : LoopView η δ) (k : Nat) : exitsIn ((v.setLoop l lv').loop k) =
      if k = l then lv'.queue.count .exitEvt else exitsIn (v.loop k) := by
  rw [System.loop_setLoop live]
  split <;> rfl

theorem waiting_setLoop {v : Views η δ} {l : Nat} {lv : LoopView η δ} (live : v.loop l = some lv)
    (lv' : LoopView η δ) (k : Nat) : waiting (v.setLoop l lv') k =
      (if k = l then lv'.queue.count .exitEvt else exitsIn (v.loop k)) +
        (v.calls.map (Stage.exits k)).sum := by
  rw [← exitsIn_setLoop live]
  rfl

theorem Drained.countP_eq {l : Nat} {exitEvt : Event δ} {queue : List EventPtr}
    {heap heap' : Store (Event δ)} {did : List (LoopSighting η δ)}
    (drained : Drained l exitEvt queue heap heap' did) (k : Nat) :
    did.countP (LoopSighting.sendsExit k) = 0 ∧ did.countP (LoopSighting.stops k) = 0 ∧
      did.countP (LoopSighting.discardsExit k) = if k = l then queue.count .exitEvt else 0 := by
  induction drained with
  | nil => simp
  | exitEvt _ _ ih =>
    obtain ⟨sends, stops, discards⟩ := ih
    simp only [List.countP_cons, sends, stops, discards, List.count_cons]
    simp only [LoopSighting.sendsExit, LoopSighting.stops, LoopSighting.discardsExit]
    by_cases here : k = l
    · simp [here]
    · simp [here, Ne.symm here]
  | heap _ _ _ _ ih =>
    obtain ⟨sends, stops, discards⟩ := ih
    simp only [List.countP_cons, sends, stops, discards, List.count_cons]
    simp [LoopSighting.sendsExit, LoopSighting.stops, LoopSighting.discardsExit]

theorem LoopTransition.exits_step {trace did : List (LoopSighting η δ)} {v v' : Views η δ} (typed : Typed v)
    (kept : ExitsKept trace v) (transition : LoopTransition v did v') : ExitsKept (trace ++ did) v' := by
  apply kept.step
  intro k
  cases transition with
  | init =>
    -- a new loop has an empty queue, and no call is about it yet
    have outside : v.loop v.loops.length = none := by
      rw [System.loop, List.getElem?_eq_none (Nat.le_refl _)]
      rfl
    rw [waiting, waiting, System.loop_append (s := v) (t := { v with loops := v.loops ++ [_] }) rfl]
    by_cases here : k = v.loops.length
    · rw [if_pos here, here, outside]
      rfl
    · rw [if_neg here]
      simp [LoopSighting.sendsExit, LoopSighting.stops, LoopSighting.discardsExit]
  | @destroyed l lv heap did live unused drained =>
    -- the destructor discards every `EXIT_EVT` that the queue still has
    obtain ⟨sends, stops, discards⟩ := (drained_of_drain drained).countP_eq k
    rw [List.countP_append, List.countP_append, List.countP_append, sends, stops, discards, waiting,
      waiting, System.loop_unset (s := v) (t := { v with heap := heap, loops := v.loops.set l none }) rfl]
    by_cases here : k = l
    · subst here
      simp [live, exitsIn, LoopSighting.sendsExit, LoopSighting.stops, LoopSighting.discardsExit]
    · simp [here, LoopSighting.sendsExit, LoopSighting.stops, LoopSighting.discardsExit]
  | @handlers l lv live handlers =>
    rw [waiting_setLoop live, waiting]
    by_cases here : k = l
    · simp [here, live, exitsIn]
    · simp [here]
  | @registered l lv live key deleter =>
    rw [waiting_setLoop live, waiting]
    by_cases here : k = l
    · simp [here, live, exitsIn, LoopSighting.sendsExit, LoopSighting.stops, LoopSighting.discardsExit]
    · simp [here, LoopSighting.sendsExit, LoopSighting.stops, LoopSighting.discardsExit]
  | created type => rfl
  | @sent l lv evt event w live sendable urgent read set =>
    obtain ⟨loops, calls, _⟩ := System.setDeleter_frame set
    have queues : ((w.give evt).begin (.found l evt urgent)).loop k = v.loop k := by
      apply loop_of_loops
      cases evt <;> exact loops
    have same : (w.give evt).calls = v.calls := by cases evt <;> exact calls
    rw [waiting, waiting, queues, sum_begin, same]
    cases evt with
    | exitEvt =>
      simp [LoopSighting.sendsExit, LoopSighting.stops, LoopSighting.discardsExit, Stage.exits, Stage.evt, Stage.loop]
      omega
    | heap a =>
      simp [LoopSighting.sendsExit, LoopSighting.stops, LoopSighting.discardsExit, Stage.exits, Stage.evt]
  | @defaulted i l evt urgent event w there read set =>
    obtain ⟨loops, calls, _⟩ := defaulted_frame set
    have queues : (w.setCall i (.ready l evt urgent)).loop k = v.loop k := loop_of_loops loops k
    obtain ⟨others, before, _, after⟩ := sum_at (Stage.exits k) there
    have now : ((w.setCall i (.ready l evt urgent)).calls.map (Stage.exits k)).sum =
        Stage.exits k (.ready l evt urgent : Stage η) + others := by
      rw [System.setCall, calls, after]
    rw [waiting, waiting, queues, now, before]
    rfl
  | @queued i l evt urgent lv there live =>
    -- the call ends and the queue has one more: the sum is the same
    obtain ⟨others, before, after, _⟩ := sum_at (Stage.exits k) there
    have more : (if urgent then evt :: lv.queue else lv.queue ++ [evt]).count .exitEvt =
        lv.queue.count .exitEvt + if evt = .exitEvt then 1 else 0 := by
      cases urgent <;> cases evt <;> simp
    have now : waiting ((v.setLoop l { lv with
        queue := if urgent then evt :: lv.queue else lv.queue ++ [evt] }).finish i) k =
        (if k = l then lv.queue.count .exitEvt + (if evt = .exitEvt then 1 else 0)
          else exitsIn (v.loop k)) + others := by
      have queue := exitsIn_setLoop live
        { lv with queue := if urgent then evt :: lv.queue else lv.queue ++ [evt] } k
      simp only [more] at queue
      rw [← queue, ← after]
      rfl
    rw [now, waiting, before, Stage.exits_eq]
    by_cases here : k = l
    · subst here
      cases evt <;> simp [live, exitsIn, Stage.evt, Stage.loop, LoopSighting.sendsExit, LoopSighting.stops,
        LoopSighting.discardsExit]
      omega
    · simp [here, Stage.loop, LoopSighting.sendsExit, LoopSighting.stops, LoopSighting.discardsExit]
  | idle live empty => simp [LoopSighting.sendsExit, LoopSighting.stops, LoopSighting.discardsExit]
  | @left l lv evt rest event live front read exit =>
    -- the type alone ends the iteration, and in a queue only `EXIT_EVT` has it
    have isExit : evt = .exitEvt := by
      cases evt with
      | exitEvt => rfl
      | heap a => exact absurd exit (typed l lv live a (front ▸ List.mem_cons_self) event read)
    subst isExit
    rw [waiting_setLoop live, waiting]
    by_cases here : k = l
    · subst here
      simp [live, exitsIn, front, LoopSighting.sendsExit, LoopSighting.stops, LoopSighting.discardsExit]
      omega
    · simp [here, Ne.symm here, LoopSighting.sendsExit, LoopSighting.stops, LoopSighting.discardsExit]
  | @taken l lv evt rest event live front read other =>
    have now : waiting ((v.setLoop l { lv with queue := rest }).begin (.popped l evt)) k =
        (if k = l then rest.count .exitEvt else exitsIn (v.loop k)) +
          ((v.calls.map (Stage.exits k)).sum + Stage.exits k (.popped l evt : Stage η)) := by
      rw [← sum_begin, ← exitsIn_setLoop live { lv with queue := rest }]
      rfl
    rw [now, waiting, Stage.exits_eq]
    by_cases here : k = l
    · subst here
      cases evt <;> simp [live, exitsIn, front, Stage.evt, Stage.loop, LoopSighting.sendsExit,
        LoopSighting.stops, LoopSighting.discardsExit]
      omega
    · simp [here, Stage.loop, LoopSighting.sendsExit, LoopSighting.stops, LoopSighting.discardsExit]
  | @looked i l evt there handler =>
    obtain ⟨others, before, _, after⟩ := sum_at (Stage.exits k) there
    rw [waiting, waiting, System.setCall, before, after]
    rfl
  | @handled i l evt handler there =>
    obtain ⟨others, before, _, after⟩ := sum_at (Stage.exits k) there
    rw [waiting, waiting, System.setCall, before, after]
    cases handler <;> simp [LoopSighting.sendsExit, LoopSighting.stops, LoopSighting.discardsExit] <;> rfl
  | @deleted i l evt event deleter w there read bound gone =>
    obtain ⟨loops, calls, _⟩ := System.release_frame gone
    obtain ⟨others, before, after, _⟩ := sum_at (Stage.exits k) there
    have queues : (w.finish i).loop k = v.loop k := loop_of_loops loops k
    have now : ((w.finish i).calls.map (Stage.exits k)).sum = others := by
      rw [System.finish, calls, after]
    rw [waiting, waiting, queues, now, before]
    cases evt with
    | exitEvt =>
      simp [List.countP_cons, LoopSighting.sendsExit, LoopSighting.stops, LoopSighting.discardsExit, Stage.exits,
        Stage.evt, Stage.loop]
      omega
    | heap a =>
      simp [LoopSighting.sendsExit, LoopSighting.stops, LoopSighting.discardsExit, Stage.exits, Stage.evt]

end AcosChat

import AcosChat.Lib.Run
import AcosChat.Server.SendMessage

/-!
# The order of the frames

The controller pushes the SEND_MESSAGE jobs of one broadcast after another to the queue that
all workers share. A worker takes the first job, and sends its frame later; `send_message`
sends a frame with one call of `send`. Which sockets are registered when an event is
handled is left open.
-/
namespace AcosChat

open Std Run

/-- An event in the queue of the workers; a job to send goes with the number of its broadcast. -/
inductive QueuedJob where
  | exit
  | process
  | send (number : Nat) (job : SendMessageJob)
deriving DecidableEq, Repr

/-- What a worker is at. -/
inductive WorkerHand where
  | idle
  /-- In `process_message_job_handler`. -/
  | processing
  /-- In `send_message_job_handler`, before its `send`. -/
  | sending (number : Nat) (job : SendMessageJob)
  /-- It has taken EXIT_EVT. -/
  | gone
deriving DecidableEq, Repr

structure Senders where
  /-- The jobs that the handler of the last broadcast has still to push. -/
  unpushed : List SendMessageJob
  /-- How many broadcasts have been handled. -/
  handled : Nat
  queue : List QueuedJob
  hands : List WorkerHand

/-- What is observed. -/
inductive SendSighting where
  | handled (number : Nat) (evt : Broadcast)
  | pushed (number : Nat) (job : SendMessageJob)
  | taken (number : Nat) (job : SendMessageJob)
  | sent (number : Nat) (frame : Effect)
deriving DecidableEq, Repr

namespace Senders

def init : Senders := ⟨[], 0, [], []⟩

/-- What a step leaves. -/
abbrev Result := Option (List SendSighting × Option Senders)

/-- `broadcast_message_event_handler` is called, with these sockets in `sid_to_uid`. -/
def handle (s : Senders) (evt : Broadcast) (sidToUid : KeyMap UInt64) : Result :=
  match s.unpushed with
  | [] =>
    some ([.handled s.handled evt],
      some { s with unpushed := broadcastJobs evt sidToUid, handled := s.handled + 1 })
  | _ :: _ => none

/-- `send_event` of `broadcast_message_callback`; the last broadcast is the one before the next. -/
def push (s : Senders) : Result :=
  match s.unpushed with
  | [] => none
  | job :: unpushed =>
    some ([.pushed (s.handled - 1) job],
      some { s with unpushed := unpushed, queue := s.queue ++ [.send (s.handled - 1) job] })

/-- `input_msg_event_handler` sends a job to process a message. -/
def offer (s : Senders) : Result := some ([], some { s with queue := s.queue ++ [.process] })

/-- `decrease_workers` -/
def order (s : Senders) : Result := some ([], some { s with queue := .exit :: s.queue })

/-- `run_worker` -/
def start (s : Senders) : Result := some ([], some { s with hands := s.hands ++ [.idle] })

/-- A worker takes the first event of the queue. -/
def take (s : Senders) (i : Nat) : Result :=
  match s.hands[i]?, s.queue with
  | some .idle, .exit :: queue => some ([], some { s with queue := queue, hands := s.hands.set i .gone })
  | some .idle, .process :: queue =>
    some ([], some { s with queue := queue, hands := s.hands.set i .processing })
  | some .idle, .send number job :: queue =>
    some ([.taken number job], some { s with queue := queue, hands := s.hands.set i (.sending number job) })
  | _, _ => none

/-- `process_message_job_handler` returns. -/
def finish (s : Senders) (i : Nat) : Result :=
  match s.hands[i]? with
  | some .processing => some ([], some { s with hands := s.hands.set i .idle })
  | _ => none

/-- `send_message_job_handler` sends its frame and returns; packing a null login crashes. -/
def send (s : Senders) (i : Nat) : Result :=
  match s.hands[i]? with
  | some (.sending number job) =>
    match sendMessageJobHandler job with
    | some frame => some ([.sent number frame], some { s with hands := s.hands.set i .idle })
    | none => some ([], none)
  | _ => none

end Senders

inductive SendAction where
  | handle (evt : Broadcast) (sidToUid : KeyMap UInt64)
  | push
  | offer
  | order
  | start
  | take (i : Nat)
  | finish (i : Nat)
  | send (i : Nat)

def sendStep : Step Senders SendAction SendSighting
  | s, .handle evt sidToUid => s.handle evt sidToUid
  | s, .push => s.push
  | s, .offer => s.offer
  | s, .order => s.order
  | s, .start => s.start
  | s, .take i => s.take i
  | s, .finish i => s.finish i
  | s, .send i => s.send i

/-- A worker is started only when no other one is left. -/
def OneWorker (s : Senders) : SendAction → Prop
  | .start => ∀ hand ∈ s.hands, hand = .gone
  | _ => True

/-! ### The orders -/

/-- The frame goes to the socket. -/
def Effect.sentTo (sid : Int32) : Effect → Bool
  | .sent sockid _ => sockid = sid
  | _ => false

/-- The frame of a broadcast has been sent to the socket. -/
def Sent (number : Nat) (sid : Int32) (trace : List SendSighting) : Prop :=
  ∃ frame : Effect, frame.sentTo sid = true ∧ .sent number frame ∈ trace

/-- A broadcast has made a job for the socket. -/
def Made (number : Nat) (sid : Int32) (trace : List SendSighting) : Prop :=
  ∃ job : SendMessageJob, job.sid = sid ∧ .pushed number job ∈ trace

/-- A worker has taken the job of a broadcast for the socket. -/
def Taken (number : Nat) (sid : Int32) (trace : List SendSighting) : Prop :=
  ∃ job : SendMessageJob, job.sid = sid ∧ .taken number job ∈ trace

/-- Jobs for the socket are taken in the order in which their broadcasts were handled. -/
def TakenInOrder (sid : Int32) (trace : List SendSighting) : Prop :=
  ∀ before after number job, trace = before ++ .taken number job :: after → job.sid = sid →
    ∀ earlier < number, Made earlier sid trace → Taken earlier sid before

/-- Frames for the socket are sent in the order in which their broadcasts were handled. -/
def SentInOrder (sid : Int32) (trace : List SendSighting) : Prop :=
  ∀ before after number frame, trace = before ++ .sent number frame :: after → frame.sentTo sid = true →
    ∀ earlier < number, Made earlier sid trace → Sent earlier sid before

/-- No frame for the socket is sent while a worker still holds the job of an earlier broadcast. -/
def NotOvertaken (sid : Int32) (trace : List SendSighting) : Prop :=
  Follows (fun before sight => ∀ number frame, sight = .sent number frame → frame.sentTo sid = true →
    ∀ earlier < number, ¬(Taken earlier sid before ∧ ¬Sent earlier sid before)) trace

/-! ### Transitions -/

/-- The jobs to send in the queue, with the numbers of their broadcasts. -/
def sends (queue : List QueuedJob) : List (Nat × SendMessageJob) :=
  queue.filterMap fun
    | .send number job => some (number, job)
    | .exit | .process => none

/-- The jobs that workers hold. -/
def heldBy (hands : List WorkerHand) : List (Nat × SendMessageJob) :=
  hands.filterMap fun
    | .sending number job => some (number, job)
    | .idle | .processing | .gone => none

/-- The number of the workers that have not taken EXIT_EVT. -/
def live (hands : List WorkerHand) : Nat := hands.countP (· ≠ .gone)

/-- The ways in which a step can leave a next state, as far as jobs to send are concerned. -/
inductive SendTransition (s : Senders) : SendAction → List SendSighting → Senders → Prop
  | handled (evt : Broadcast) (sidToUid : KeyMap UInt64) (none : s.unpushed = []) :
      SendTransition s (.handle evt sidToUid) [.handled s.handled evt]
        { s with unpushed := broadcastJobs evt sidToUid, handled := s.handled + 1 }
  | pushed (job : SendMessageJob) (unpushed : List SendMessageJob) (some : s.unpushed = job :: unpushed) :
      SendTransition s .push [.pushed (s.handled - 1) job]
        { s with unpushed := unpushed, queue := s.queue ++ [.send (s.handled - 1) job] }
  | other (action : SendAction) (queue : List QueuedJob) (hands : List WorkerHand)
      (sends : sends queue = sends s.queue) (held : heldBy hands = heldBy s.hands)
      (left : live hands ≤ live s.hands ∨ action = .start ∧ live hands = live s.hands + 1) :
      SendTransition s action [] { s with queue := queue, hands := hands }
  | taken (i number : Nat) (job : SendMessageJob) (queue : List QueuedJob) (before after : List WorkerHand)
      (first : s.queue = .send number job :: queue) (hands : s.hands = before ++ .idle :: after) :
      SendTransition s (.take i) [.taken number job]
        { s with queue := queue, hands := before ++ .sending number job :: after }
  | sent (i number : Nat) (job : SendMessageJob) (frame : Effect) (before after : List WorkerHand)
      (hands : s.hands = before ++ .sending number job :: after)
      (packed : sendMessageJobHandler job = some frame) :
      SendTransition s (.send i) [.sent number frame] { s with hands := before ++ .idle :: after }

theorem sendStep_transition {s s' : Senders} {action : SendAction} {did : List SendSighting}
    (taken : sendStep s action = some (did, some s')) : SendTransition s action did s' := by
  cases action with
  | handle evt sidToUid =>
    simp only [sendStep, Senders.handle] at taken
    split at taken
    next none =>
      cases taken
      exact .handled evt sidToUid none
    next => cases taken
  | push =>
    simp only [sendStep, Senders.push] at taken
    split at taken
    next => cases taken
    next job unpushed some =>
      cases taken
      exact .pushed job unpushed some
  | offer =>
    cases taken
    exact .other _ _ _ (by simp [sends]) rfl (.inl (Nat.le_refl _))
  -- The exits, and the jobs of clients, are none that send.
  | order =>
    cases taken
    exact .other _ _ _ rfl rfl (.inl (Nat.le_refl _))
  | start =>
    cases taken
    exact .other _ _ _ rfl (by simp [heldBy]) (.inr ⟨rfl, by simp [live]⟩)
  | take i =>
    simp only [sendStep, Senders.take] at taken
    split at taken
    next queue there first =>
      cases taken
      obtain ⟨before, after, hands, set⟩ := split_of_getElem? there .gone
      rw [set]
      exact .other _ _ _ (by simp [sends, first]) (by simp [heldBy, hands]) (.inl (by simp [live, hands]))
    next queue there first =>
      cases taken
      obtain ⟨before, after, hands, set⟩ := split_of_getElem? there .processing
      rw [set]
      exact .other _ _ _ (by simp [sends, first]) (by simp [heldBy, hands]) (.inl (by simp [live, hands]))
    next number job queue there first =>
      cases taken
      obtain ⟨before, after, hands, set⟩ := split_of_getElem? there (.sending number job)
      rw [set]
      exact .taken i number job queue before after first hands
    next => cases taken
  | finish i =>
    simp only [sendStep, Senders.finish] at taken
    split at taken
    next there =>
      cases taken
      obtain ⟨before, after, hands, set⟩ := split_of_getElem? there .idle
      rw [set]
      exact .other _ _ _ rfl (by simp [heldBy, hands]) (.inl (by simp [live, hands]))
    next => cases taken
  | send i =>
    simp only [sendStep, Senders.send] at taken
    split at taken
    next number job there =>
      split at taken
      next frame packed =>
        cases taken
        obtain ⟨before, after, hands, set⟩ := split_of_getElem? there .idle
        rw [set]
        exact .sent i number job frame before after hands packed
      next => cases taken
    next => cases taken

/-! ### First in, first out -/

/-- In which order jobs are pushed, taken and sent. -/
def ConveyOrder (before : List SendSighting) : SendSighting → Prop
  | .handled _ _ => True
  | .pushed number _ => ∀ other job, .taken other job ∈ before → other ≤ number
  | .taken number job => .pushed number job ∈ before ∧
      ∀ earlier < number, ∀ job', .pushed earlier job' ∈ before → .taken earlier job' ∈ before
  | .sent number frame => ∃ job : SendMessageJob, frame.sentTo job.sid = true ∧ .taken number job ∈ before

/-- What has been observed agrees with the queue and with what the workers hold. -/
structure Conveyed (trace : List SendSighting) (s : Senders) : Prop where
  order : Follows ConveyOrder trace
  started : s.unpushed ≠ [] → 0 < s.handled
  bounded : ∀ number job, .pushed number job ∈ trace → number < s.handled
  sorted : ((sends s.queue).map Prod.fst).Pairwise (· ≤ ·)
  queued : ∀ entry ∈ sends s.queue, .pushed entry.1 entry.2 ∈ trace
  waiting : ∀ number job, .pushed number job ∈ trace →
    .taken number job ∈ trace ∨ (number, job) ∈ sends s.queue
  holding : ∀ entry ∈ heldBy s.hands, .taken entry.1 entry.2 ∈ trace
  held : ∀ number job, .taken number job ∈ trace →
    Sent number job.sid trace ∨ (number, job) ∈ heldBy s.hands

/-- The frame of a job goes to the socket of the job. -/
theorem sentTo_sid {job : SendMessageJob} {frame : Effect} (packed : sendMessageJobHandler job = some frame) :
    frame.sentTo job.sid = true := by
  obtain ⟨tokens, _, same⟩ := Option.bind_eq_some_iff.mp packed
  cases same
  simp [Effect.sentTo]

theorem Sent.append {number : Nat} {sid : Int32} {trace : List SendSighting} (sent : Sent number sid trace)
    (did : List SendSighting) : Sent number sid (trace ++ did) := by
  obtain ⟨frame, goes, member⟩ := sent
  exact ⟨frame, goes, List.mem_append_left _ member⟩

namespace Conveyed

variable {trace did : List SendSighting} {s s' : Senders}

theorem init : Conveyed [] .init where
  order := follows_nil
  started := nofun
  bounded := nofun
  sorted := .nil
  queued := nofun
  waiting := nofun
  holding := nofun
  held := nofun

/-- A step in which no job to send is moved. -/
theorem idle (kept : Conveyed trace s)
    (calm : ∀ sight ∈ did, ∃ number evt, sight = .handled number evt)
    (started : s'.unpushed ≠ [] → 0 < s'.handled) (handled : s.handled ≤ s'.handled)
    (same : sends s'.queue = sends s.queue) (hands : heldBy s'.hands = heldBy s.hands) :
    Conveyed (trace ++ did) s' := by
  -- No job is pushed or taken.
  have pushes (number job) : .pushed number job ∉ did := by
    intro member
    obtain ⟨_, _, same⟩ := calm _ member
    cases same
  have takes (number job) : .taken number job ∉ did := by
    intro member
    obtain ⟨_, _, same⟩ := calm _ member
    cases same
  constructor
  · apply kept.order.append
    intro sight member before
    obtain ⟨number, evt, rfl⟩ := calm sight member
    trivial
  · exact started
  · intro number job member
    rw [List.mem_append, or_iff_left (pushes number job)] at member
    exact Nat.lt_of_lt_of_le (kept.bounded number job member) handled
  · rw [same]
    exact kept.sorted
  · rw [same]
    exact fun entry member => List.mem_append_left _ (kept.queued entry member)
  · intro number job member
    rw [List.mem_append, or_iff_left (pushes number job)] at member
    rw [List.mem_append, or_iff_left (takes number job), same]
    exact kept.waiting number job member
  · rw [hands]
    exact fun entry member => List.mem_append_left _ (kept.holding entry member)
  · intro number job member
    rw [List.mem_append, or_iff_left (takes number job)] at member
    rw [hands]
    exact (kept.held number job member).imp_left fun sent => sent.append did

theorem pushed (kept : Conveyed trace s) {job : SendMessageJob} {unpushed : List SendMessageJob}
    (some : s.unpushed = job :: unpushed) :
    Conveyed (trace ++ [.pushed (s.handled - 1) job])
      { s with unpushed := unpushed, queue := s.queue ++ [.send (s.handled - 1) job] } := by
  have started : 0 < s.handled := kept.started (by simp [some])
  have more : sends (s.queue ++ [.send (s.handled - 1) job]) = sends s.queue ++ [(s.handled - 1, job)] := by
    simp [sends]
  constructor
  · refine (follows_append_singleton trace _).mpr ⟨kept.order, ?_⟩
    -- A job that has been taken is of a broadcast that has been handled.
    intro other job' member
    obtain ⟨front, back, rfl⟩ := List.append_of_mem member
    have pushed := (kept.order front (.taken other job') back rfl).1
    have before := kept.bounded other job' (List.mem_append_left _ pushed)
    omega
  · exact fun _ => started
  · intro number job' member
    rw [List.mem_append, List.mem_singleton] at member
    rcases member with old | new
    · exact kept.bounded number job' old
    · cases new
      dsimp only
      omega
  · rw [more, List.map_append, List.pairwise_append]
    refine ⟨kept.sorted, by simp, ?_⟩
    intro number member last there
    obtain ⟨entry, inside, rfl⟩ := List.mem_map.mp member
    have before := kept.bounded _ _ (kept.queued entry inside)
    simp only [List.map_cons, List.map_nil, List.mem_singleton] at there
    omega
  · rw [more]
    intro entry member
    rw [List.mem_append, List.mem_singleton] at member
    rcases member with old | rfl
    · exact List.mem_append_left _ (kept.queued entry old)
    · simp
  · rw [more]
    intro number job' member
    rw [List.mem_append, List.mem_singleton] at member
    rcases member with old | new
    · rcases kept.waiting number job' old with taken | queued
      · exact .inl (List.mem_append_left _ taken)
      · exact .inr (List.mem_append_left _ queued)
    · cases new
      exact .inr (by simp)
  · exact fun entry member => List.mem_append_left _ (kept.holding entry member)
  · intro number job' member
    rw [List.mem_append, or_iff_left (by simp)] at member
    exact (kept.held number job' member).imp_left fun sent => sent.append _

theorem taken (kept : Conveyed trace s) {number : Nat} {job : SendMessageJob} {queue : List QueuedJob}
    {before after : List WorkerHand} (first : s.queue = .send number job :: queue)
    (hands : s.hands = before ++ .idle :: after) :
    Conveyed (trace ++ [.taken number job])
      { s with queue := queue, hands := before ++ .sending number job :: after } := by
  have front : sends s.queue = (number, job) :: sends queue := by simp [sends, first]
  have sorted := kept.sorted
  rw [front, List.map_cons, List.pairwise_cons] at sorted
  have more : heldBy (before ++ .sending number job :: after) = heldBy before ++ (number, job) :: heldBy after := by
    simp [heldBy]
  have less : heldBy s.hands = heldBy before ++ heldBy after := by simp [heldBy, hands]
  constructor
  · refine (follows_append_singleton trace _).mpr ⟨kept.order, kept.queued (number, job) (by simp [front]), ?_⟩
    -- The jobs of earlier broadcasts were in front of this one in the queue.
    intro earlier sooner job' pushed
    rcases kept.waiting earlier job' pushed with taken | queued
    · exact taken
    · rw [front, List.mem_cons] at queued
      rcases queued with same | later
      · cases same
        omega
      · have behind := sorted.1 earlier (List.mem_map.mpr ⟨(earlier, job'), later, rfl⟩)
        omega
  · exact kept.started
  · intro number' job' member
    rw [List.mem_append, or_iff_left (by simp)] at member
    exact kept.bounded number' job' member
  · exact sorted.2
  · intro entry member
    exact List.mem_append_left _ (kept.queued entry (by simp [front, member]))
  · intro number' job' member
    rw [List.mem_append, or_iff_left (by simp)] at member
    rcases kept.waiting number' job' member with taken | queued
    · exact .inl (List.mem_append_left _ taken)
    · rw [front, List.mem_cons] at queued
      rcases queued with same | later
      · cases same
        exact .inl (by simp)
      · exact .inr later
  · rw [more]
    intro entry member
    rw [List.mem_append, List.mem_cons] at member
    rcases member with old | rfl | old
    · exact List.mem_append_left _ (kept.holding entry (by simp [less, old]))
    · simp
    · exact List.mem_append_left _ (kept.holding entry (by simp [less, old]))
  · intro number' job' member
    rw [List.mem_append, List.mem_singleton] at member
    rw [more]
    rcases member with old | new
    · rcases kept.held number' job' old with sent | held
      · exact .inl (sent.append _)
      · rw [less, List.mem_append] at held
        refine .inr ?_
        rcases held with front | back
        · exact List.mem_append_left _ front
        · exact List.mem_append_right _ (List.mem_cons_of_mem _ back)
    · cases new
      exact .inr (by simp)

theorem sent (kept : Conveyed trace s) {number : Nat} {job : SendMessageJob} {frame : Effect}
    {before after : List WorkerHand} (hands : s.hands = before ++ .sending number job :: after)
    (packed : sendMessageJobHandler job = some frame) :
    Conveyed (trace ++ [.sent number frame]) { s with hands := before ++ .idle :: after } := by
  have more : heldBy s.hands = heldBy before ++ (number, job) :: heldBy after := by simp [heldBy, hands]
  have less : heldBy (before ++ .idle :: after) = heldBy before ++ heldBy after := by simp [heldBy]
  constructor
  -- The frame is that of a job that the worker has taken.
  · refine (follows_append_singleton trace _).mpr ⟨kept.order, job, sentTo_sid packed, ?_⟩
    exact kept.holding (number, job) (by simp [more])
  · exact kept.started
  · intro number' job' member
    rw [List.mem_append, or_iff_left (by simp)] at member
    exact kept.bounded number' job' member
  · exact kept.sorted
  · exact fun entry member => List.mem_append_left _ (kept.queued entry member)
  · intro number' job' member
    rw [List.mem_append, or_iff_left (by simp)] at member
    exact (kept.waiting number' job' member).imp_left fun taken => List.mem_append_left _ taken
  · rw [less]
    intro entry member
    refine List.mem_append_left _ (kept.holding entry ?_)
    rw [more]
    rcases List.mem_append.mp member with front | back
    · exact List.mem_append_left _ front
    · exact List.mem_append_right _ (List.mem_cons_of_mem _ back)
  · intro number' job' member
    rw [List.mem_append, or_iff_left (by simp)] at member
    rw [less]
    rcases kept.held number' job' member with sent | held
    · exact .inl (sent.append _)
    · rw [more, List.mem_append, List.mem_cons] at held
      rcases held with front | same | back
      · exact .inr (List.mem_append_left _ front)
      · -- This is the job whose frame is sent.
        cases same
        exact .inl ⟨frame, sentTo_sid packed, by simp⟩
      · exact .inr (List.mem_append_right _ back)

theorem step (kept : Conveyed trace s) {action : SendAction}
    (transition : SendTransition s action did s') : Conveyed (trace ++ did) s' := by
  cases transition with
  | handled evt sidToUid none =>
    exact kept.idle (by simp) (fun _ => Nat.succ_pos _) (Nat.le_succ _) rfl rfl
  | pushed job unpushed some => exact kept.pushed some
  | other action queue hands sends held => exact kept.idle nofun kept.started (Nat.le_refl _) sends held
  | taken i number job queue before after first hands => exact kept.taken first hands
  | sent i number job frame before after hands packed => exact kept.sent hands packed

theorem of_ran {cond : Senders → SendAction → Prop} (ran : Ran sendStep cond .init trace s) :
    Conveyed trace s := by
  induction ran with
  | start => exact init
  | step _ _ taken kept => exact kept.step (sendStep_transition taken)

end Conveyed

/-- The frame goes to one socket. -/
theorem sentTo_inj {frame : Effect} {sid sid' : Int32} (goes : frame.sentTo sid = true)
    (goes' : frame.sentTo sid' = true) : sid' = sid := by
  cases frame with
  | sent sockid msg =>
    simp only [Effect.sentTo, decide_eq_true_eq] at goes goes'
    exact goes'.symm.trans goes
  | loggedIn | broadcast | closeEvent | deleted => cases goes

namespace Conveyed

variable {trace : List SendSighting} {s : Senders}

theorem takenInOrder (kept : Conveyed trace s) (sid : Int32) : TakenInOrder sid trace := by
  rintro before after number job split _ earlier sooner ⟨job', goes, pushed⟩
  rw [split, List.mem_append, List.mem_cons] at pushed
  rcases pushed with old | same | late
  · exact ⟨job', goes, (kept.order before _ after split).2 earlier sooner job' old⟩
  · cases same
  · -- After a job has been taken, no earlier broadcast makes one.
    obtain ⟨front, back, rfl⟩ := List.append_of_mem late
    have behind := kept.order (before ++ .taken number job :: front) (.pushed earlier job') back (by simp [split])
    have wrong := behind number job (by simp)
    omega

/-- A job that has been taken has been made. -/
theorem made_of_taken (kept : Conveyed trace s) {number : Nat} {sid : Int32} {before after : List SendSighting}
    (split : trace = before ++ after) (taken : Taken number sid before) : Made number sid trace := by
  obtain ⟨job, goes, member⟩ := taken
  obtain ⟨front, back, rfl⟩ := List.append_of_mem member
  have pushed := (kept.order front (.taken number job) (back ++ after) (by simp [split])).1
  exact ⟨job, goes, by simp [split, pushed]⟩

/-- When a frame is sent, the jobs of the earlier broadcasts have been taken. -/
theorem taken_of_sent (kept : Conveyed trace s) {before after : List SendSighting} {number earlier : Nat}
    {frame : Effect} {sid : Int32} (split : trace = before ++ .sent number frame :: after)
    (goes : frame.sentTo sid = true) (sooner : earlier < number) (made : Made earlier sid trace) :
    Taken earlier sid before := by
  obtain ⟨job, goes', member⟩ := kept.order before (.sent number frame) after split
  obtain ⟨front, back, rfl⟩ := List.append_of_mem member
  obtain ⟨job', same, taken⟩ := kept.takenInOrder sid front (back ++ .sent number frame :: after) number job
    (by simp [split]) (sentTo_inj goes goes') earlier sooner made
  exact ⟨job', same, List.mem_append_left _ taken⟩

theorem sentInOrder_iff (kept : Conveyed trace s) (sid : Int32) :
    SentInOrder sid trace ↔ NotOvertaken sid trace := by
  constructor
  · rintro ordered before _ after split number frame rfl goes earlier sooner ⟨taken, unsent⟩
    exact unsent (ordered before after number frame split goes earlier sooner (kept.made_of_taken split taken))
  · intro none before after number frame split goes earlier sooner made
    by_contra unsent
    exact none before _ after split number frame rfl goes earlier sooner
      ⟨kept.taken_of_sent split goes sooner made, unsent⟩

end Conveyed

/-! ### One worker -/

/-- There is one worker at most, and it sends what it takes before it takes the next. -/
structure Alone (trace : List SendSighting) (s : Senders) : Prop where
  one : live s.hands ≤ 1
  notOvertaken : ∀ sid, NotOvertaken sid trace

theorem heldBy_eq_nil {hands : List WorkerHand} (none : live hands = 0) : heldBy hands = [] := by
  rw [live, List.countP_eq_zero] at none
  rw [heldBy, List.filterMap_eq_nil_iff]
  intro hand member
  have gone : hand = .gone := by simpa using none hand member
  rw [gone]

/-- If one worker is left and holds a job, no other job is held. -/
theorem heldBy_of_live {before after : List WorkerHand} {number : Nat} {job : SendMessageJob}
    (one : live (before ++ .sending number job :: after) ≤ 1) :
    heldBy (before ++ .sending number job :: after) = [(number, job)] := by
  have total : live (before ++ .sending number job :: after) = live before + (live after + 1) := by
    simp [live]
  have split : heldBy (before ++ .sending number job :: after) =
      heldBy before ++ (number, job) :: heldBy after := by simp [heldBy]
  rw [split, heldBy_eq_nil (by omega), heldBy_eq_nil (by omega), List.nil_append]

theorem Alone.of_ran {trace : List SendSighting} {s : Senders} (ran : Ran sendStep OneWorker .init trace s) :
    Alone trace s := by
  induction ran with
  | start => exact ⟨Nat.zero_le _, fun _ => follows_nil⟩
  | step before met taken alone =>
    have kept := Conveyed.of_ran before
    obtain ⟨one, notOvertaken⟩ := alone
    cases sendStep_transition taken with
    | handled => exact ⟨one, fun sid => (notOvertaken sid).append (by simp)⟩
    | pushed => exact ⟨one, fun sid => (notOvertaken sid).append (by simp)⟩
    | other _ queue hands sends held left =>
      refine ⟨?_, fun sid => (notOvertaken sid).append nofun⟩
      rcases left with fewer | ⟨rfl, more⟩
      · exact Nat.le_trans fewer one
      · -- The worker that is started is the only one.
        have none : live _ = 0 := List.countP_eq_zero.mpr fun hand member => by simpa using met hand member
        dsimp only
        omega
    | taken i number job queue before after first hands =>
      refine ⟨?_, fun sid => (notOvertaken sid).append (by simp)⟩
      rw [hands] at one
      simpa [live, List.countP_cons] using one
    | sent i number job frame before after hands packed =>
      constructor
      · rw [hands] at one
        simpa [live, List.countP_cons] using one
      · intro sid
        refine (follows_append_singleton _ _).mpr ⟨notOvertaken sid, ?_⟩
        rintro _ _ ⟨⟩ goes earlier sooner ⟨⟨job', rfl, taken⟩, unsent⟩
        -- what was taken earlier and not sent would be with a second worker
        rcases kept.held earlier job' taken with sent | held
        · exact unsent sent
        · rw [hands] at one held
          rw [heldBy_of_live one, List.mem_singleton] at held
          cases held
          omega

/-- In every run the workers take the jobs for a socket in the order of the broadcasts, and the
frames are sent in this order just when no frame is sent while a worker still holds the job
of an earlier broadcast for the socket; with one worker they always are. -/
theorem frames_in_order {trace : List SendSighting} {s : Senders}
    (ran : Ran sendStep (fun _ _ => True) .init trace s) :
    (∀ sid, TakenInOrder sid trace) ∧ (∀ sid, SentInOrder sid trace ↔ NotOvertaken sid trace) ∧
    (Ran sendStep OneWorker .init trace s → ∀ sid, SentInOrder sid trace) := by
  have kept := Conveyed.of_ran ran
  refine ⟨kept.takenInOrder, kept.sentInOrder_iff, fun alone sid => ?_⟩
  exact (kept.sentInOrder_iff sid).mpr ((Alone.of_ran alone).notOvertaken sid)

/-! ### Two runs -/

/-- The map with socket 5. -/
def onlyFive : KeyMap UInt64 := (∅ : KeyMap UInt64).insertIfNew 5 none

/-- Two messages, each of which makes a job for socket 5. -/
def twoMessages : List SendAction :=
  [.handle ⟨1, 109, none, [97], 0⟩ onlyFive, .push, .handle ⟨2, 109, none, [98], 0⟩ onlyFive, .push]

/-- One worker sends both. -/
def oneWorker : List SendAction := .start :: twoMessages ++ [.take 0, .send 0, .take 0, .send 0]

theorem frames_in_order_oneWorker : ∃ trace s, replay sendStep .init oneWorker = some (trace, s) ∧
    SentInOrder 5 trace := by
  have ran : ∃ trace s, replay sendStep .init oneWorker = some (trace, s) := ⟨_, _, rfl⟩
  obtain ⟨trace, s, replayed⟩ := ran
  have meets : Meets sendStep OneWorker .init oneWorker := by
    refine ⟨nofun, trivial, trivial, trivial, trivial, trivial, trivial, trivial, trivial, trivial⟩
  have free := ran_of_replay (meets_of_forall (fun _ _ => trivial) Senders.init oneWorker) replayed
  exact ⟨trace, s, replayed, (frames_in_order free).2.2 (ran_of_replay meets replayed) 5⟩

/-- Two workers take a job each, and the second one sends first. -/
def overtaking : List SendAction :=
  [.start, .start] ++ twoMessages ++ [.take 0, .take 1, .send 1, .send 0]

/-- The second message goes out before the first. -/
theorem frames_overtake : ¬∀ (trace : List SendSighting) (s : Senders),
    Ran sendStep (fun _ _ => True) .init trace s → ∀ sid, SentInOrder sid trace := by
  intro claim
  have ran : ∃ trace s after, replay sendStep .init overtaking = some (trace, s) ∧
      .pushed 0 ⟨5, 1, 109, none, [97]⟩ ∈ trace ∧
      trace = [.handled 0 ⟨1, 109, none, [97], 0⟩, .pushed 0 ⟨5, 1, 109, none, [97]⟩,
        .handled 1 ⟨2, 109, none, [98], 0⟩, .pushed 1 ⟨5, 2, 109, none, [98]⟩,
        .taken 0 ⟨5, 1, 109, none, [97]⟩, .taken 1 ⟨5, 2, 109, none, [98]⟩] ++
        .sent 1 (.sent 5 ⟨109, [.int64 2, cStr [98]]⟩) :: after :=
    ⟨_, _, _, rfl, .tail _ (.head _), rfl⟩
  obtain ⟨trace, s, after, replayed, pushed, split⟩ := ran
  have ordered := claim trace s (ran_of_replay (meets_of_forall (fun _ _ => trivial) _ _) replayed) 5
  obtain ⟨frame, _, sent⟩ := ordered _ _ _ _ split (by decide) 0 (by decide) ⟨_, rfl, pushed⟩
  simp at sent

end AcosChat

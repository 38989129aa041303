import AcosChat.ConnMgr.Stages
import AcosChat.Lib.Run
import AcosChat.Server.SendMessage
import Mathlib.Data.List.Infix

/-!
# A broadcast and the calls beside it

`broadcast_message_event_handler` goes over `sid_to_uid` under the mutex of the map, while
other threads are inside `conn_mgr_add_sid`, `conn_mgr_add_uid`, `conn_mgr_del_sid` or
`conn_mgr_connect_sid_uid`. A call counts as begun when it has got `mgr->mutex`, and as
completed with its operation on `sid_to_uid`. The INSERT of the handler comes before it goes
over the map and does not concern it.
-/
namespace AcosChat

open Std Run

/-- The event that the controller handles. -/
structure Handling where
  number : Nat
  evt : Broadcast
  /-- `ts_map_forall` has returned. -/
  walked : Bool

structure BroadcastState where
  mgr : ConnMgr
  /-- The call that holds `mgr->mutex`. -/
  holder : Option CallStage
  handling : Option Handling
  /-- How many events have been taken. -/
  taken : Nat

/-- What is observed; events have numbers in the order in which they are handled. -/
inductive MapSighting where
  | adds (sid : Int32)
  | added (sid : Int32)
  | deletes (sid : Int32)
  | deleted (sid : Int32)
  /-- `conn_mgr_connect_sid_uid` has erased the socket, and is to insert it again. -/
  | takenOut (sid : Int32)
  | putBack (sid : Int32)
  | entered (number : Nat) (evt : Broadcast)
  | walked (number : Nat)
  | job (number : Nat) (job : SendMessageJob)
  | returned (number : Nat)
deriving DecidableEq, Repr

/-- The sighting is of a call, not of a handler. -/
def MapSighting.ofCall : MapSighting → Bool
  | .adds _ | .added _ | .deletes _ | .deleted _ | .takenOut _ | .putBack _ => true
  | .entered _ _ | .walked _ | .job _ _ | .returned _ => false

/-- What is observed as a call begins. -/
def MgrCall.begun : MgrCall → List MapSighting
  | .addSid sid => [.adds sid]
  | .delSid sid => [.deletes sid]
  | .addUid _ | .connectSidUid _ _ => []

/-- What is observed of an operation. -/
def CallStage.seen : CallStage → List MapSighting
  | .insertSid sid => [.added sid]
  | .erase sid none => [.deleted sid]
  | .erase sid (some _) => [.takenOut sid]
  | .insert sid _ => [.putBack sid]
  | .insertUid _ | .has _ _ | .find _ _ _ | .forget _ _ _ | .findNew _ _ | .join _ _ | .unlock => []

namespace BroadcastState

/-- No socket is registered, and some uids may be. -/
def init (uidToSid : KeyMap Sessions) : BroadcastState := ⟨⟨∅, uidToSid⟩, none, none, 0⟩

/-- What a step leaves. -/
abbrev Result := Option (List MapSighting × Option BroadcastState)

/-- LOCK at the beginning of a call. -/
def enter (s : BroadcastState) (call : MgrCall) : Result :=
  match s.holder with
  | none => some (call.begun, some { s with holder := some call.entry })
  | some _ => none

/-- The next operation of the call, or its UNLOCK. -/
def advance (s : BroadcastState) : Result :=
  match s.holder with
  | none => none
  | some .unlock => some ([], some { s with holder := none })
  | some stage =>
    let (mgr, next) := stage.advance s.mgr
    some (stage.seen, some { s with mgr := mgr, holder := some next })

/-- `broadcast_message_event_handler` is called. -/
def handle (s : BroadcastState) (evt : Broadcast) : Result :=
  match s.handling with
  | none =>
    some ([.entered s.taken evt], some { s with handling := some ⟨s.taken, evt, false⟩, taken := s.taken + 1 })
  | some _ => none

/-- `ts_map_forall` of the handler. -/
def walk (s : BroadcastState) : Result :=
  match s.handling with
  | some ⟨number, evt, false⟩ =>
    some (.walked number :: (broadcastJobs evt s.mgr.sidToUid).map (.job number),
      some { s with handling := some ⟨number, evt, true⟩ })
  | _ => none

/-- The handler returns. -/
def back (s : BroadcastState) : Result :=
  match s.handling with
  | some ⟨number, _, true⟩ => some ([.returned number], some { s with handling := none })
  | _ => none

end BroadcastState

inductive BroadcastAction where
  | enter (call : MgrCall)
  | advance
  | handle (evt : Broadcast)
  | walk
  | back
deriving DecidableEq, Repr

def broadcastStep : Step BroadcastState BroadcastAction MapSighting
  | s, .enter call => s.enter call
  | s, .advance => s.advance
  | s, .handle evt => s.handle evt
  | s, .walk => s.walk
  | s, .back => s.back

/-! ### What the trace says of a socket -/

inductive SocketStatus where
  | absent
  /-- Inside `conn_mgr_add_sid`. -/
  | adding
  | present
  /-- Inside `conn_mgr_connect_sid_uid`, between the erase and the insert. -/
  | moving
  /-- Inside `conn_mgr_del_sid`. -/
  | removing
deriving DecidableEq, Repr

/-- The socket has been added, and not begun to be removed. -/
def SocketStatus.registered : SocketStatus → Bool
  | .present | .moving => true
  | .absent | .adding | .removing => false

/-- The status of a socket after one more sighting. -/
def SocketStatus.after (sid : Int32) (status : SocketStatus) : MapSighting → SocketStatus
  -- A socket that is registered stays so while it is added again.
  | .adds s => if s = sid ∧ status = .absent then .adding else status
  | .added s | .putBack s => if s = sid then .present else status
  | .deletes s => if s = sid then .removing else status
  | .deleted s => if s = sid then .absent else status
  | .takenOut s => if s = sid then .moving else status
  | .entered _ _ | .walked _ | .job _ _ | .returned _ => status

def statusOf (sid : Int32) (trace : List MapSighting) : SocketStatus :=
  trace.foldl (SocketStatus.after sid) .absent

/-- A property of the socket's status holds from the end of the one trace to the end of the other. -/
def Throughout (sid : Int32) (holds : SocketStatus → Prop) (before during : List MapSighting) : Prop :=
  ∀ front, front <+: during → holds (statusOf sid (before ++ front))

/-- The SEND_MESSAGE jobs that an event has made for a socket. -/
def jobsFor (number : Nat) (sid : Int32) (trace : List MapSighting) : List SendMessageJob :=
  trace.filterMap fun
    | .job n job => if n = number ∧ job.sid = sid then some job else none
    | _ => none

/-! ### The maps and the trace -/

/-- What the call that holds the mutex is going to do to `sid_to_uid`. -/
inductive Pending where
  | nothing
  | inserts
  | erases
  | takesOut
  | putsBack
deriving DecidableEq, Repr

def CallStage.pending (sid : Int32) : CallStage → Pending
  | .insertSid s => if s = sid then .inserts else .nothing
  | .erase s none => if s = sid then .erases else .nothing
  | .erase s (some _) => if s = sid then .takesOut else .nothing
  | .find s _ (some _) | .forget s _ (some _) | .insert s _ => if s = sid then .putsBack else .nothing
  | .find _ _ none | .forget _ _ none | .insertUid _ | .has _ _ | .findNew _ _ | .join _ _ | .unlock => .nothing

def BroadcastState.pending (s : BroadcastState) (sid : Int32) : Pending :=
  match s.holder with
  | none => .nothing
  | some stage => stage.pending sid

/-- What the status of a socket says of `sid_to_uid` and of the call that holds the mutex. -/
def SocketStatus.Fits (sid : Int32) (s : BroadcastState) : SocketStatus → Prop
  | .absent => wordOfInt sid ∉ s.mgr.sidToUid ∧ s.pending sid = .nothing
  | .adding => wordOfInt sid ∉ s.mgr.sidToUid ∧ s.pending sid = .inserts
  | .present => wordOfInt sid ∈ s.mgr.sidToUid ∧
      (s.pending sid = .nothing ∨ s.pending sid = .inserts ∨ s.pending sid = .takesOut)
  | .moving => wordOfInt sid ∉ s.mgr.sidToUid ∧ s.pending sid = .putsBack
  | .removing => s.pending sid = .erases

/-- The socket is a key after it has been erased or inserted. -/
theorem mem_erase_wordOfInt {m : KeyMap UInt64} {sid s : Int32} :
    wordOfInt sid ∈ m.erase (wordOfInt s) ↔ s ≠ sid ∧ wordOfInt sid ∈ m := by
  rw [ExtTreeMap.mem_erase, ne_eq, Std.compare_eq_iff_eq, wordOfInt_inj]

theorem mem_insertIfNew_wordOfInt {m : KeyMap UInt64} {sid s : Int32} {value : Option UInt64} :
    wordOfInt sid ∈ m.insertIfNew (wordOfInt s) value ↔ s = sid ∨ wordOfInt sid ∈ m := by
  rw [ExtTreeMap.mem_insertIfNew, Std.compare_eq_iff_eq, wordOfInt_inj]

/-- The socket is still to be put back while it is taken out of the set of its old uid. -/
theorem CallStage.pending_takenOut (sid s uid : Int32) (next : Option Int32) :
    (takenOut s next).pending sid = (find s uid next).pending sid := by
  cases next <;> rfl

namespace SocketStatus.Fits

variable {sid : Int32} {s s' : BroadcastState} {status : SocketStatus}

/-- Nothing changes for the socket. -/
theorem moved (fits : status.Fits sid s)
    (same : wordOfInt sid ∈ s'.mgr.sidToUid ↔ wordOfInt sid ∈ s.mgr.sidToUid)
    (pending : s'.pending sid = s.pending sid) : status.Fits sid s' := by
  cases status <;> simpa only [Fits, same, pending] using fits

/-- A call gets the mutex. -/
theorem enter (fits : status.Fits sid s) (free : s.holder = none) (call : MgrCall) :
    (call.begun.foldl (after sid) status).Fits sid { s with holder := some call.entry } := by
  have idle : s.pending sid = .nothing := by rw [BroadcastState.pending, free]
  -- A status under which a call is on the way is not possible.
  cases status with
  | adding | moving =>
    simp only [Fits, idle, reduceCtorEq, and_false] at fits
  | removing => simp only [Fits, idle, reduceCtorEq] at fits
  | absent | present =>
    cases call with
    | addSid s' =>
      by_cases same : s' = sid
      · simpa [MgrCall.begun, MgrCall.entry, after, Fits, same, BroadcastState.pending, CallStage.pending]
          using fits.1
      · simpa [MgrCall.begun, MgrCall.entry, after, Fits, same, BroadcastState.pending, CallStage.pending]
          using fits.1
    | delSid s' =>
      by_cases same : s' = sid
      · simp [MgrCall.begun, MgrCall.entry, after, Fits, same, BroadcastState.pending, CallStage.pending]
      · simpa [MgrCall.begun, MgrCall.entry, after, Fits, same, BroadcastState.pending, CallStage.pending]
          using fits.1
    | addUid | connectSidUid =>
      simpa [MgrCall.begun, MgrCall.entry, Fits, BroadcastState.pending, CallStage.pending] using fits.1

/-- The call that holds the mutex does its next operation. -/
theorem advance (fits : status.Fits sid s) {stage : CallStage} (held : s.holder = some stage) :
    (stage.seen.foldl (after sid) status).Fits sid
      { s with mgr := (stage.advance s.mgr).1, holder := some (stage.advance s.mgr).2 } := by
  have pending : s.pending sid = stage.pending sid := by rw [BroadcastState.pending, held]
  cases stage with
  | insertSid s' =>
    by_cases same : s' = sid
    · subst same
      simp [CallStage.seen, CallStage.advance, after, Fits, BroadcastState.pending, CallStage.pending,
        ConnMgr.addSid]
    · rw [CallStage.pending, if_neg same] at pending
      simp only [CallStage.seen, List.foldl_cons, List.foldl_nil, after, if_neg same]
      refine fits.moved ?_ pending.symm
      rw [CallStage.advance, ConnMgr.addSid, mem_insertIfNew_wordOfInt, or_iff_right same]
  | insertUid => exact fits.moved .rfl pending.symm
  | has s' uid =>
    by_cases same : s' = sid
    · subst same
      rw [CallStage.pending] at pending
      cases status with
      | adding | moving => simp only [Fits, pending, reduceCtorEq, and_false] at fits
      | removing => simp only [Fits, pending, reduceCtorEq] at fits
      | absent =>
        -- A socket that is not registered is not connected.
        have missing : s.mgr.sidToUid.contains (wordOfInt s') = false := by
          rw [Bool.eq_false_iff, ne_eq, ExtTreeMap.contains_iff_mem]
          exact fits.1
        simp only [CallStage.advance, missing]
        exact fits.moved .rfl pending.symm
      | present =>
        have there : s.mgr.sidToUid.contains (wordOfInt s') = true := by simpa using fits.1
        simp only [CallStage.advance, there]
        exact ⟨fits.1, .inr (.inr (by simp [BroadcastState.pending, CallStage.pending]))⟩
    · refine fits.moved .rfl ?_
      rw [pending, CallStage.advance]
      dsimp only [BroadcastState.pending]
      split
      next => rw [CallStage.pending, if_neg same, CallStage.pending]
      next => rfl
  -- With this the socket is out of the map, for good or until it is inserted again.
  | erase s' next =>
    by_cases same : s' = sid
    · subst same
      cases next <;>
        simp [CallStage.seen, CallStage.advance, after, Fits, BroadcastState.pending, CallStage.pending]
    · have kept : wordOfInt sid ∈ s.mgr.sidToUid.erase (wordOfInt s') ↔ wordOfInt sid ∈ s.mgr.sidToUid := by
        rw [mem_erase_wordOfInt, and_iff_right same]
      cases next with
      | none =>
        simp only [CallStage.seen, List.foldl_cons, List.foldl_nil, after, if_neg same]
        apply fits.moved kept
        rw [pending, CallStage.pending, if_neg same]
        rfl
      | some uid =>
        simp only [CallStage.seen, List.foldl_cons, List.foldl_nil, after, if_neg same]
        apply fits.moved kept
        rw [pending, CallStage.pending, if_neg same, CallStage.advance]
        dsimp only [BroadcastState.pending]
        rw [CallStage.pending, if_neg same]
  | find s' uid next =>
    refine fits.moved .rfl ?_
    rw [pending, CallStage.advance]
    dsimp only [BroadcastState.pending]
    split
    next => cases next <;> rfl
    next => exact CallStage.pending_takenOut sid s' uid next
  | forget s' uid next =>
    apply fits.moved (by simp [CallStage.advance])
    rw [pending]
    exact (CallStage.pending_takenOut sid s' uid next).trans (by cases next <;> rfl)
  -- And here it comes back.
  | insert s' uid =>
    by_cases same : s' = sid
    · subst same
      simp [CallStage.seen, CallStage.advance, after, Fits, BroadcastState.pending, CallStage.pending]
    · rw [CallStage.pending, if_neg same] at pending
      simp only [CallStage.seen, List.foldl_cons, List.foldl_nil, after, if_neg same]
      refine fits.moved ?_ pending.symm
      rw [CallStage.advance, mem_insertIfNew_wordOfInt, or_iff_right same]
  | findNew s' uid =>
    refine fits.moved .rfl ?_
    rw [pending, CallStage.advance]
    dsimp only [BroadcastState.pending]
    split <;> rfl
  | join s' uid => exact fits.moved (by simp [CallStage.advance]) pending.symm
  | unlock => exact fits.moved .rfl pending.symm

end SocketStatus.Fits

/-! ### One walk for each event -/

/-- In which order the handler of an event is observed. -/
def HandlerOrder (before : List MapSighting) : MapSighting → Prop
  | .entered number _ => ∀ evt, .entered number evt ∉ before
  | .walked number => (∃ evt, .entered number evt ∈ before) ∧ .walked number ∉ before
  | .returned number => .walked number ∈ before
  | _ => True

/-- What the status of a socket at the walk says of the jobs of the event. -/
def Reached (number : Nat) (evt : Broadcast) (sid : Int32) (trace : List MapSighting) :
    SocketStatus → Prop
  | .present => jobsFor number sid trace = [broadcastMessageCallback evt (wordOfInt sid)]
  | .absent | .adding | .moving => jobsFor number sid trace = []
  | .removing => True

/-- What has been observed agrees with the maps, and every walk has made its jobs. -/
structure Chronicle (trace : List MapSighting) (s : BroadcastState) : Prop where
  order : Follows HandlerOrder trace
  sockets : ∀ key ∈ s.mgr.sidToUid, ∃ sid, key = wordOfInt sid
  fits : ∀ sid, (statusOf sid trace).Fits sid s
  entered : ∀ number evt, .entered number evt ∈ trace → number < s.taken
  handling : ∀ number evt walked, s.handling = some ⟨number, evt, walked⟩ →
    .entered number evt ∈ trace ∧ (.walked number ∈ trace ↔ walked = true)
  jobs : ∀ number job, .job number job ∈ trace → .walked number ∈ trace
  reached : ∀ front back number, trace = front ++ .walked number :: back →
    ∃ evt, .entered number evt ∈ front ∧ ∀ sid, Reached number evt sid trace (statusOf sid front)

theorem jobsFor_append (number : Nat) (sid : Int32) (trace did : List MapSighting) :
    jobsFor number sid (trace ++ did) = jobsFor number sid trace ++ jobsFor number sid did :=
  List.filterMap_append

theorem jobsFor_eq_nil {number : Nat} {sid : Int32} {trace : List MapSighting}
    (none : ∀ job, .job number job ∉ trace) : jobsFor number sid trace = [] := by
  rw [jobsFor, List.filterMap_eq_nil_iff]
  intro sight member
  cases sight with
  | job number' job =>
    apply if_neg
    rintro ⟨rfl, _⟩
    exact none job member
  | adds | added | deletes | deleted | takenOut | putBack | entered | walked | returned => rfl

theorem statusOf_append (sid : Int32) (trace did : List MapSighting) :
    statusOf sid (trace ++ did) = did.foldl (SocketStatus.after sid) (statusOf sid trace) :=
  List.foldl_append

/-- A sighting that is not among the last ones is among the others. -/
theorem split_of_notMem {trace did front back : List MapSighting} {sight : MapSighting}
    (other : sight ∉ did) (split : trace ++ did = front ++ sight :: back) :
    ∃ back', trace = front ++ sight :: back' := by
  rcases List.append_eq_append_iff.mp split with ⟨late, rfl, rfl⟩ | ⟨rest, rfl, same⟩
  · exact absurd (by simp) other
  · cases rest with
    | nil =>
      rw [List.nil_append] at same
      exact absurd (by simp [← same]) other
    | cons sight' rest =>
      cases same
      exact ⟨rest, rfl⟩

/-- The keys that stand for a socket, in the order of the walk. -/
theorem keys_filter {m : KeyMap UInt64} (sockets : ∀ key ∈ m, ∃ sid, key = wordOfInt sid) (sid : Int32) :
    m.keys.filter (fun key => intOfWord key = sid) = if wordOfInt sid ∈ m then [wordOfInt sid] else [] := by
  have alike : m.keys.filter (fun key => intOfWord key = sid) = m.keys.filter (· = wordOfInt sid) := by
    apply List.filter_congr
    intro key member
    obtain ⟨sid', rfl⟩ := sockets key (ExtTreeMap.mem_keys.mp member)
    simp
  have different : m.keys.Nodup := ExtTreeMap.nodup_keys
  rw [alike, List.filter_eq]
  split
  next inside => rw [List.count_eq_one_of_mem different (ExtTreeMap.mem_keys.mpr inside)]; rfl
  next outside => rw [List.count_eq_zero_of_not_mem fun member => outside (ExtTreeMap.mem_keys.mp member)]; rfl

/-- A walk makes one job for each socket of the map. -/
theorem jobsFor_broadcastJobs {m : KeyMap UInt64} (sockets : ∀ key ∈ m, ∃ sid, key = wordOfInt sid)
    (number : Nat) (evt : Broadcast) (sid : Int32) :
    jobsFor number sid ((broadcastJobs evt m).map (.job number)) =
      if wordOfInt sid ∈ m then [broadcastMessageCallback evt (wordOfInt sid)] else [] := by
  have picked : jobsFor number sid ((broadcastJobs evt m).map (.job number)) =
      (m.keys.filter fun key => intOfWord key = sid).map (broadcastMessageCallback evt) := by
    rw [broadcastJobs]
    induction m.keys with
    | nil => rfl
    | cons key keys ih =>
      rw [List.map_cons, List.map_cons, List.filter_cons]
      by_cases same : intOfWord key = sid
      · rw [if_pos (by simpa using same), List.map_cons, ← ih]
        simp [jobsFor, broadcastMessageCallback, same]
      · rw [if_neg (by simpa using same), ← ih]
        simp [jobsFor, broadcastMessageCallback, same]
  rw [picked, keys_filter sockets]
  split <;> rfl

namespace Chronicle

variable {trace did : List MapSighting} {s s' : BroadcastState}

theorem init (uidToSid : KeyMap Sessions) : Chronicle [] (.init uidToSid) where
  order := follows_nil
  sockets := by simp [BroadcastState.init]
  fits sid := by
    refine ⟨?_, rfl⟩
    simp [BroadcastState.init]
  entered := nofun
  handling := nofun
  jobs := nofun
  reached front back number split := by simp at split

/-- The jobs of the events that have been walked stay as they are. -/
theorem reached_append (kept : Chronicle trace s) {number : Nat} (walks : .walked number ∉ did)
    (jobs : ∀ job, .job number job ∉ did) {front back : List MapSighting} (split : trace ++ did = front ++ .walked number :: back) :
    ∃ evt, .entered number evt ∈ front ∧
      ∀ sid, Reached number evt sid (trace ++ did) (statusOf sid front) := by
  obtain ⟨back', split⟩ := split_of_notMem walks split
  obtain ⟨evt, entered, reached⟩ := kept.reached front back' number split
  refine ⟨evt, entered, fun sid => ?_⟩
  have same : jobsFor number sid (trace ++ did) = jobsFor number sid trace := by
    rw [jobsFor_append, jobsFor_eq_nil jobs, List.append_nil]
  have reached := reached sid
  cases status : statusOf sid front with
  | removing => trivial
  | absent | adding | present | moving =>
    rw [status] at reached
    simpa only [Reached, same] using reached

/-- An event that has been walked has been taken. -/
theorem walked_lt (kept : Chronicle trace s) {number : Nat} (walked : .walked number ∈ trace) :
    number < s.taken := by
  obtain ⟨front, back, split⟩ := List.append_of_mem walked
  obtain ⟨evt, entered, _⟩ := kept.reached front back number split
  exact kept.entered number evt (by simp [split, entered])

/-- A step of a call, which no handler is observed in. -/
theorem called (kept : Chronicle trace s)
    (calm : ∀ sight ∈ did, sight.ofCall = true)
    (sockets : ∀ key ∈ s'.mgr.sidToUid, ∃ sid, key = wordOfInt sid)
    (fits : ∀ sid, (did.foldl (SocketStatus.after sid) (statusOf sid trace)).Fits sid s')
    (handling : s'.handling = s.handling) (taken : s'.taken = s.taken) : Chronicle (trace ++ did) s' := by
  -- a call on the map enters no event, ends no walk and makes no job
  have enters (number evt) : .entered number evt ∉ did := fun member => nomatch calm _ member
  have walks (number) : .walked number ∉ did := fun member => nomatch calm _ member
  have jobs (number job) : .job number job ∉ did := fun member => nomatch calm _ member
  constructor
  · apply kept.order.append
    intro sight member before
    cases sight with
    | entered | walked | returned => cases calm _ member
    | adds | added | deletes | deleted | takenOut | putBack | job => trivial
  · exact sockets
  · intro sid
    rw [statusOf_append]
    exact fits sid
  · intro number evt member
    rw [List.mem_append, or_iff_left (enters number evt)] at member
    rw [taken]
    exact kept.entered number evt member
  · intro number evt walked here
    rw [handling] at here
    rw [List.mem_append, List.mem_append, or_iff_left (enters number evt), or_iff_left (walks number)]
    exact kept.handling number evt walked here
  · intro number job member
    rw [List.mem_append, or_iff_left (jobs number job)] at member
    exact List.mem_append_left _ (kept.jobs number job member)
  · exact fun _ _ number => kept.reached_append (walks number) (jobs number)

/-- The maps and the calls stay as they are. -/
theorem fits_append (kept : Chronicle trace s) (mgr : s'.mgr = s.mgr) (holder : s'.holder = s.holder)
    (calm : ∀ sid status, did.foldl (SocketStatus.after sid) status = status) (sid : Int32) :
    (statusOf sid (trace ++ did)).Fits sid s' := by
  rw [statusOf_append, calm]
  exact (kept.fits sid).moved (by rw [mgr]) (by rw [BroadcastState.pending, holder, BroadcastState.pending])

theorem enter (kept : Chronicle trace s) (free : s.holder = none) (call : MgrCall) :
    Chronicle (trace ++ call.begun) { s with holder := some call.entry } := by
  refine kept.called ?_ kept.sockets (fun sid => (kept.fits sid).enter free call) rfl rfl
  cases call <;> simp [MgrCall.begun, MapSighting.ofCall]

theorem advance (kept : Chronicle trace s) {stage : CallStage} (held : s.holder = some stage) :
    Chronicle (trace ++ stage.seen)
      { s with mgr := (stage.advance s.mgr).1, holder := some (stage.advance s.mgr).2 } := by
  refine kept.called ?_ ?_ (fun sid => (kept.fits sid).advance held) rfl rfl
  · cases stage with
    | erase sid next => cases next <;> simp [CallStage.seen, MapSighting.ofCall]
    | insertSid | insertUid | has | find | forget | insert | findNew | join | unlock =>
      simp [CallStage.seen, MapSighting.ofCall]
  · intro key inside
    cases stage with
    | insertSid sid | insert sid =>
      rcases ExtTreeMap.mem_insertIfNew.mp inside with new | old
      · exact ⟨sid, (Std.compare_eq_iff_eq.mp new).symm⟩
      · exact kept.sockets key old
    | erase sid next => exact kept.sockets key (ExtTreeMap.mem_erase.mp inside).2
    | forget | join =>
      rw [CallStage.advance, ConnMgr.sidToUid_updateSessions] at inside
      exact kept.sockets key inside
    | insertUid | has | find | findNew | unlock => exact kept.sockets key inside

theorem unlock (kept : Chronicle trace s) (held : s.holder = some .unlock) :
    Chronicle (trace ++ []) { s with holder := none } := by
  refine kept.called nofun kept.sockets (fun sid => ?_) rfl rfl
  exact (kept.fits sid).moved .rfl (by rw [BroadcastState.pending, BroadcastState.pending, held]; rfl)

theorem handle (kept : Chronicle trace s) (evt : Broadcast) :
    Chronicle (trace ++ [.entered s.taken evt])
      { s with handling := some ⟨s.taken, evt, false⟩, taken := s.taken + 1 } where
  order := by
    refine (follows_append_singleton trace _).mpr ⟨kept.order, fun evt' member => ?_⟩
    exact absurd (kept.entered s.taken evt' member) (Nat.lt_irrefl _)
  sockets := kept.sockets
  fits := kept.fits_append rfl rfl fun _ _ => rfl
  entered number evt' member := by
    rw [List.mem_append, List.mem_singleton] at member
    rcases member with old | new
    · exact Nat.lt_succ_of_lt (kept.entered number evt' old)
    · cases new
      exact Nat.lt_succ_self _
  handling := by
    rintro number evt' walked ⟨⟩
    refine ⟨by simp, ?_⟩
    rw [List.mem_append, or_iff_left (by simp)]
    exact iff_of_false (fun walked => Nat.lt_irrefl _ (kept.walked_lt walked)) nofun
  jobs number job member := by
    rw [List.mem_append, or_iff_left (by simp)] at member
    exact List.mem_append_left _ (kept.jobs number job member)
  reached _ _ _ := kept.reached_append (by simp) (by simp)

theorem walk (kept : Chronicle trace s) {number : Nat} {evt : Broadcast}
    (here : s.handling = some ⟨number, evt, false⟩) :
    Chronicle (trace ++ .walked number :: (broadcastJobs evt s.mgr.sidToUid).map (.job number))
      { s with handling := some ⟨number, evt, true⟩ } := by
  obtain ⟨entered, walked⟩ := kept.handling number evt false here
  have fresh : .walked number ∉ trace := by simp [walked]
  constructor
  · have first := (follows_append_singleton trace (.walked number)).mpr ⟨kept.order, ⟨evt, entered⟩, fresh⟩
    rw [← List.singleton_append, ← List.append_assoc]
    apply first.append
    intro sight member before
    obtain ⟨job, _, rfl⟩ := List.mem_map.mp member
    trivial
  · exact kept.sockets
  · apply kept.fits_append rfl rfl
    intro sid status
    rw [List.foldl_cons, SocketStatus.after]
    induction broadcastJobs evt s.mgr.sidToUid with
    | nil => rfl
    | cons job jobs ih => exact ih
  · intro number' evt' member
    rw [List.mem_append, or_iff_left (by simp)] at member
    exact kept.entered number' evt' member
  · rintro number' evt' walked' ⟨⟩
    simp [entered]
  · intro number' job member
    rw [List.mem_append, List.mem_cons, List.mem_map] at member
    rcases member with old | same | ⟨job', _, same⟩
    · exact List.mem_append_left _ (kept.jobs number' job old)
    · cases same
    · cases same
      simp
  · intro front back number' split
    by_cases same : number' = number
    · subst same
      -- The map was not gone over for this event before.
      have ends : front = trace := by
        rcases List.append_eq_append_iff.mp split with ⟨late, rfl, same⟩ | ⟨rest, rfl, same⟩
        · cases late with
          | nil => rw [List.append_nil]
          | cons sight late =>
            rw [List.cons_append, List.cons.injEq] at same
            have twice : .walked number' ∈ (broadcastJobs evt s.mgr.sidToUid).map (MapSighting.job number') := by
              simp [same.2]
            simp at twice
        · cases rest with
          | nil => rw [List.append_nil]
          | cons sight rest =>
            cases same
            exact absurd (by simp) fresh
      subst ends
      refine ⟨evt, entered, fun sid => ?_⟩
      have fits := kept.fits sid
      have jobs : jobsFor number' sid (front ++ .walked number' ::
          (broadcastJobs evt s.mgr.sidToUid).map (.job number')) =
          if wordOfInt sid ∈ s.mgr.sidToUid then [broadcastMessageCallback evt (wordOfInt sid)] else [] := by
        rw [jobsFor_append, jobsFor_eq_nil fun job member => fresh (kept.jobs number' job member),
          List.nil_append, ← jobsFor_broadcastJobs kept.sockets number' evt sid]
        rfl
      cases status : statusOf sid front with
      | present =>
        rw [status] at fits
        rw [Reached, jobs, if_pos fits.1]
      | absent | adding | moving =>
        rw [status] at fits
        rw [Reached, jobs, if_neg fits.1]
      | removing => trivial
    · exact kept.reached_append (by simp [same]) (by simp [Ne.symm same]) split

theorem back (kept : Chronicle trace s) {number : Nat} {evt : Broadcast}
    (here : s.handling = some ⟨number, evt, true⟩) :
    Chronicle (trace ++ [.returned number]) { s with handling := none } where
  order := (follows_append_singleton trace _).mpr ⟨kept.order, (kept.handling number evt true here).2.mpr rfl⟩
  sockets := kept.sockets
  fits := kept.fits_append rfl rfl fun _ _ => rfl
  entered number evt member := by
    rw [List.mem_append, or_iff_left (by simp)] at member
    exact kept.entered number evt member
  handling := nofun
  jobs number job member := by
    rw [List.mem_append, or_iff_left (by simp)] at member
    exact List.mem_append_left _ (kept.jobs number job member)
  reached _ _ _ := kept.reached_append (by simp) (by simp)

theorem of_ran {uidToSid : KeyMap Sessions} {cond : BroadcastState → BroadcastAction → Prop}
    (ran : Ran broadcastStep cond (.init uidToSid) trace s) : Chronicle trace s := by
  apply ran.invariant (.init uidToSid)
  intro trace s action did s' kept _ taken
  -- A step that is not possible in this state is none.
  cases action with
  | enter call =>
    simp only [broadcastStep, BroadcastState.enter] at taken
    split at taken
    next free =>
      cases taken
      exact kept.enter free call
    next => cases taken
  | advance =>
    simp only [broadcastStep, BroadcastState.advance] at taken
    split at taken
    next => cases taken
    next held =>
      cases taken
      exact kept.unlock held
    next stage _ held =>
      cases taken
      exact kept.advance held
  | handle evt =>
    simp only [broadcastStep, BroadcastState.handle] at taken
    split at taken
    next =>
      cases taken
      exact kept.handle evt
    next => cases taken
  | walk =>
    simp only [broadcastStep, BroadcastState.walk] at taken
    split at taken
    next number evt here =>
      cases taken
      exact kept.walk here
    next => cases taken
  | back =>
    simp only [broadcastStep, BroadcastState.back] at taken
    split at taken
    next number evt here =>
      cases taken
      exact kept.back here
    next => cases taken

end Chronicle

/-- While an event is handled, the map is gone over for it. -/
theorem Chronicle.walks {trace before during after : List MapSighting} {s : BroadcastState} {number : Nat}
    {evt : Broadcast} (kept : Chronicle trace s)
    (handled : trace = before ++ .entered number evt :: during ++ .returned number :: after) :
    ∃ front back, during = front ++ .walked number :: back := by
  have fresh := kept.order before (.entered number evt) (during ++ .returned number :: after)
    (by simp [handled])
  have walked := kept.order (before ++ .entered number evt :: during) (.returned number) after handled
  rw [HandlerOrder, List.mem_append, List.mem_cons] at walked
  rcases walked with early | same | here
  · -- Nothing is walked before it is entered, and it is entered once.
    obtain ⟨front, back, rfl⟩ := List.append_of_mem early
    obtain ⟨⟨evt', entered⟩, _⟩ := kept.order front (.walked number)
      (back ++ .entered number evt :: during ++ .returned number :: after) (by simp [handled])
    exact absurd (List.mem_append_left _ entered) (fresh evt')
  · cases same
  · exact List.append_of_mem here

/-- The event of a number does not change. -/
theorem Chronicle.entered_eq {trace before later : List MapSighting} {s : BroadcastState} {number : Nat}
    {evt evt' : Broadcast} (kept : Chronicle trace s) (handled : trace = before ++ .entered number evt :: later)
    (entered : .entered number evt' ∈ trace) : evt' = evt := by
  have fresh := kept.order before (.entered number evt) later handled
  rw [handled, List.mem_append, List.mem_cons] at entered
  rcases entered with early | same | late
  · exact absurd early (fresh evt')
  · cases same
    rfl
  · obtain ⟨front, back, rfl⟩ := List.append_of_mem late
    have again := kept.order (before ++ .entered number evt :: front) (.entered number evt') back
      (by simp [handled])
    exact absurd (by simp) (again evt)

/-- In every run and for every event that has been handled: a socket that was registered all
the while has got its one job just when no `conn_mgr_connect_sid_uid` had it out of the map
when the handler went over it, and a socket that was absent all the while has got none. -/
theorem broadcast_reaches_iff (uidToSid : KeyMap Sessions) {trace : List MapSighting} {s : BroadcastState}
    (ran : Ran broadcastStep (fun _ _ => True) (.init uidToSid) trace s) {number : Nat} {evt : Broadcast}
    {before during after : List MapSighting}
    (handled : trace = before ++ .entered number evt :: during ++ .returned number :: after) (sid : Int32) :
    (Throughout sid (·.registered = true) (before ++ [.entered number evt]) during →
      (jobsFor number sid trace = [⟨sid, evt.tstamp, evt.type, evt.login, evt.msg⟩] ↔
        ¬∃ front back, during = front ++ .walked number :: back ∧
          statusOf sid (before ++ [.entered number evt] ++ front) = .moving)) ∧
    (Throughout sid (· = .absent) (before ++ [.entered number evt]) during → jobsFor number sid trace = []) := by
  have kept := Chronicle.of_ran ran
  -- What the walk finds decides what the socket gets.
  have found : ∀ front back, during = front ++ .walked number :: back →
      Reached number evt sid trace (statusOf sid (before ++ [.entered number evt] ++ front)) := by
    rintro front back rfl
    have split : trace = (before ++ [.entered number evt] ++ front) ++
        .walked number :: (back ++ .returned number :: after) := by simp [handled]
    obtain ⟨evt', entered, reached⟩ := kept.reached _ _ number split
    have inside : .entered number evt' ∈ trace := by
      rw [split]
      exact List.mem_append_left _ entered
    have same : evt' = evt :=
      kept.entered_eq (by rw [handled, List.append_assoc, List.cons_append]) inside
    subst same
    exact reached sid
  obtain ⟨front, back, walk⟩ := kept.walks handled
  have there : front <+: during := by simp [walk]
  constructor
  · intro registered
    constructor
    · rintro got ⟨front', back', walk', moving⟩
      have missed := found front' back' walk'
      rw [moving, Reached, got] at missed
      cases missed
    · intro still
      have reached := found front back walk
      have status := registered front there
      cases here : statusOf sid (before ++ [.entered number evt] ++ front) with
      | present => simpa only [here, Reached, sid_broadcastMessageCallback] using reached
      | moving => exact absurd ⟨front, back, walk, here⟩ still
      | absent | adding | removing =>
        rw [here] at status
        cases status
  · intro absent
    have reached := found front back walk
    rwa [absent front there, Reached] at reached

/-! ### Two runs -/

/-- Socket 5 is added. -/
def added : List BroadcastAction := [.enter (.addSid 5), .advance, .advance]

/-- An event is handled. -/
def announced (evt : Broadcast) : List BroadcastAction := [.handle evt, .walk, .back]

/-- The socket is connected to uid 2, and then the event is handled. -/
def connectedBefore : List BroadcastAction :=
  added ++ .enter (.connectSidUid 5 2) :: List.replicate 6 .advance ++ announced ⟨0, 109, none, [104, 105], 0⟩

theorem broadcast_reaches_iff_connectedBefore : ∃ trace s,
    replay broadcastStep (.init ∅) connectedBefore = some (trace, s) ∧
    jobsFor 0 5 trace = [⟨5, 0, 109, none, [104, 105]⟩] := by
  have ran : ∃ trace s, replay broadcastStep (.init ∅) connectedBefore = some (trace, s) ∧
      trace = [MapSighting.adds 5, .added 5, .takenOut 5, .putBack 5] ++ MapSighting.entered 0 ⟨0, 109, none, [104, 105], 0⟩ ::
        [MapSighting.walked 0, .job 0 ⟨5, 0, 109, none, [104, 105]⟩] ++ [MapSighting.returned 0] := ⟨_, _, rfl, rfl⟩
  obtain ⟨trace, s, replayed, handled⟩ := ran
  have status : ∀ front ∈ [MapSighting.walked 0, .job 0 ⟨5, 0, 109, none, [104, 105]⟩].inits,
      statusOf 5 ([MapSighting.adds 5, .added 5, .takenOut 5, .putBack 5] ++
        [MapSighting.entered 0 ⟨0, 109, none, [104, 105], 0⟩] ++ front) = .present := by decide
  refine ⟨trace, s, replayed, ?_⟩
  have reaches := (broadcast_reaches_iff ∅
    (ran_of_replay (meets_of_forall (fun _ _ => trivial) _ _) replayed) handled 5).1 ?_
  · apply reaches.mpr
    rintro ⟨front, back, split, moving⟩
    rw [status front ((List.mem_inits _ _).mpr ⟨_, split.symm⟩)] at moving
    cases moving
  · intro front there
    rw [status front ((List.mem_inits _ _).mpr there)]
    rfl

/-- The event is handled while the socket is on the way from one uid to the other. -/
def connectedMeanwhile : List BroadcastAction :=
  added ++ [.enter (.connectSidUid 5 2), .advance, .advance] ++ announced ⟨0, 109, none, [104, 105], 0⟩

/-- The socket was registered all the while, and gets nothing. -/
theorem moving_socket_missed : ¬∀ (uidToSid : KeyMap Sessions) (trace : List MapSighting) (s : BroadcastState),
    Ran broadcastStep (fun _ _ => True) (.init uidToSid) trace s → ∀ number evt before during after,
    trace = before ++ .entered number evt :: during ++ .returned number :: after → ∀ sid,
    (Throughout sid (·.registered = true) (before ++ [.entered number evt]) during →
      jobsFor number sid trace = [⟨sid, evt.tstamp, evt.type, evt.login, evt.msg⟩]) ∧
    (Throughout sid (· = .absent) (before ++ [.entered number evt]) during →
      jobsFor number sid trace = []) := by
  intro claim
  have ran : ∃ trace s, replay broadcastStep (.init ∅) connectedMeanwhile = some (trace, s) ∧
      trace = [MapSighting.adds 5, .added 5, .takenOut 5] ++
        MapSighting.entered 0 ⟨0, 109, none, [104, 105], 0⟩ :: [MapSighting.walked 0] ++ [MapSighting.returned 0] := ⟨_, _, rfl, rfl⟩
  obtain ⟨trace, s, replayed, handled⟩ := ran
  have reaches := (claim ∅ trace s (ran_of_replay (meets_of_forall (fun _ _ => trivial) _ _) replayed)
    _ _ _ _ _ handled 5).1 ?_
  · subst handled
    cases reaches
  · intro front there
    have status : ∀ front ∈ [MapSighting.walked 0].inits, (statusOf 5 ([MapSighting.adds 5, .added 5, .takenOut 5] ++
        [MapSighting.entered 0 ⟨0, 109, none, [104, 105], 0⟩] ++ front)).registered = true := by decide
    exact status front ((List.mem_inits _ _).mpr there)

end AcosChat

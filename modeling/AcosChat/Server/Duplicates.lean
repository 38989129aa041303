import Mathlib.Data.Multiset.Filter
import AcosChat.Server.Authorship

/-!
# No message twice

An event of the controller makes one job for each socket, and one row. What a connection has
been sent, what is on its way to it and what the controller has still to handle are together
no more than the events that there have been; so it is with the rows of the table.
-/
namespace AcosChat

open Std (ExtTreeMap)
open Store Run Bytes

/-- The events that jobs and the listener have sent to the controller. -/
def posted (trace : List ChatSighting) : Multiset Broadcast :=
  ↑((observations trace).filterMap fun o => o.effect.toController)

/-- The frame of a message with a text; without a login none is packed. -/
def textFrame (type : UInt8) (tstamp : UInt64) (login : Option Block) (text : Block) : Option Message :=
  if type = messageServerRegular then
    login.map fun login => ⟨messageServerRegular, textTokens tstamp login text⟩
  else none

def Broadcast.frame (evt : Broadcast) : Option Message := textFrame evt.type evt.tstamp evt.login evt.msg

def SendMessageJob.frame (job : SendMessageJob) : Option Message :=
  textFrame job.type job.tstamp job.login job.msg

/-- The row of an event. -/
def Broadcast.row (evt : Broadcast) : Option StoredMessage :=
  if evt.type = messageServerRegular then some ⟨evt.uid, evt.msg, evt.tstamp.toInt64⟩ else none

/-- The REGULAR frames on a connection. -/
def regularFrames (trace : List ChatSighting) (c : Nat) : Multiset Message :=
  ↑((framesTo trace c).filter fun msg => msg.msgType = messageServerRegular)

/-- The REGULAR frames that jobs have for a socket. -/
def inFlight (jobs : List SendMessageJob) (sid : Int32) : Multiset Message :=
  ↑(jobs.filterMap fun job => if job.sid = sid then job.frame else none)

/-- The REGULAR frames that the controller has still to make jobs of. -/
def undelivered (events : List Broadcast) : Multiset Message := ↑(events.filterMap Broadcast.frame)

/-! ### What a step adds -/

theorem posted_append (trace new : List ChatSighting) : posted (trace ++ new) = posted trace + posted new := by
  simp [posted]

theorem posted_frames (trace : List ChatSighting) (core : Core) (effect : Effect) :
    posted (trace ++ core.frames effect) = posted trace := by
  simp [posted, observations_frames]

theorem posted_sights (core : Core) (did : List Observed) :
    posted (did.flatMap core.sights) = ↑(did.filterMap fun o => o.effect.toController) := by
  rw [posted, observations_sights]

theorem regularFrames_append (trace new : List ChatSighting) (c : Nat) :
    regularFrames (trace ++ new) c = regularFrames trace c + regularFrames new c := by
  simp [regularFrames, framesTo]

theorem regularFrames_of_plain {new : List ChatSighting} {c : Nat}
    (plain : ∀ msg, .frame c msg ∈ new → msg.msgType ≠ messageServerRegular) : regularFrames new c = 0 := by
  rw [regularFrames, Multiset.coe_eq_zero, List.filter_eq_nil_iff]
  intro msg member
  simpa using plain msg (mem_framesTo.mp member)

/-- A frame is on the connection of its socket. -/
theorem regularFrames_sent (core : Core) (sid : Int32) (msg : Message) (c : Nat) :
    regularFrames (core.frames (.sent sid msg)) c =
      if core.client sid = some c ∧ msg.msgType = messageServerRegular then {msg} else 0 := by
  cases found : core.client sid with
  | none => simp [Core.frames, found, regularFrames, framesTo]
  | some c' =>
    by_cases same : c' = c
    · subst same
      by_cases regular : msg.msgType = messageServerRegular
      · simp [Core.frames, found, regularFrames, framesTo, regular]
      · simp [Core.frames, found, regularFrames, framesTo, regular]
    · simp [Core.frames, found, regularFrames, framesTo, same]

theorem filterMap_once {β γ : Type} [DecidableEq β] {keys : List β} (nodup : keys.Nodup) (key : β)
    (val : Option γ) :
    (keys.filterMap fun k => if k = key then val else none) = if key ∈ keys then val.toList else [] := by
  induction keys with
  | nil => rfl
  | cons k keys ih =>
    obtain ⟨outside, nodup'⟩ := List.nodup_cons.mp nodup
    rw [List.filterMap_cons]
    by_cases same : k = key
    · subst same
      rw [ih nodup', if_neg outside, if_pos rfl, if_pos List.mem_cons_self]
      cases val <;> rfl
    · rw [if_neg same, ih nodup']
      simp [Ne.symm same]

/-- An event makes one job at most for a socket. -/
theorem inFlight_broadcastJobs (evt : Broadcast) (sidToUid : KeyMap UInt64)
    (sockets : ∀ w ∈ sidToUid, ∃ sid : Int32, w = wordOfInt sid) (sid : Int32) :
    inFlight (broadcastJobs evt sidToUid) sid ≤ ↑evt.frame.toList := by
  have keys : (broadcastJobs evt sidToUid).filterMap (fun job => if job.sid = sid then job.frame else none) =
      sidToUid.keys.filterMap fun w => if w = wordOfInt sid then evt.frame else none := by
    rw [broadcastJobs, List.filterMap_map]
    apply List.filterMap_congr
    intro w member
    obtain ⟨sid', rfl⟩ := sockets w (ExtTreeMap.mem_keys.mp member)
    simp only [Function.comp_apply, sid_broadcastMessageCallback, wordOfInt_inj]
    rfl
  rw [inFlight, keys, filterMap_once ExtTreeMap.nodup_keys]
  split
  · exact le_rfl
  · exact Multiset.zero_le _

theorem inFlight_append (jobs jobs' : List SendMessageJob) (sid : Int32) :
    inFlight (jobs ++ jobs') sid = inFlight jobs sid + inFlight jobs' sid := by
  simp [inFlight]

theorem inFlight_eraseIdx {jobs : List SendMessageJob} {i : Nat} {job : SendMessageJob}
    (there : jobs[i]? = some job) (sid : Int32) :
    inFlight jobs sid = ↑((if job.sid = sid then job.frame else none).toList) + inFlight (jobs.eraseIdx i) sid := by
  obtain ⟨inside, rfl⟩ := List.getElem?_eq_some_iff.mp there
  have perm := (List.getElem_cons_eraseIdx_perm inside).filterMap
    fun job => if job.sid = sid then job.frame else none
  rw [inFlight, ← Multiset.coe_eq_coe.mpr perm, List.filterMap_cons, inFlight]
  cases (if jobs[i].sid = sid then jobs[i].frame else none) <;> rfl

theorem undelivered_eraseIdx {events : List Broadcast} {i : Nat} {evt : Broadcast}
    (there : events[i]? = some evt) :
    undelivered events = ↑evt.frame.toList + undelivered (events.eraseIdx i) := by
  obtain ⟨inside, rfl⟩ := List.getElem?_eq_some_iff.mp there
  have perm := (List.getElem_cons_eraseIdx_perm inside).filterMap Broadcast.frame
  rw [undelivered, ← Multiset.coe_eq_coe.mpr perm, List.filterMap_cons, undelivered]
  cases events[i].frame <;> rfl

/-! ### Every step -/

/-- The frames of a socket's connection, those in flight for it and those that are still to
come are no more than the events, and neither are the rows. -/
structure Once (db : Db) (trace : List ChatSighting) (s : Chat) : Prop where
  sockets : ∀ sid, inFlight s.jobs sid + undelivered s.broadcasts ≤ (posted trace).filterMap Broadcast.frame
  conns : ∀ c conn, s.core.conns.read c = some conn →
    regularFrames trace c + (inFlight s.jobs conn.sockid + undelivered s.broadcasts) ≤
      (posted trace).filterMap Broadcast.frame
  frames : ∀ c, regularFrames trace c ≤ (posted trace).filterMap Broadcast.frame
  /-- A connection that has not been accepted has been sent nothing. -/
  unused : ∀ c, s.core.conns.next ≤ c → regularFrames trace c = 0
  rows : ∃ stored, s.core.db.messages = db.messages ++ stored ∧
    (stored : Multiset StoredMessage) + ↑(s.broadcasts.filterMap Broadcast.row) ≤
      (posted trace).filterMap Broadcast.row

namespace Once

variable {md5hex : Block → Block} {db : Db} {trace : List ChatSighting} {s : Chat}

theorem init (db : Db) : Once db [] (Chat.init db) := by
  refine ⟨?_, ?_, ?_, ?_, [], by simp [Chat.init, Core.init], ?_⟩
  · intro sid
    exact Multiset.zero_le _
  · intro c conn there
    cases there
  · intro c
    exact Multiset.zero_le _
  · intro c _
    rfl
  · exact Multiset.zero_le _

/-- A step of a session keeps the connections, but for a new one and those that it closes. -/
theorem session_conns {core core' : Core} {action : SessionAction} {did : List Observed}
    (taken : sessionStep md5hex core action = some (did, some core')) :
    core.conns.next ≤ core'.conns.next ∧ ∀ c conn, core'.conns.read c = some conn →
      core.conns.read c = some conn ∨ core.conns.next ≤ c := by
  generalize after : some core' = rest at taken
  cases sessionStep_transition taken with
  | accepted sockid unused =>
    cases after
    unfold Core.acceptConnection
    split
    · refine ⟨Nat.le_succ _, ?_⟩
      intro c conn there
      rw [read_alloc] at there
      split at there
      next fresh => exact .inr (Nat.le_of_eq fresh.symm)
      next => exact .inl there
    · exact ⟨Nat.le_refl _, fun c conn there => .inl there⟩
  | closed sockid env effects _ ran =>
    subst after
    unfold Core.closeConnection at ran
    dsimp only at ran
    split at ran
    · cases ran
    next conns freed =>
      simp only [Option.bind_eq_bind, Option.bind_eq_some_iff, Option.some.injEq, Prod.mk.injEq] at ran
      obtain ⟨_, _, _, rfl⟩ := ran
      obtain ⟨c₀, _, freed⟩ := Option.bind_eq_some_iff.mp freed
      obtain ⟨_, _, next, reads⟩ := free_eq_some freed
      refine ⟨Nat.le_of_eq next.symm, ?_⟩
      intro c conn there
      rw [reads] at there
      split at there
      · cases there
      · exact .inl there
  | handled c request env conn effects mgr db' there ran =>
    cases after
    exact ⟨Nat.le_refl _, fun c conn there => .inl there⟩

/-- A session sends no REGULAR frames. -/
theorem session_plain {core : Core} {action : SessionAction} {did : List Observed} {rest : Option Core}
    (taken : sessionStep md5hex core action = some (did, rest)) (c : Nat) :
    regularFrames (did.flatMap core.sights) c = 0 := by
  apply regularFrames_of_plain
  intro msg member
  obtain ⟨o, done, seen⟩ := List.mem_flatMap.mp member
  rcases List.mem_cons.mp seen with wrong | frame
  · cases wrong
  obtain ⟨sockid, msg', c', sent, _, same⟩ := Core.mem_frames frame
  cases same
  cases sessionStep_transition taken with
  | accepted sockid' unused => cases done
  | closed sockid' env effects _ ran =>
    obtain ⟨effect, inside, rfl⟩ := List.mem_map.mp done
    cases sent
    rcases closeConnection_effects ran _ inside with ⟨_, wrong⟩ | ⟨_, _, wrong⟩ <;> cases wrong
  | handled c' request env conn effects mgr db' there ran =>
    obtain ⟨effect, inside, rfl⟩ := List.mem_map.mp done
    cases sent
    exact (processMessageJobHandler_frames ran inside).1

theorem session_step (once : Once db trace s) {action : SessionAction} {did : List Observed} {core : Core}
    (taken : sessionStep md5hex s.core action = some (did, some core)) :
    Once db (trace ++ did.flatMap s.core.sights)
      ⟨core, s.broadcasts ++ did.filterMap fun o => o.effect.toController, s.jobs⟩ := by
  obtain ⟨next, conns⟩ := session_conns taken
  have frames : ∀ c, regularFrames (trace ++ did.flatMap s.core.sights) c = regularFrames trace c := by
    intro c
    rw [regularFrames_append, session_plain taken, add_zero]
  -- both sides gain the frames of the new events
  generalize made : (did.filterMap fun o => o.effect.toController) = events
  have gained : (posted (trace ++ did.flatMap s.core.sights)).filterMap Broadcast.frame =
      (posted trace).filterMap Broadcast.frame + undelivered events := by
    rw [posted_append, posted_sights, made, Multiset.filterMap_add]
    rfl
  have due : undelivered (s.broadcasts ++ events) = undelivered s.broadcasts + undelivered events := by
    simp [undelivered]
  constructor
  · intro sid
    simp only [gained, due]
    rw [← add_assoc]
    exact Multiset.add_le_add_right (once.sockets sid)
  · intro c conn there
    simp only [gained, due, frames]
    rw [← add_assoc, ← add_assoc]
    apply Multiset.add_le_add_right
    rcases conns c conn there with old | fresh
    · rw [add_assoc]
      exact once.conns c conn old
    · rw [once.unused c fresh, zero_add]
      exact once.sockets conn.sockid
  · intro c
    rw [frames, gained]
    exact (once.frames c).trans (Multiset.le_add_right _ _)
  · intro c fresh
    rw [frames]
    exact once.unused c (Nat.le_trans next fresh)
  · obtain ⟨stored, messages, bound⟩ := once.rows
    refine ⟨stored, (sessionStep_grows taken).messages.trans messages, ?_⟩
    rw [posted_append, posted_sights, made, Multiset.filterMap_add, List.filterMap_append,
      ← Multiset.coe_add, ← add_assoc]
    exact Multiset.add_le_add_right bound

theorem broadcast_step (once : Once db trace s)
    (sockets : ∀ w ∈ s.core.mgr.sidToUid, ∃ sid : Int32, w = wordOfInt sid) {i : Nat} {noise : List Noise}
    {evt : Broadcast} {db' : Db} (there : s.broadcasts[i]? = some evt)
    (stored : storeBroadcast noise evt s.core.db = some db') :
    Once db trace ⟨{ s.core with db := db' }, s.broadcasts.eraseIdx i,
      s.jobs ++ broadcastJobs evt s.core.mgr.sidToUid⟩ := by
  -- the frame of the event goes from the controller to the jobs of a socket
  have moved : ∀ sid, inFlight (s.jobs ++ broadcastJobs evt s.core.mgr.sidToUid) sid +
      undelivered (s.broadcasts.eraseIdx i) ≤ inFlight s.jobs sid + undelivered s.broadcasts := by
    intro sid
    rw [inFlight_append, undelivered_eraseIdx there, add_assoc]
    exact Multiset.add_le_add_left
      (Multiset.add_le_add_right (inFlight_broadcastJobs evt s.core.mgr.sidToUid sockets sid))
  constructor
  · intro sid
    exact (moved sid).trans (once.sockets sid)
  · intro c conn open_
    exact (Multiset.add_le_add_left (moved conn.sockid)).trans (once.conns c conn open_)
  · exact once.frames
  · exact once.unused
  · obtain ⟨rows, messages, bound⟩ := once.rows
    obtain ⟨inside, rfl⟩ := List.getElem?_eq_some_iff.mp there
    have perm := (List.getElem_cons_eraseIdx_perm inside).filterMap Broadcast.row
    rw [← Multiset.coe_eq_coe.mpr perm, List.filterMap_cons] at bound
    by_cases regular : s.broadcasts[i].type = messageServerRegular
    · have row : s.broadcasts[i].row = some
          ⟨s.broadcasts[i].uid, s.broadcasts[i].msg, s.broadcasts[i].tstamp.toInt64⟩ := if_pos regular
      rw [row] at bound
      rcases storeBroadcast_cases stored with rfl | rfl
      · exact ⟨rows, messages, (Multiset.add_le_add_left (Multiset.le_cons_self _ _)).trans bound⟩
      · refine ⟨rows ++ [_], by rw [messages, List.append_assoc], ?_⟩
        rw [← Multiset.coe_add, add_assoc]
        exact bound
    · have row : s.broadcasts[i].row = none := if_neg regular
      rw [storeBroadcast, if_neg regular] at stored
      cases stored
      rw [row] at bound
      exact ⟨rows, messages, bound⟩

/-- A frame that is sent is not in flight any more. -/
theorem send_step (once : Once db trace s) (agree : CoreInv s.core) {i : Nat} {job : SendMessageJob}
    (there : s.jobs[i]? = some job) {effect : Effect} (packed : sendMessageJobHandler job = some effect) :
    Once db (trace ++ s.core.frames effect) { s with jobs := s.jobs.eraseIdx i } := by
  simp only [sendMessageJobHandler, Option.bind_eq_bind, Option.bind_eq_some_iff, Option.some.injEq] at packed
  obtain ⟨tokens, packed, rfl⟩ := packed
  have less : ∀ sid, inFlight (s.jobs.eraseIdx i) sid ≤ inFlight s.jobs sid := by
    intro sid
    rw [inFlight_eraseIdx there]
    exact Multiset.le_add_left _ _
  have same : posted (trace ++ s.core.frames (.sent job.sid ⟨job.type, tokens⟩)) = posted trace :=
    posted_frames trace s.core _
  have frame : job.type = messageServerRegular → job.frame = some ⟨job.type, tokens⟩ := by
    intro regular
    simp only [SendMessageJob.tokens, if_pos regular, Option.bind_eq_bind, Option.bind_eq_some_iff,
      Option.some.injEq] at packed
    obtain ⟨login, known, rfl⟩ := packed
    simp [SendMessageJob.frame, textFrame, regular, known, textTokens]
  have conns : ∀ c conn, s.core.conns.read c = some conn →
      regularFrames (trace ++ s.core.frames (.sent job.sid ⟨job.type, tokens⟩)) c +
        inFlight (s.jobs.eraseIdx i) conn.sockid ≤ regularFrames trace c + inFlight s.jobs conn.sockid := by
    intro c conn opened
    rw [regularFrames_append, regularFrames_sent, add_assoc]
    apply Multiset.add_le_add_left
    split
    next sent =>
      -- the frame goes to the owner of the socket
      obtain ⟨found, regular⟩ := sent
      obtain ⟨conn', opened', owner⟩ := agree.client_eq_some found
      rw [opened] at opened'
      cases opened'
      rw [inFlight_eraseIdx there, owner, if_pos rfl, frame regular]
      exact le_rfl
    next =>
      rw [zero_add]
      exact less conn.sockid
  constructor
  · intro sid
    rw [same]
    exact (Multiset.add_le_add_right (less sid)).trans (once.sockets sid)
  · intro c conn opened
    rw [same, ← add_assoc]
    refine (Multiset.add_le_add_right (conns c conn opened)).trans ?_
    rw [add_assoc]
    exact once.conns c conn opened
  · intro c
    rw [same]
    cases found : s.core.client job.sid with
    | none =>
      rw [regularFrames_append, regularFrames_sent, found, if_neg (by simp), add_zero]
      exact once.frames c
    | some c' =>
      by_cases owner : c' = c
      · subst owner
        obtain ⟨conn, opened, _⟩ := agree.client_eq_some found
        refine (Multiset.le_add_right _ _).trans ((conns c' conn opened).trans ?_)
        refine (Multiset.le_add_right _ (undelivered s.broadcasts)).trans ?_
        rw [add_assoc]
        exact once.conns c' conn opened
      · rw [regularFrames_append, regularFrames_sent, found, if_neg (by simp [owner]), add_zero]
        exact once.frames c
  · intro c fresh
    rw [regularFrames_append, regularFrames_sent, if_neg, add_zero]
    · exact once.unused c fresh
    · rintro ⟨found, _⟩
      obtain ⟨conn, opened, _⟩ := agree.client_eq_some found
      exact absurd (agree.bounded c conn opened) (Nat.not_lt.mpr fresh)
  · rw [same]
    exact once.rows

theorem step (once : Once db trace s) (authored : Authored db trace s) (action : ChatAction)
    {did : List ChatSighting} {s' : Chat} (taken : chatStep md5hex s action = some (did, some s')) :
    Once db (trace ++ did) s' := by
  have agree := authored.authentic.agree
  generalize after : some s' = rest at taken
  cases chatStep_transition taken with
  | session action seen core ran =>
    obtain ⟨core', rfl, rfl⟩ := Option.map_eq_some_iff.mp after.symm
    exact once.session_step ran
  | broadcast i noise evt db' there stored =>
    cases after
    rw [List.append_nil]
    refine once.broadcast_step ?_ there stored
    intro w member
    obtain ⟨ptr, found⟩ := Option.isSome_iff_exists.mp
      (ExtTreeMap.mem_iff_isSome_getElem?.mp ((agree.keys w).mp member))
    obtain ⟨_, conn, _, _, rfl⟩ := agree.owners w ptr found
    exact ⟨conn.sockid, rfl⟩
  | crashed i job there unpacked => cases after
  | sent i job effect there packed =>
    cases after
    exact once.send_step agree there packed

end Once

/-- In every run of the chat, no matter how sockets are reused, each REGULAR frame on a
connection and each row that has been stored has an event of its own: no message is shown
twice on a connection, and none is stored twice. -/
theorem no_message_twice (md5hex : Block → Block) (db : Db) (unique : UniqueUids db)
    {trace : List ChatSighting} {s : Chat}
    (ran : Ran (chatStep md5hex) (fun _ _ => True) (Chat.init db) trace s) :
    (∀ c, regularFrames trace c ≤ (posted trace).filterMap Broadcast.frame) ∧
    ∃ stored, s.core.db.messages = db.messages ++ stored ∧
      (stored : Multiset StoredMessage) ≤ (posted trace).filterMap Broadcast.row := by
  have inv : Authored db trace s ∧ Once db trace s := by
    apply ran.invariant ⟨.init db unique, .init db⟩
    intro trace s action did s' inv _ taken
    exact ⟨inv.1.step action taken, inv.2.step inv.1 action taken⟩
  obtain ⟨stored, messages, bound⟩ := inv.2.rows
  exact ⟨inv.2.frames, stored, messages, (Multiset.le_add_right _ _).trans bound⟩

/-- Root's text is shown once to root, and stored once. -/
theorem no_message_twice_kept : ∃ trace s,
    replay (chatStep fun _ => emptyDigest) (Chat.init (preparedDb emptyDigest)) (kept (ascii "hi")) =
      some (trace, s) ∧
    regularFrames trace 0 ≤ (posted trace).filterMap Broadcast.frame ∧
    ∃ stored, s.core.db.messages = stored ∧
      (stored : Multiset StoredMessage) ≤ (posted trace).filterMap Broadcast.row := by
  obtain ⟨trace, s, replayed, _⟩ := kept_shown
  obtain ⟨frames, stored, messages, bound⟩ := no_message_twice (fun _ => emptyDigest)
    (preparedDb emptyDigest) (by unfold UniqueUids; decide)
    (ran_of_replay (meets_of_forall (fun _ _ => trivial) _ _) replayed)
  exact ⟨trace, s, replayed, frames 0, stored, messages, bound⟩

end AcosChat

import AcosChat.Server.Hiding

/-!
# Content behind login

As long as LIST and HISTORY are handled, and REGULAR frames sent, after a login only, no
content reaches a connection without a login. Two runs that are equal but for the texts of
the chat then look the same to it: every step commutes with hiding the texts, and what it is
sent has none of them.
-/
namespace AcosChat

open Std Store Run Bytes

/-! ### Frames with content -/

/-- The only content among the effects is sent to this socket, and only if asked for. -/
def ContentOnlyTo (sockid : Int32) (asked : Prop) (effects : List Effect) : Prop :=
  ∀ sockid' frame, .sent sockid' frame ∈ effects → IsContent frame.msgType → sockid' = sockid ∧ asked

theorem ContentOnlyTo.status {sockid : Int32} {asked : Prop} (status : Nat) :
    ContentOnlyTo sockid asked [sendStatusCode sockid status] := by
  intro sockid' frame sent content
  cases List.mem_singleton.mp sent
  exact absurd content (by decide : ¬IsContent messageServerStatus)

section Handlers

variable {md5hex : Block → Block} {env : Env} {sockid : Int32} {tokens : List Token}
  {mgr mgr' : ConnMgr} {db db' : Db} {effects : List Effect} {asked : Prop}

theorem handleLogin_content
    (ran : handleLogin md5hex env sockid tokens mgr db = some (effects, mgr', db')) :
    ContentOnlyTo sockid asked effects := by
  obtain ⟨_, ⟨status, rfl, _⟩ | ⟨login, uid, announced, _, announces, rfl, _⟩⟩ := handleLogin_cases ran
  · exact .status status
  · intro sockid' frame sent content
    rcases List.mem_append.mp sent with answer | announcement
    · rcases List.mem_cons.mp answer with wrong | status
      · cases wrong
      · exact ContentOnlyTo.status _ _ _ status content
    · obtain ⟨_, _, wrong⟩ := announces _ announcement
      cases wrong

theorem handleRegular_content
    (ran : handleRegular env sockid tokens mgr db = some (effects, mgr', db')) :
    ContentOnlyTo sockid asked effects := by
  obtain ⟨_, _, ⟨status, rfl⟩ | ⟨login, msg, _, _, rfl⟩⟩ := handleRegular_cases ran
  · exact .status status
  -- The frames of a broadcast are sent later.
  · intro sockid' frame sent
    cases List.mem_singleton.mp sent

theorem handleKick_content
    (ran : handleKick env sockid tokens mgr db = some (effects, mgr', db')) :
    ContentOnlyTo sockid asked effects := by
  obtain ⟨_, _, ⟨status, rfl⟩ | ⟨kuid, reason, text, _, rfl⟩⟩ := handleKick_cases ran
  · exact .status status
  · intro sockid' frame sent content
    rcases List.mem_append.mp sent with kick | announcement
    · obtain ⟨_, _, key, _, same | same⟩ := mem_kicked kick
      · cases same
        exact absurd content (by decide : ¬IsContent messageServerKick)
      · cases same
    · cases List.mem_singleton.mp announcement

/-- Rows are read from a table that has some, and for a count above 0 only. -/
theorem browseHistory_rows {noise : List Noise} {cnt : Int32} {rows : List StoredMessage}
    (browsed : browseHistory noise cnt.toInt db = some rows) (some_row : rows ≠ []) :
    db.messages ≠ [] ∧ 0 < cnt.toInt := by
  by_contra nothing
  -- Without messages, or with LIMIT 0, there are no rows.
  have empty : selectHistory db (toRange 0 cnt.toInt maxHistoryLength).toNat = [] := by
    rw [not_and_or, not_not, Int.not_lt] at nothing
    unfold selectHistory
    rcases nothing with none_stored | nonpositive
    · simp [none_stored]
    · have zero : (toRange 0 cnt.toInt maxHistoryLength).toNat = 0 := by
        unfold toRange maxHistoryLength
        split
        · rfl
        · rw [if_neg (by omega)]
          omega
      simp [zero]
  have kept := eachRow_invariant (fun rows row => rows ++ [row]) (· = []) ([] : List StoredMessage)
    (by simp) noise false [] rfl
  simp only [browseHistory, empty] at browsed
  split at browsed
  next done =>
    cases browsed
    rw [done] at kept
    exact some_row kept
  next => cases browsed
  next => cases browsed

theorem handleHistory_content
    (ran : handleHistory env sockid tokens mgr db = some (effects, mgr', db')) :
    ContentOnlyTo sockid (AsksForContent db ⟨messageClientHistory, tokens⟩) effects := by
  unfold handleHistory at ran
  simp only [Option.bind_eq_bind, Option.bind_eq_some_iff] at ran
  obtain ⟨wrong, checked, ran⟩ := ran
  split at ran
  · cases ran
    exact .status _
  next right =>
    simp only [Option.bind_eq_some_iff] at ran
    obtain ⟨token, first, cnt, counted, rows, browsed, sent, mapped, ran⟩ := ran
    cases ran
    intro sockid' frame member _
    obtain ⟨⟨row, i⟩, inside, made⟩ := mapM_mem mapped _ member
    simp only [browseHistoryCallback, Option.bind_eq_bind, Option.bind_eq_some_iff,
      Option.some.injEq] at made
    obtain ⟨_, _, login, _, same⟩ := made
    cases same
    -- A frame is sent for a row only.
    have some_row : rows ≠ [] := by
      rintro rfl
      cases inside
    obtain ⟨stored, positive⟩ := browseHistory_rows browsed some_row
    refine ⟨rfl, .inr ⟨rfl, stored, cnt, ?_, positive⟩⟩
    simp only [historyCount, checked, Option.bind_eq_bind, Option.bind_some, if_neg right, first, counted]

theorem handleList_content
    (ran : handleList env sockid mgr db = some (effects, mgr', db')) (tokens : List Token) :
    ContentOnlyTo sockid (AsksForContent db ⟨messageClientList, tokens⟩) effects := by
  unfold handleList at ran
  simp only [Option.bind_eq_bind, Option.bind_eq_some_iff] at ran
  obtain ⟨users, _, listed, _, ran⟩ := ran
  cases ran
  intro sockid' frame sent _
  cases List.mem_singleton.mp sent
  exact ⟨rfl, .inl rfl⟩

/-- A handler sends content to its own client only, as the answer to LIST or HISTORY. -/
theorem processMessageJobHandler_content {msg : Message}
    (ran : processMessageJobHandler md5hex env sockid mgr db msg = some (effects, mgr', db')) :
    ContentOnlyTo sockid (AsksForContent db msg) effects := by
  obtain ⟨type, tokens⟩ := msg
  unfold processMessageJobHandler at ran
  dsimp only at ran
  split at ran
  next => exact handleLogin_content ran
  split at ran
  next =>
    cases ran
    intro sockid' frame sent
    cases List.mem_singleton.mp sent
  split at ran
  next => exact handleRegular_content ran
  split at ran
  next history => exact history ▸ handleHistory_content ran
  split at ran
  next list => exact list ▸ handleList_content ran tokens
  split at ran
  next => exact handleKick_content ran
  next =>
    cases ran
    exact .status _

end Handlers

/-! ### Behind login -/

@[simp] theorem observations_append (trace later : List ChatSighting) :
    observations (trace ++ later) = observations trace ++ observations later := List.filterMap_append

theorem observations_frames (core : Core) (effect : Effect) : observations (core.frames effect) = [] := by
  cases effect with
  | sent sockid msg =>
    rw [Core.frames]
    cases core.client sockid <;> rfl
  | _ => rfl

theorem observations_sights (core : Core) (did : List Observed) :
    observations (did.flatMap core.sights) = did := by
  induction did with
  | nil => rfl
  | cons o did ih =>
    rw [List.flatMap_cons, observations_append, ih, Core.sights, ← List.singleton_append,
      observations_append, observations_frames]
    rfl

/-- A login is not forgotten. -/
theorem HasLoggedIn.append {trace : List ChatSighting} {c : Nat} (logged : HasLoggedIn trace c)
    (later : List ChatSighting) : HasLoggedIn (trace ++ later) c := by
  unfold HasLoggedIn at logged ⊢
  rw [observations_append, lastLogin_append]
  cases lastLogin (observations later) c with
  | none => rwa [Option.none_or]
  | some _ => exact Option.some_ne_none _

/-- The broadcast handler leaves the accounts alone. -/
theorem storeBroadcast_users {noise : List Noise} {evt : Broadcast} {db db' : Db}
    (stored : storeBroadcast noise evt db = some db') : db'.users = db.users := by
  unfold storeBroadcast at stored
  split at stored
  · unfold insertMessage at stored
    split at stored <;> cases stored <;> rfl
  · cases stored
    rfl

theorem Authentic.stored {trace : List Observed} {core : Core} (inv : Authentic trace core) {db : Db}
    (same : db.users = core.db.users) : Authentic trace { core with db := db } := by
  obtain ⟨agree, unique, own⟩ := inv
  refine ⟨⟨agree.keys, agree.owners, agree.listed, agree.bounded, agree.members⟩, ?_, ?_⟩
  · unfold UniqueUids at unique ⊢
    rwa [same]
  · intro c conn there mapped
    obtain ⟨login, last, row⟩ := own c conn there mapped
    refine ⟨login, last, ?_⟩
    unfold selectLogin at row ⊢
    rwa [same]

/-- An authorized socket belongs to a connection that has logged in. -/
theorem Authentic.hasLoggedIn {trace : List ChatSighting} {core : Core}
    (inv : Authentic (observations trace) core) {sockid : Int32} {c : Nat}
    (found : core.client sockid = some c) (authorized : core.Authorized sockid) :
    HasLoggedIn trace c := by
  have mapped := authorized (found ▸ Option.some_ne_none c)
  obtain ⟨c', conn, login, found', _, _, last, _⟩ := inv.owner sockid mapped
  rw [found] at found'
  cases found'
  unfold HasLoggedIn
  rw [last]
  exact Option.some_ne_none _

/-- A frame is on the connection that has its socket. -/
theorem Core.mem_frames {core : Core} {effect : Effect} {sight : ChatSighting}
    (member : sight ∈ core.frames effect) :
    ∃ sockid msg c, effect = .sent sockid msg ∧ core.client sockid = some c ∧ sight = .frame c msg := by
  cases effect with
  | sent sockid msg =>
    rw [Core.frames, Option.mem_toList, Option.map_eq_some_iff] at member
    obtain ⟨c, found, rfl⟩ := member
    exact ⟨sockid, msg, c, rfl, found, rfl⟩
  | _ => cases member

/-- The sockets and uids are authentic, and content has come after a login. -/
structure Secret (trace : List ChatSighting) (s : Chat) : Prop where
  authentic : Authentic (observations trace) s.core
  follows : Follows NeedsLogin trace

namespace Secret

variable {md5hex : Block → Block} {trace : List ChatSighting} {s : Chat}

theorem init (db : Db) (unique : UniqueUids db) : Secret [] (Chat.init db) :=
  ⟨.init db unique, follows_nil⟩

/-- What a session does has a login before it where it needs one. -/
theorem session_needs (inv : Secret trace s) {action : SessionAction} (met : BehindLogin s (.session action))
    {did : List Observed} {rest : Option Core} (taken : sessionStep md5hex s.core action = some (did, rest)) :
    ∀ sight ∈ did.flatMap s.core.sights, ∀ later, NeedsLogin (trace ++ later) sight := by
  intro sight member later
  obtain ⟨o, done, seen⟩ := List.mem_flatMap.mp member
  rcases List.mem_cons.mp seen with rfl | frame
  · trivial
  obtain ⟨sockid, msg, c, sent, found, rfl⟩ := Core.mem_frames frame
  intro content
  apply HasLoggedIn.append
  cases sessionStep_transition taken with
  | accepted sockid' unused => cases done
  | closed sockid' env effects _ ran =>
    obtain ⟨effect, inside, rfl⟩ := List.mem_map.mp done
    cases sent
    -- A close makes no frames.
    rcases closeConnection_effects ran _ inside with ⟨_, wrong⟩ | ⟨_, _, wrong⟩ <;> cases wrong
  | handled c' request env conn effects mgr db there ran =>
    obtain ⟨effect, inside, rfl⟩ := List.mem_map.mp done
    cases sent
    obtain ⟨rfl, asked⟩ := processMessageJobHandler_content ran sockid msg inside content
    exact inv.authentic.hasLoggedIn found (met conn there asked)

/-- So does what a job sends. -/
theorem send_needs (inv : Secret trace s) {i : Nat} (met : BehindLogin s (.send i)) {job : SendMessageJob}
    (there : s.jobs[i]? = some job) {effect : Effect} (sent : sendMessageJobHandler job = some effect) :
    ∀ sight ∈ s.core.frames effect, ∀ later, NeedsLogin (trace ++ later) sight := by
  intro sight member later
  obtain ⟨sockid, msg, c, rfl, found, rfl⟩ := Core.mem_frames member
  intro content
  apply HasLoggedIn.append
  simp only [sendMessageJobHandler, Option.bind_eq_bind, Option.bind_eq_some_iff, Option.some.injEq,
    Effect.sent.injEq] at sent
  obtain ⟨tokens, packed, rfl, rfl⟩ := sent
  apply inv.authentic.hasLoggedIn found
  apply met job there content
  -- A null login would have crashed.
  rintro regular unnamed
  simp [SendMessageJob.tokens, regular, unnamed] at packed

/-- What a step does that meets the condition. -/
theorem needs (inv : Secret trace s) {action : ChatAction} (met : BehindLogin s action)
    {did : List ChatSighting} {rest : Option Chat} (taken : chatStep md5hex s action = some (did, rest)) :
    ∀ sight ∈ did, ∀ later, NeedsLogin (trace ++ later) sight := by
  cases chatStep_transition taken with
  | session action seen core ran => exact inv.session_needs met ran
  | broadcast i noise evt db there stored => simp
  | crashed i job there unpacked => simp
  | sent i job effect there packed => exact inv.send_needs met there packed

/-- Every step keeps the sockets and uids authentic. -/
theorem authentic_step (inv : Secret trace s) {action : ChatAction} {did : List ChatSighting} {s' : Chat}
    (taken : chatStep md5hex s action = some (did, some s')) :
    Authentic (observations (trace ++ did)) s'.core := by
  rw [observations_append]
  generalize after : some s' = rest at taken
  cases chatStep_transition taken with
  | session action seen core ran =>
    obtain ⟨core', rfl, rfl⟩ := Option.map_eq_some_iff.mp after.symm
    rw [observations_sights]
    exact inv.authentic.step action ran
  | broadcast i noise evt db there stored =>
    cases after
    have same := inv.authentic.stored (storeBroadcast_users stored)
    exact (List.append_nil (observations trace)).symm ▸ same
  | crashed i job there unpacked => cases after
  | sent i job effect there packed =>
    cases after
    rw [observations_frames, List.append_nil]
    exact inv.authentic

/-- A run that meets the condition keeps the content behind login. -/
theorem of_ran {db : Db} (unique : UniqueUids db)
    (ran : Ran (chatStep md5hex) BehindLogin (Chat.init db) trace s) : Secret trace s := by
  apply ran.invariant (.init db unique)
  intro trace s action did s' inv met taken
  exact ⟨inv.authentic_step taken, inv.follows.append_of_before (inv.needs met taken)⟩

end Secret

/-! ### Two runs -/

/-- The frames on a connection. -/
def framesTo (trace : List ChatSighting) (c : Nat) : List Message :=
  trace.filterMap fun
    | .observed _ => none
    | .frame c' msg => if c' = c then some msg else none

theorem mem_framesTo {trace : List ChatSighting} {c : Nat} {msg : Message} :
    msg ∈ framesTo trace c ↔ .frame c msg ∈ trace := by
  unfold framesTo
  rw [List.mem_filterMap]
  constructor
  · rintro ⟨sight, member, same⟩
    cases sight with
    | observed o => cases same
    | frame c' msg' =>
      dsimp only at same
      split at same
      next here =>
        cases same
        exact here ▸ member
      next => cases same
  · intro member
    exact ⟨_, member, if_pos rfl⟩

theorem framesTo_hideText (trace : List ChatSighting) (c : Nat) :
    framesTo (trace.map ChatSighting.hideText) c = (framesTo trace c).map Message.hideText := by
  unfold framesTo
  rw [List.filterMap_map, List.map_filterMap]
  congr 1
  funext sight
  cases sight with
  | observed o => rfl
  | frame c' msg =>
    dsimp only [Function.comp_apply, ChatSighting.hideText]
    split <;> rfl

@[simp] theorem Message.msgType_hideText (msg : Message) : msg.hideText.msgType = msg.msgType := by
  unfold Message.hideText
  split <;> rfl

theorem Message.hideText_of_plain {msg : Message} (plain : ¬IsContent msg.msgType) : msg.hideText = msg := by
  unfold Message.hideText
  rw [if_neg]
  rintro (regular | history)
  · exact plain (.inl regular)
  · exact plain (.inr (.inl history))

theorem map_hideText_of_plain {msgs : List Message} (plain : ∀ msg ∈ msgs, ¬IsContent msg.msgType) :
    msgs.map Message.hideText = msgs := by
  rw [List.map_congr_left fun msg member => Message.hideText_of_plain (plain msg member), List.map_id']

/-- Messages without content have nothing to hide. -/
theorem eq_of_map_hideText {msgs msgs' : List Message} (plain : ∀ msg ∈ msgs, ¬IsContent msg.msgType)
    (same : msgs.map Message.hideText = msgs'.map Message.hideText) : msgs = msgs' := by
  have plain' : ∀ msg ∈ msgs', ¬IsContent msg.msgType := by
    intro msg member
    have hidden := List.mem_map_of_mem (f := Message.hideText) member
    rw [← same] at hidden
    obtain ⟨msg', member', type⟩ := List.mem_map.mp hidden
    rw [← Message.msgType_hideText msg, ← type, Message.msgType_hideText]
    exact plain msg' member'
  rw [← map_hideText_of_plain plain, same, map_hideText_of_plain plain']

/-- Nothing with content has been sent to a connection that never logged in. -/
theorem plain_framesTo {trace : List ChatSighting} (follows : Follows NeedsLogin trace) {c : Nat}
    (never : ¬HasLoggedIn trace c) : ∀ msg ∈ framesTo trace c, ¬IsContent msg.msgType := by
  intro msg member content
  obtain ⟨before, after, rfl⟩ := List.append_of_mem (mem_framesTo.mp member)
  exact never ((follows before _ after rfl content).append _)

/-- In every run that meets the condition REGULAR, HISTORY and LIST frames are sent on
connections that have logged in, also by its last step. Two runs whose databases and actions
are the same with their texts hidden send the same frames to a connection that never logged in. -/
theorem content_behind_login (md5hex : Block → Block) (db : Db) (unique : UniqueUids db) :
    (∀ trace s, Ran (chatStep md5hex) BehindLogin (Chat.init db) trace s → Follows NeedsLogin trace ∧
      ∀ action did rest, BehindLogin s action → chatStep md5hex s action = some (did, rest) →
        Follows NeedsLogin (trace ++ did)) ∧
    (∀ db' actions actions' trace trace' s s', db.hideTexts = db'.hideTexts →
      actions.map ChatAction.hideText = actions'.map ChatAction.hideText →
      Meets (chatStep md5hex) BehindLogin (Chat.init db) actions →
      replay (chatStep md5hex) (Chat.init db) actions = some (trace, s) →
      replay (chatStep md5hex) (Chat.init db') actions' = some (trace', s') →
      ∀ c, ¬HasLoggedIn trace c → framesTo trace c = framesTo trace' c) := by
  constructor
  · intro trace s ran
    have secret := Secret.of_ran unique ran
    refine ⟨secret.follows, ?_⟩
    intro action did rest met taken
    exact secret.follows.append_of_before (secret.needs met taken)
  · intro db' actions actions' trace trace' s s' same acts meets first second c never
    have secret := Secret.of_ran unique (ran_of_replay meets first)
    have starts : (Chat.init db).hideTexts = (Chat.init db').hideTexts := congrArg Chat.init same
    have traces : trace.map ChatSighting.hideText = trace'.map ChatSighting.hideText :=
      map_eq_of_replay _ _ _ (chatStep_hideTexts md5hex) starts acts first second
    apply eq_of_map_hideText (plain_framesTo secret.follows never)
    rw [← framesTo_hideText, traces, framesTo_hideText]

/-! ### Runs -/

/-- Root logs in on the first of two connections, writes a text, and it is broadcast. -/
def writes (text : Block) : List ChatAction :=
  [.session (.accept 5), .session (.accept 6),
    .session (.handle 0 ⟨messageClientLogin, [pascalToken (ascii "root"), pascalToken []]⟩ .calm),
    .session (.handle 0 ⟨messageClientRegular, [pascalToken text]⟩ .calm), .broadcast 1 []]

/-- The text is sent to root, and the second client tries to kick somebody. -/
def kept (text : Block) : List ChatAction :=
  writes text ++ [ChatAction.send 0, .session (.handle 1 ⟨messageClientKick, []⟩ .calm)]

theorem kept_ran : ∃ trace trace' s s',
    replay (chatStep fun _ => emptyDigest) (Chat.init (preparedDb emptyDigest)) (kept (ascii "hi")) =
      some (trace, s) ∧
    replay (chatStep fun _ => emptyDigest) (Chat.init (preparedDb emptyDigest)) (kept (ascii "no")) =
      some (trace', s') ∧
    framesTo trace 1 = [⟨messageServerStatus, [.int32 5]⟩] ∧ ¬HasLoggedIn trace 1 :=
  ⟨_, _, _, _, rfl, rfl, by decide, by decide⟩

/-- Root has logged in by the time that the text is sent. -/
theorem kept_meets : Meets (chatStep fun _ => emptyDigest) BehindLogin (Chat.init (preparedDb emptyDigest))
    (kept (ascii "hi")) := by
  have unasked : ∀ (core : Core) (sockid : Int32) (msg : Message), msg.msgType ≠ messageClientList →
      msg.msgType ≠ messageClientHistory → AsksForContent core.db msg → core.Authorized sockid := by
    rintro core sockid msg list history (wrong | ⟨wrong, _⟩)
    · exact absurd wrong list
    · exact absurd wrong history
  refine ⟨trivial, trivial, fun conn _ => ?_, fun conn _ => ?_, trivial, ?_, fun conn _ => ?_, trivial⟩
  · exact unasked _ _ _ (by decide) (by decide)
  · exact unasked _ _ _ (by decide) (by decide)
  · intro job there _ _ _
    cases there
    decide
  · exact unasked _ _ _ (by decide) (by decide)

theorem content_behind_login_kept : ∃ trace trace' s s',
    replay (chatStep fun _ => emptyDigest) (Chat.init (preparedDb emptyDigest)) (kept (ascii "hi")) =
      some (trace, s) ∧
    replay (chatStep fun _ => emptyDigest) (Chat.init (preparedDb emptyDigest)) (kept (ascii "no")) =
      some (trace', s') ∧
    Follows NeedsLogin trace ∧ framesTo trace 1 = [⟨messageServerStatus, [.int32 5]⟩] ∧
      framesTo trace 1 = framesTo trace' 1 := by
  obtain ⟨trace, trace', s, s', first, second, frames, never⟩ := kept_ran
  obtain ⟨behind, same⟩ := content_behind_login (fun _ => emptyDigest) (preparedDb emptyDigest)
    (by unfold UniqueUids; decide)
  have hidden : (kept (ascii "hi")).map ChatAction.hideText = (kept (ascii "no")).map ChatAction.hideText := rfl
  exact ⟨trace, trace', s, s', first, second, (behind _ _ (ran_of_replay kept_meets first)).1, frames,
    same _ _ _ _ _ _ _ rfl hidden kept_meets first second 1 never⟩

/-- The second client lists the users and is sent the text, without a login. -/
def overheard (text : Block) : List ChatAction :=
  writes text ++ [ChatAction.session (.handle 1 ⟨messageClientList, []⟩ .calm), .send 1]

/-- What the second client is sent. -/
def overheardFrames (text : Block) : List Message :=
  [⟨messageServerList, [.int32 1, cStr (ascii "root")]⟩,
    ⟨messageServerRegular, [.int64 0, cStr (ascii "root"), cStr text]⟩]

theorem overheard_ran : ∃ trace trace' s s',
    replay (chatStep fun _ => emptyDigest) (Chat.init (preparedDb emptyDigest)) (overheard (ascii "hi")) =
      some (trace, s) ∧
    replay (chatStep fun _ => emptyDigest) (Chat.init (preparedDb emptyDigest)) (overheard (ascii "no")) =
      some (trace', s') ∧
    framesTo trace 1 = overheardFrames (ascii "hi") ∧ framesTo trace' 1 = overheardFrames (ascii "no") ∧
      ¬HasLoggedIn trace 1 :=
  ⟨_, _, _, _, rfl, rfl, by decide, by decide, by decide⟩

/-- A client that never logs in gets the list and the text, and sees which text it was. -/
theorem content_without_login :
    (¬∀ (md5hex : Block → Block) (db : Db), UniqueUids db → ∀ trace s,
      Ran (chatStep md5hex) (fun _ _ => True) (Chat.init db) trace s → Follows NeedsLogin trace) ∧
    (¬∀ (md5hex : Block → Block) (db : Db), UniqueUids db → ∀ actions actions' trace trace' s s',
      actions.map ChatAction.hideText = actions'.map ChatAction.hideText →
      replay (chatStep md5hex) (Chat.init db) actions = some (trace, s) →
      replay (chatStep md5hex) (Chat.init db) actions' = some (trace', s') →
      ∀ c, ¬HasLoggedIn trace c → framesTo trace c = framesTo trace' c) := by
  obtain ⟨trace, trace', s, s', first, second, frames, frames', never⟩ := overheard_ran
  have unique : UniqueUids (preparedDb emptyDigest) := by
    unfold UniqueUids
    decide
  constructor
  · intro claim
    have follows := claim _ _ unique _ _
      (ran_of_replay (meets_of_forall (fun _ _ => trivial) _ _) first)
    have listed : ⟨messageServerList, [.int32 1, cStr (ascii "root")]⟩ ∈ framesTo trace 1 := by
      rw [frames]
      exact List.mem_cons_self
    exact plain_framesTo follows never _ listed (by decide)
  · intro claim
    have hidden : (overheard (ascii "hi")).map ChatAction.hideText =
        (overheard (ascii "no")).map ChatAction.hideText := rfl
    have same := claim _ _ unique _ _ _ _ _ _ hidden first second 1 never
    rw [frames, frames'] at same
    exact absurd same (by decide)

end AcosChat

import AcosChat.Server.Chat

/-!
# Hidden texts

A state of the server with the text of every chat message taken out of it: of the REGULAR
requests, broadcasts, jobs and frames, of the rows of `messages` and of the HISTORY frames.
Every step can be taken with hidden texts as well, and is seen to do the same.
-/
namespace AcosChat

open Std Store Run Bytes

def StoredMessage.hideText (message : StoredMessage) : StoredMessage := { message with msg := [] }

def Db.hideTexts (db : Db) : Db := { db with messages := db.messages.map StoredMessage.hideText }

def Broadcast.hideText (evt : Broadcast) : Broadcast :=
  if evt.type = messageServerRegular then { evt with msg := [] } else evt

def SendMessageJob.hideText (job : SendMessageJob) : SendMessageJob :=
  if job.type = messageServerRegular then { job with msg := [] } else job

/-- The text is the third token of a REGULAR or a HISTORY frame. -/
def Message.hideText (msg : Message) : Message :=
  if msg.msgType = messageServerRegular ∨ msg.msgType = messageServerHistory then
    { msg with tokens := msg.tokens.set 2 (cStr []) }
  else msg

/-- A client's REGULAR, with as many tokens. -/
def Message.hideRequest (msg : Message) : Message :=
  if msg.msgType = messageClientRegular then
    { msg with tokens := msg.tokens.map fun _ => pascalToken [] }
  else msg

def Effect.hideText : Effect → Effect
  | .sent sockid msg => .sent sockid msg.hideText
  | .broadcast evt => .broadcast evt.hideText
  | effect => effect

def Observed.hideText : Observed → Observed
  | .byListener effect => .byListener effect.hideText
  | .byJob c type effect => .byJob c type effect.hideText

def ChatSighting.hideText : ChatSighting → ChatSighting
  | .observed o => .observed o.hideText
  | .frame c msg => .frame c msg.hideText

def Core.hideTexts (core : Core) : Core := { core with db := core.db.hideTexts }

def Chat.hideTexts (s : Chat) : Chat :=
  ⟨s.core.hideTexts, s.broadcasts.map Broadcast.hideText, s.jobs.map SendMessageJob.hideText⟩

def SessionAction.hideText : SessionAction → SessionAction
  | .handle c msg env => .handle c msg.hideRequest env
  | action => action

def ChatAction.hideText : ChatAction → ChatAction
  | .session action => .session action.hideText
  | action => action

/-! ### The database -/

/-- The end of a loop, under a map of its states. -/
def RowsEnd.map {σ τ : Type} (f : σ → τ) : RowsEnd σ → RowsEnd τ
  | .done state => .done (f state)
  | .failed state => .failed (f state)
  | .running => .running

/-- A loop over mapped rows, whose body commutes with the map. -/
theorem eachRow_map {σ τ ρ π : Type} {body : σ → ρ → σ} {body' : τ → π → τ} (f : σ → τ) (g : ρ → π)
    (commutes : ∀ state row, f (body state row) = body' (f state) (g row)) (rows : List ρ)
    (noise : List Noise) (waiting : Bool) (state : σ) :
    eachRow body' waiting (f state) (answers (rows.map g) noise) =
      (eachRow body waiting state (answers rows noise)).map f := by
  induction noise generalizing rows waiting state with
  | nil =>
    induction rows generalizing waiting state with
    | nil => cases waiting <;> rfl
    | cons row rows ih =>
      have rest := ih false (body state row)
      rw [commutes] at rest
      exact rest
  | cons noise later ih =>
    cases noise with
    | busy => exact ih rows true state
    | error => cases waiting <;> cases rows <;> rfl
    | ok =>
      cases rows with
      | nil => cases waiting <;> rfl
      | cons row rows =>
        have rest := ih rows false (body state row)
        rw [commutes] at rest
        exact rest

/-- The order of the rows is one of their times. -/
theorem mergeSort_hideText (le : Int64 → Int64 → Bool) (rows : List StoredMessage) :
    (rows.map StoredMessage.hideText).mergeSort (fun x y => le x.tstamp y.tstamp) =
      (rows.mergeSort fun x y => le x.tstamp y.tstamp).map StoredMessage.hideText := by
  rw [List.map_mergeSort]
  intro _ _ _ _
  rfl

theorem selectHistory_hideTexts (db : Db) (limit : Nat) :
    selectHistory db.hideTexts limit = (selectHistory db limit).map StoredMessage.hideText := by
  -- The table is sorted twice, before and after the LIMIT.
  have newest := mergeSort_hideText (fun x y => y ≤ x) db.messages
  have oldest := mergeSort_hideText (fun x y => x ≤ y)
    ((db.messages.mergeSort fun x y => y.tstamp ≤ x.tstamp).take limit)
  rw [List.map_take, ← newest] at oldest
  exact oldest

theorem browseHistory_hideTexts (noise : List Noise) (cnt : Int) (db : Db) :
    browseHistory noise cnt db.hideTexts =
      (browseHistory noise cnt db).map (List.map StoredMessage.hideText) := by
  let body : List StoredMessage → StoredMessage → List StoredMessage := fun rows row => rows ++ [row]
  let rows := selectHistory db (toRange 0 cnt maxHistoryLength).toNat
  have mapped : eachRow body false [] (answers (rows.map StoredMessage.hideText) noise) =
      (eachRow body false [] (answers rows noise)).map (List.map StoredMessage.hideText) :=
    eachRow_map (List.map StoredMessage.hideText) StoredMessage.hideText (fun _ _ => List.map_append)
      rows noise false []
  simp only [browseHistory, selectHistory_hideTexts]
  rw [mapped]
  cases eachRow body false [] (answers rows noise) <;> rfl

theorem loginOrRegister_hideTexts (md5hex : Block → Block) (script : Script) (login passwd : Block) (db : Db) :
    loginOrRegister md5hex script login passwd db.hideTexts =
      (loginOrRegister md5hex script login passwd db).map fun (uid, db) => (uid, db.hideTexts) := by
  have users : selectByLogin db.hideTexts login = selectByLogin db login ∧
      selectNextUid db.hideTexts = selectNextUid db ∧ ∀ user noise,
        insertUser db.hideTexts user noise = insertUser db user noise :=
    ⟨rfl, rfl, fun _ _ => rfl⟩
  simp only [loginOrRegister, users]
  repeat' split
  all_goals rfl

theorem storeBroadcast_hideTexts (noise : List Noise) (evt : Broadcast) (db : Db) :
    storeBroadcast noise evt.hideText db.hideTexts = (storeBroadcast noise evt db).map Db.hideTexts := by
  unfold storeBroadcast Broadcast.hideText
  by_cases regular : evt.type = messageServerRegular
  · simp only [if_pos regular, insertMessage]
    cases insertLoop (answers ([] : List Unit) noise) with
    | none => rfl
    | some finished =>
      cases finished with
      | false => rfl
      | true => simp [Db.hideTexts, StoredMessage.hideText]
  · simp only [if_neg regular, Option.map_some]

/-! ### The handlers -/

/-- No chat text is in it. -/
def Effect.Textless (effect : Effect) : Prop := effect.hideText = effect

theorem textless_metaEvent (tstamp : UInt64) (text : Block) : (metaEvent tstamp text).Textless := rfl

theorem map_hideText {effects : List Effect} (textless : ∀ effect ∈ effects, effect.Textless) :
    effects.map Effect.hideText = effects := by
  rw [List.map_congr_left textless, List.map_id']

def Handled.hideTexts : Handled → Handled
  | (effects, mgr, db) => (effects.map Effect.hideText, mgr, db.hideTexts)

theorem mapM_map_comp {β γ δ : Type} (f : β → Option γ) (g : γ → δ) (xs : List β) :
    (xs.mapM fun x => (f x).map g) = (xs.mapM f).map (List.map g) := by
  induction xs with
  | nil => rfl
  | cons x xs ih =>
    rw [List.mapM_cons, List.mapM_cons, ih]
    cases f x with
    | none => rfl
    | some y => cases xs.mapM f <;> rfl

section Handlers

variable {md5hex : Block → Block} {env : Env} {sockid : Int32} {tokens : List Token} {mgr : ConnMgr}
  {db : Db} {handled : Handled}

theorem handleLogin_hideTexts (ran : handleLogin md5hex env sockid tokens mgr db = some handled) :
    handleLogin md5hex env sockid tokens mgr db.hideTexts = some handled.hideTexts := by
  unfold handleLogin at ran ⊢
  split at ran
  next few =>
    cases ran
    rw [if_pos few]
    rfl
  next enough =>
    simp only [Option.bind_eq_bind, Option.bind_eq_some_iff, Prod.exists] at ran
    obtain ⟨_, first, login, named, _, second, passwd, secret, uid, after, returned, ran⟩ := ran
    simp only [if_neg enough, first, named, second, secret, Option.bind_eq_bind, Option.bind_some,
      loginOrRegister_hideTexts, returned, Option.map_some]
    split at ran
    next refused =>
      cases ran
      rw [if_pos refused]
      rfl
    next accepted =>
      cases ran
      rw [if_neg accepted]
      split <;> rfl

/-- The text itself is hidden, too, and can be read as well. -/
theorem handleRegular_hideTexts
    (ran : handleRegular env sockid tokens mgr db = some handled) :
    handleRegular env sockid (tokens.map fun _ => pascalToken []) mgr db.hideTexts =
      some handled.hideTexts := by
  unfold handleRegular at ran ⊢
  dsimp only at ran ⊢
  rw [List.length_map]
  split at ran
  next unauthorized =>
    cases ran
    rw [if_pos unauthorized]
    rfl
  next authorized =>
    rw [if_neg authorized]
    split at ran
    next empty =>
      cases ran
      rw [if_pos empty]
      rfl
    next one =>
      simp only [Option.bind_eq_bind, Option.bind_eq_some_iff] at ran
      obtain ⟨login, named, _, _, msg, _, ran⟩ := ran
      cases ran
      have same : getLoginByUid (env.script 0) (mgr.getUid sockid) db.hideTexts = some login := named
      -- The empty text is a pascal string of length 0.
      have first : tokenPStr (tokens.map fun _ => pascalToken []) 0 = some (leBytes 4 0) := by
        cases tokens with
        | nil => exact absurd Nat.zero_lt_one one
        | cons token tokens => rfl
      rw [if_neg one, same, first]
      rfl

theorem browseHistoryCallback_hideTexts (sockid : Int32) (db : Db) (noise : List Noise) (row : StoredMessage) :
    browseHistoryCallback noise sockid db.hideTexts row.hideText =
      (browseHistoryCallback noise sockid db row).map Effect.hideText := by
  have users : getLoginByUid noise row.uid db.hideTexts = getLoginByUid noise row.uid db := rfl
  simp only [browseHistoryCallback, StoredMessage.hideText, users]
  cases getLoginByUid noise row.uid db with
  | none => rfl
  | some login => cases login <;> rfl

theorem handleHistory_hideTexts (ran : handleHistory env sockid tokens mgr db = some handled) :
    handleHistory env sockid tokens mgr db.hideTexts = some handled.hideTexts := by
  unfold handleHistory at ran ⊢
  simp only [Option.bind_eq_bind, Option.bind_eq_some_iff] at ran
  obtain ⟨wrong, checked, ran⟩ := ran
  simp only [checked, Option.bind_eq_bind, Option.bind_some]
  split at ran
  next bad =>
    cases ran
    rw [if_pos bad]
    rfl
  next good =>
    simp only [Option.bind_eq_some_iff] at ran
    obtain ⟨_, first, cnt, counted, rows, browsed, sent, mapped, ran⟩ := ran
    cases ran
    -- The rows come in the same order, and each frame is that of its row.
    simp only [if_neg good, first, counted, Option.bind_some, browseHistory_hideTexts, browsed,
      Option.map_some, List.zipIdx_map, List.mapM_map, Function.comp_def, Prod.map, id,
      browseHistoryCallback_hideTexts, mapM_map_comp, mapped]
    rfl

theorem handleList_hideTexts (ran : handleList env sockid mgr db = some handled) :
    handleList env sockid mgr db.hideTexts = some handled.hideTexts := by
  have users : ∀ noise uid, userTokens noise db.hideTexts uid = userTokens noise db uid := fun _ _ => rfl
  unfold handleList at ran ⊢
  simp only [Option.bind_eq_bind, Option.bind_eq_some_iff] at ran
  obtain ⟨uids, collected, listed, made, ran⟩ := ran
  cases ran
  simp only [users, collected, made, Option.bind_eq_bind, Option.bind_some]
  rfl

theorem handleKick_hideTexts (ran : handleKick env sockid tokens mgr db = some handled) :
    handleKick env sockid tokens mgr db.hideTexts = some handled.hideTexts := by
  have users : ∀ noise uid, getLoginByUid noise uid db.hideTexts = getLoginByUid noise uid db :=
    fun _ _ => rfl
  unfold handleKick at ran ⊢
  split at ran
  next other =>
    cases ran
    rw [if_pos other]
    rfl
  next root =>
    simp only [Option.bind_eq_bind, Option.bind_eq_some_iff] at ran
    obtain ⟨wrong, checked, ran⟩ := ran
    simp only [if_neg root, checked, Option.bind_eq_bind, Option.bind_some]
    split at ran
    next bad =>
      cases ran
      rw [if_pos bad]
      rfl
    next good =>
      simp only [Option.bind_eq_some_iff] at ran
      obtain ⟨_, first, kuid, given, ran⟩ := ran
      simp only [if_neg good, first, given, Option.bind_some]
      split at ran
      next absent =>
        cases ran
        rw [if_pos absent]
        rfl
      next there =>
        simp only [Option.bind_eq_some_iff] at ran
        obtain ⟨reason, second, login, named, shown, printed, ran⟩ := ran
        cases ran
        simp only [if_neg there, second, users, named, printed, Option.bind_some]
        -- The reason of a KICK is no chat text.
        rw [Handled.hideTexts, map_hideText]
        intro effect member
        rcases List.mem_append.mp member with kick | announcement
        · obtain ⟨_, _, key, _, rfl | rfl⟩ := mem_kicked kick <;> rfl
        · rw [List.mem_singleton.mp announcement]
          exact textless_metaEvent _ _

/-- The handler of a message, of which a REGULAR is hidden as well. -/
theorem processMessageJobHandler_hideTexts {msg : Message}
    (ran : processMessageJobHandler md5hex env sockid mgr db msg = some handled) :
    processMessageJobHandler md5hex env sockid mgr db.hideTexts msg.hideRequest = some handled.hideTexts := by
  obtain ⟨type, tokens⟩ := msg
  unfold processMessageJobHandler at ran ⊢
  unfold Message.hideRequest
  dsimp only at ran ⊢
  split at ran
  next login =>
    subst login
    exact handleLogin_hideTexts ran
  split at ran
  next logout =>
    subst logout
    cases ran
    rfl
  split at ran
  next regular =>
    subst regular
    exact handleRegular_hideTexts ran
  split at ran
  next history =>
    subst history
    exact handleHistory_hideTexts ran
  split at ran
  next list =>
    subst list
    exact handleList_hideTexts ran
  split at ran
  next kick =>
    subst kick
    exact handleKick_hideTexts ran
  next login logout regular history list kick =>
    cases ran
    simp only [if_neg login, if_neg logout, if_neg regular, if_neg history, if_neg list, if_neg kick]
    rfl

end Handlers

/-! ### The steps -/

theorem closeConnection_hideTexts {env : Env} {sockid : Int32} {core : Core} {effects : List Effect}
    {rest : Option Core} (ran : core.closeConnection env sockid = some (effects, rest)) :
    core.hideTexts.closeConnection env sockid =
      some (effects.map Effect.hideText, rest.map Core.hideTexts) := by
  rw [map_hideText]
  -- A META event has no chat text, so only the database differs.
  · unfold Core.closeConnection at ran ⊢
    have same : core.hideTexts.client sockid = core.client sockid := rfl
    dsimp only at ran ⊢
    rw [same]
    cases freed : (core.client sockid).bind core.conns.free with
    | none =>
      have freed' : (core.client sockid).bind core.hideTexts.conns.free = none := freed
      simp only [freed, Option.some.injEq, Prod.mk.injEq] at ran
      obtain ⟨rfl, rfl⟩ := ran
      rw [freed']
      rfl
    | some conns =>
      have freed' : (core.client sockid).bind core.hideTexts.conns.free = some conns := freed
      simp only [freed, Option.bind_eq_bind, Option.bind_eq_some_iff] at ran
      obtain ⟨events, announced, ran⟩ := ran
      cases ran
      have announced' : Core.logoutEvents env (core.hideTexts.mgr.getUid sockid)
          (core.hideTexts.mgr.getNumberOfSessions (core.hideTexts.mgr.getUid sockid)) core.hideTexts.db =
            some events := announced
      rw [freed']
      simp only [announced', Option.bind_eq_bind, Option.bind_some]
      rfl
  · intro effect member
    rcases closeConnection_effects ran effect member with ⟨_, rfl⟩ | ⟨tstamp, text, rfl⟩
    · rfl
    · exact textless_metaEvent tstamp text

theorem acceptConnection_hideTexts (core : Core) (sockid : Int32) :
    core.hideTexts.acceptConnection sockid = (core.acceptConnection sockid).hideTexts := by
  unfold Core.acceptConnection
  split <;> rfl

@[simp] theorem Message.msgType_hideRequest (msg : Message) : msg.hideRequest.msgType = msg.msgType := by
  unfold Message.hideRequest
  split <;> rfl

theorem sessionStep_hideTexts {md5hex : Block → Block} {core : Core} {action : SessionAction}
    {did : List Observed} {rest : Option Core} (taken : sessionStep md5hex core action = some (did, rest)) :
    sessionStep md5hex core.hideTexts action.hideText =
      some (did.map Observed.hideText, rest.map Core.hideTexts) := by
  cases sessionStep_transition taken with
  | accepted sockid unused =>
    have unused' : sockid ∉ core.hideTexts.openSockets := unused
    simp only [SessionAction.hideText, sessionStep, if_neg unused', acceptConnection_hideTexts]
    rfl
  | closed sockid env effects _ ran =>
    simp only [SessionAction.hideText, sessionStep, closeConnection_hideTexts ran, Option.map_some,
      List.map_map]
    rfl
  | handled c msg env conn effects mgr db there ran =>
    have there' : core.hideTexts.conns.read c = some conn := there
    have ran' : processMessageJobHandler md5hex env conn.sockid core.hideTexts.mgr core.hideTexts.db
        msg.hideRequest = some (effects.map Effect.hideText, mgr, db.hideTexts) :=
      processMessageJobHandler_hideTexts ran
    simp only [SessionAction.hideText, sessionStep, Core.handleJob, there', ran', Option.bind_eq_bind,
      Option.bind_some, Message.msgType_hideRequest, List.map_map]
    rfl

theorem broadcastJobs_hideTexts (evt : Broadcast) (sidToUid : KeyMap UInt64) :
    broadcastJobs evt.hideText sidToUid = (broadcastJobs evt sidToUid).map SendMessageJob.hideText := by
  unfold broadcastJobs
  rw [List.map_map]
  apply List.map_congr_left
  intro key _
  unfold Broadcast.hideText
  split
  next regular => simp [broadcastMessageCallback, SendMessageJob.hideText, regular]
  next other => simp [broadcastMessageCallback, SendMessageJob.hideText, other]

theorem sendMessageJobHandler_hideTexts (job : SendMessageJob) :
    sendMessageJobHandler job.hideText = (sendMessageJobHandler job).map Effect.hideText := by
  unfold sendMessageJobHandler SendMessageJob.tokens SendMessageJob.hideText
  by_cases regular : job.type = messageServerRegular
  · simp only [regular]
    cases job.login <;> rfl
  · simp only [if_neg regular, Option.bind_eq_bind, Option.bind_some, Option.map_some, Effect.hideText,
      Message.hideText]
    -- A frame of two tokens has no text to hide.
    split <;> rfl

theorem frames_hideTexts (core : Core) (effect : Effect) :
    core.hideTexts.frames effect.hideText = (core.frames effect).map ChatSighting.hideText := by
  have same : ∀ sockid, core.hideTexts.client sockid = core.client sockid := fun _ => rfl
  cases effect with
  | sent sockid msg =>
    simp only [Effect.hideText, Core.frames, same]
    cases core.client sockid <;> rfl
  | _ => rfl

theorem sights_hideTexts (core : Core) (did : List Observed) :
    (did.map Observed.hideText).flatMap core.hideTexts.sights =
      (did.flatMap core.sights).map ChatSighting.hideText := by
  rw [List.flatMap_map, List.map_flatMap]
  congr 1
  funext o
  have effect : o.hideText.effect = o.effect.hideText := by cases o <;> rfl
  rw [Core.sights, Core.sights, effect, frames_hideTexts]
  rfl

theorem events_hideTexts (did : List Observed) :
    (did.map Observed.hideText).filterMap (fun o => o.effect.toController) =
      (did.filterMap fun o => o.effect.toController).map Broadcast.hideText := by
  rw [List.filterMap_map, List.map_filterMap]
  congr 1
  funext o
  have event : ∀ effect : Effect, effect.hideText.toController = effect.toController.map Broadcast.hideText := by
    intro effect
    cases effect <;> rfl
  cases o <;> exact event _

/-- Every step of the chat can be taken with hidden texts. -/
theorem chatStep_hideTexts (md5hex : Block → Block) (s : Chat) (action : ChatAction)
    (did : List ChatSighting) (rest : Option Chat) (taken : chatStep md5hex s action = some (did, rest)) :
    chatStep md5hex s.hideTexts action.hideText =
      some (did.map ChatSighting.hideText, rest.map Chat.hideTexts) := by
  have evts : ∀ i, s.hideTexts.broadcasts[i]? = s.broadcasts[i]?.map Broadcast.hideText :=
    fun _ => List.getElem?_map
  have jobs : ∀ i, s.hideTexts.jobs[i]? = s.jobs[i]?.map SendMessageJob.hideText :=
    fun _ => List.getElem?_map
  cases chatStep_transition taken with
  | session action seen core ran =>
    have ran' : sessionStep md5hex s.hideTexts.core action.hideText =
        some (seen.map Observed.hideText, core.map Core.hideTexts) := sessionStep_hideTexts ran
    have sights : (seen.map Observed.hideText).flatMap s.hideTexts.core.sights =
        (seen.flatMap s.core.sights).map ChatSighting.hideText := sights_hideTexts s.core seen
    simp only [chatStep, ChatAction.hideText, ran', sights, events_hideTexts, Option.bind_eq_bind,
      Option.bind_some]
    cases core with
    | none => rfl
    | some core => simp [Chat.hideTexts]
  | broadcast i noise evt db there stored =>
    have stored' : storeBroadcast noise evt.hideText s.hideTexts.core.db = some db.hideTexts := by
      rw [Chat.hideTexts, Core.hideTexts, storeBroadcast_hideTexts, stored]
      rfl
    simp only [chatStep, ChatAction.hideText, broadcastMessageEventHandler, evts, there, stored',
      Option.bind_eq_bind, Option.map_some, Option.bind_some, broadcastJobs_hideTexts]
    simp [Chat.hideTexts, Core.hideTexts, List.eraseIdx_map]
  | crashed i job there unpacked =>
    simp only [chatStep, ChatAction.hideText, jobs, there, Option.bind_eq_bind, Option.map_some,
      Option.bind_some, sendMessageJobHandler_hideTexts, unpacked]
    rfl
  | sent i job effect there packed =>
    simp only [chatStep, ChatAction.hideText, jobs, there, Option.bind_eq_bind, Option.map_some,
      Option.bind_some, sendMessageJobHandler_hideTexts, packed]
    simp [Chat.hideTexts, frames_hideTexts, List.eraseIdx_map]

end AcosChat

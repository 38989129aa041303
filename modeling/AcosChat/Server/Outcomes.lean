import AcosChat.Db.Accounts
import AcosChat.Server.Core

/-!
# What the handlers can do

One case for each way in which `process_message_job_handler` can end, with what it has
checked by then. Only a LOGIN changes the connection manager or the database, and only
KICK, LOGOUT and REGULAR do more than answer the client.
-/
namespace AcosChat

open Std Bytes

/-- A frame for the client itself, and no KICK. -/
def Answers (sockid : Int32) (effects : List Effect) : Prop :=
  ∀ effect ∈ effects, ∃ msg, effect = .sent sockid msg ∧ msg.msgType ≠ messageServerKick

/-- A META event of the server, or nothing. -/
def Announces (effects : List Effect) : Prop :=
  ∀ effect ∈ effects, ∃ tstamp text, effect = metaEvent tstamp text

/-- The ways in which `process_message_job_handler` can end, by the type of the message. -/
inductive Outcome (env : Env) (sockid : Int32) (mgr : ConnMgr) (db : Db) :
    UInt8 → List Effect → ConnMgr → Db → Prop
  | answered (type : UInt8) (effects : List Effect) (plain : Answers sockid effects) :
      Outcome env sockid mgr db type effects mgr db
  | refused (db' : Db) (status : Nat) (grows : Grows db db') :
      Outcome env sockid mgr db messageClientLogin [sendStatusCode sockid status] mgr db'
  | loggedIn (db' : Db) (login : Block) (uid : Int32) (announced : List Effect)
      (grows : Grows db db') (row : ∃ hash, ⟨uid, login, hash⟩ ∈ db'.users)
      (announces : Announces announced) :
      Outcome env sockid mgr db messageClientLogin
        ([.loggedIn login uid, sendStatusCode sockid msgStatusOk] ++ announced)
        ((mgr.addUid uid).connectSidUid sockid uid) db'
  | loggedOut : Outcome env sockid mgr db messageClientLogout [.closeEvent sockid] mgr db
  | regular (login : Option Block) (msg : Block) (authorized : mgr.getUid sockid ≠ nullUid)
      (named : getLoginByUid (env.script 0) (mgr.getUid sockid) db = some login) :
      Outcome env sockid mgr db messageClientRegular
        [.broadcast ⟨env.tstamp, messageServerRegular, login, msg, mgr.getUid sockid⟩] mgr db
  | kicked (kuid : Int32) (reason text : Block) (root : mgr.getUid sockid = rootUid) :
      Outcome env sockid mgr db messageClientKick
        (mgr.forallUid kuid (kickCallback reason) [] ++ [metaEvent env.tstamp text]) mgr db

theorem answers_status (sockid : Int32) (status : Nat) :
    Answers sockid [sendStatusCode sockid status] := by
  intro effect member
  rw [List.mem_singleton] at member
  exact ⟨_, member, (by decide : messageServerStatus ≠ messageServerKick)⟩

theorem mapM_mem {β γ : Type} {f : β → Option γ} {xs : List β} {ys : List γ}
    (mapped : xs.mapM f = some ys) : ∀ y ∈ ys, ∃ x ∈ xs, f x = some y := by
  induction xs generalizing ys with
  | nil =>
    simp only [List.mapM_nil, Option.pure_def, Option.some.injEq] at mapped
    subst mapped
    simp
  | cons x xs ih =>
    simp only [List.mapM_cons, Option.pure_def, Option.bind_eq_bind, Option.bind_eq_some_iff,
      Option.some.injEq] at mapped
    obtain ⟨y, first, rest, later, rfl⟩ := mapped
    intro z member
    rcases List.mem_cons.mp member with rfl | member
    · exact ⟨x, by simp, first⟩
    · obtain ⟨x', inside, made⟩ := ih later z member
      exact ⟨x', by simp [inside], made⟩

theorem forallUid_kickCallback (mgr : ConnMgr) (kuid : Int32) (reason : Block) :
    mgr.forallUid kuid (kickCallback reason) [] =
      (((mgr.sessions kuid).map ExtTreeMap.keys).getD []).flatMap fun key =>
        [.sent (intOfWord key) ⟨messageServerKick, [.pStr reason]⟩, .closeEvent (intOfWord key)] := by
  have fold : ∀ (entries : List (UInt64 × Option Unit)) (effects : List Effect),
      entries.foldl (fun effects entry => kickCallback reason entry.1 effects) effects =
        effects ++ (entries.map Prod.fst).flatMap fun key =>
          [.sent (intOfWord key) ⟨messageServerKick, [.pStr reason]⟩, .closeEvent (intOfWord key)] := by
    intro entries
    induction entries with
    | nil => simp
    | cons entry entries ih =>
      intro effects
      rw [List.foldl_cons, ih, kickCallback, List.append_assoc]
      rfl
  unfold ConnMgr.forallUid
  cases mgr.sessions kuid with
  | none => rfl
  | some m =>
    simp only [fold, List.nil_append, Option.map_some, Option.getD_some,
      ExtTreeMap.map_fst_toList_eq_keys]

/-- A KICK does two things to each socket of the uid. -/
theorem mem_kicked {mgr : ConnMgr} {kuid : Int32} {reason : Block} {effect : Effect}
    (member : effect ∈ mgr.forallUid kuid (kickCallback reason) []) :
    ∃ m, mgr.sessions kuid = some m ∧ ∃ key ∈ m,
      effect = .sent (intOfWord key) ⟨messageServerKick, [.pStr reason]⟩ ∨
        effect = .closeEvent (intOfWord key) := by
  rw [forallUid_kickCallback] at member
  cases found : mgr.sessions kuid with
  | none => simp [found] at member
  | some m =>
    simp only [found, Option.map_some, Option.getD_some, List.mem_flatMap, ExtTreeMap.mem_keys,
      List.mem_cons, List.not_mem_nil, or_false] at member
    exact ⟨m, rfl, member⟩

section Handlers

variable {md5hex : Block → Block} {env : Env} {sockid : Int32} {tokens : List Token}
  {mgr mgr' : ConnMgr} {db db' : Db} {effects : List Effect}

/-- A LOGIN is answered with a status, or it succeeds. -/
theorem handleLogin_cases
    (ran : handleLogin md5hex env sockid tokens mgr db = some (effects, mgr', db')) :
    Grows db db' ∧
      ((∃ status, effects = [sendStatusCode sockid status] ∧ mgr' = mgr) ∨
        ∃ login uid announced, (∃ hash, ⟨uid, login, hash⟩ ∈ db'.users) ∧ Announces announced ∧
          effects = [.loggedIn login uid, sendStatusCode sockid msgStatusOk] ++ announced ∧
          mgr' = (mgr.addUid uid).connectSidUid sockid uid) := by
  unfold handleLogin at ran
  split at ran
  · cases ran
    exact ⟨.same, .inl ⟨_, rfl, rfl⟩⟩
  simp only [Option.bind_eq_bind, Option.bind_eq_some_iff, Prod.exists] at ran
  obtain ⟨_, _, login, _, _, _, passwd, _, uid, after, returned, ran⟩ := ran
  obtain ⟨grows, row⟩ := loginOrRegister_grows _ _ _ _ _ _ _ returned
  split at ran
  next =>
    cases ran
    exact ⟨grows, .inl ⟨_, rfl, rfl⟩⟩
  next signed =>
    cases ran
    refine ⟨grows, .inr ⟨login, uid, _, row.resolve_left signed, ?_, rfl, rfl⟩⟩
    -- There is an announcement if there were no sessions.
    intro effect member
    split at member
    · rw [List.mem_singleton] at member
      exact ⟨_, _, member⟩
    · cases member

theorem handleLogin_outcome
    (ran : handleLogin md5hex env sockid tokens mgr db = some (effects, mgr', db')) :
    Outcome env sockid mgr db messageClientLogin effects mgr' db' := by
  obtain ⟨grows, ⟨status, rfl, rfl⟩ | ⟨login, uid, announced, row, announces, rfl, rfl⟩⟩ :=
    handleLogin_cases ran
  · exact .refused db' status grows
  · exact .loggedIn db' login uid announced grows row announces

/-- A REGULAR is answered with a status, or broadcast for a client that has a uid. -/
theorem handleRegular_cases
    (ran : handleRegular env sockid tokens mgr db = some (effects, mgr', db')) :
    mgr' = mgr ∧ db' = db ∧
      ((∃ status, effects = [sendStatusCode sockid status]) ∨
        ∃ login msg, mgr.getUid sockid ≠ nullUid ∧
          getLoginByUid (env.script 0) (mgr.getUid sockid) db = some login ∧
          effects = [.broadcast ⟨env.tstamp, messageServerRegular, login, msg, mgr.getUid sockid⟩]) := by
  unfold handleRegular at ran
  dsimp only at ran
  split at ran
  · cases ran
    exact ⟨rfl, rfl, .inl ⟨_, rfl⟩⟩
  next authorized =>
    split at ran
    · cases ran
      exact ⟨rfl, rfl, .inl ⟨_, rfl⟩⟩
    simp only [Option.bind_eq_bind, Option.bind_eq_some_iff] at ran
    obtain ⟨login, named, _, _, msg, _, ran⟩ := ran
    cases ran
    exact ⟨rfl, rfl, .inr ⟨login, msg, authorized, named, rfl⟩⟩

theorem handleRegular_outcome
    (ran : handleRegular env sockid tokens mgr db = some (effects, mgr', db')) :
    Outcome env sockid mgr db messageClientRegular effects mgr' db' := by
  obtain ⟨rfl, rfl, ⟨status, rfl⟩ | ⟨login, msg, authorized, named, rfl⟩⟩ := handleRegular_cases ran
  · exact .answered _ _ (answers_status _ _)
  · exact .regular login msg authorized named

/-- A HISTORY is answered with a status, or with frames of its own. -/
theorem handleHistory_cases
    (ran : handleHistory env sockid tokens mgr db = some (effects, mgr', db')) :
    mgr' = mgr ∧ db' = db ∧
      ((∃ status, effects = [sendStatusCode sockid status]) ∨
        ∀ effect ∈ effects, ∃ msg, effect = .sent sockid msg ∧ msg.msgType = messageServerHistory) := by
  unfold handleHistory at ran
  simp only [Option.bind_eq_bind, Option.bind_eq_some_iff] at ran
  obtain ⟨wrong, _, ran⟩ := ran
  split at ran
  · cases ran
    exact ⟨rfl, rfl, .inl ⟨_, rfl⟩⟩
  simp only [Option.bind_eq_some_iff] at ran
  obtain ⟨_, _, _, _, rows, _, sent, mapped, ran⟩ := ran
  cases ran
  refine ⟨rfl, rfl, .inr ?_⟩
  intro effect member
  obtain ⟨⟨row, i⟩, _, made⟩ := mapM_mem mapped effect member
  simp only [browseHistoryCallback, Option.bind_eq_bind, Option.bind_eq_some_iff,
    Option.some.injEq] at made
  obtain ⟨_, _, _, _, rfl⟩ := made
  exact ⟨_, rfl, rfl⟩

theorem handleHistory_outcome
    (ran : handleHistory env sockid tokens mgr db = some (effects, mgr', db')) (type : UInt8) :
    Outcome env sockid mgr db type effects mgr' db' := by
  obtain ⟨rfl, rfl, ⟨status, rfl⟩ | frames⟩ := handleHistory_cases ran
  · exact .answered _ _ (answers_status _ _)
  · refine .answered _ _ ?_
    intro effect member
    obtain ⟨msg, rfl, type⟩ := frames effect member
    exact ⟨msg, rfl, type ▸ (by decide : messageServerHistory ≠ messageServerKick)⟩

/-- A LIST is answered with one frame. -/
theorem handleList_cases (ran : handleList env sockid mgr db = some (effects, mgr', db')) :
    mgr' = mgr ∧ db' = db ∧ ∃ tokens, effects = [.sent sockid ⟨messageServerList, tokens⟩] := by
  unfold handleList at ran
  simp only [Option.bind_eq_bind, Option.bind_eq_some_iff] at ran
  obtain ⟨users, _, tokens, _, ran⟩ := ran
  cases ran
  exact ⟨rfl, rfl, _, rfl⟩

theorem handleList_outcome
    (ran : handleList env sockid mgr db = some (effects, mgr', db')) (type : UInt8) :
    Outcome env sockid mgr db type effects mgr' db' := by
  obtain ⟨rfl, rfl, tokens, rfl⟩ := handleList_cases ran
  refine .answered _ _ ?_
  intro effect member
  rw [List.mem_singleton] at member
  exact ⟨_, member, (by decide : messageServerList ≠ messageServerKick)⟩

/-- A KICK is answered with a status, or root ends the sessions of a uid. -/
theorem handleKick_cases
    (ran : handleKick env sockid tokens mgr db = some (effects, mgr', db')) :
    mgr' = mgr ∧ db' = db ∧
      ((∃ status, effects = [sendStatusCode sockid status]) ∨
        ∃ kuid reason text, mgr.getUid sockid = rootUid ∧
          effects = mgr.forallUid kuid (kickCallback reason) [] ++ [metaEvent env.tstamp text]) := by
  unfold handleKick at ran
  split at ran
  · cases ran
    exact ⟨rfl, rfl, .inl ⟨_, rfl⟩⟩
  next root =>
    simp only [Option.bind_eq_bind, Option.bind_eq_some_iff] at ran
    obtain ⟨wrong, _, ran⟩ := ran
    split at ran
    · cases ran
      exact ⟨rfl, rfl, .inl ⟨_, rfl⟩⟩
    simp only [Option.bind_eq_some_iff] at ran
    obtain ⟨_, _, kuid, _, ran⟩ := ran
    split at ran
    · cases ran
      exact ⟨rfl, rfl, .inl ⟨_, rfl⟩⟩
    simp only [Option.bind_eq_some_iff] at ran
    obtain ⟨reason, _, login, _, shown, _, ran⟩ := ran
    cases ran
    exact ⟨rfl, rfl, .inr ⟨kuid, reason, _, not_not.mp root, rfl⟩⟩

theorem handleKick_outcome
    (ran : handleKick env sockid tokens mgr db = some (effects, mgr', db')) :
    Outcome env sockid mgr db messageClientKick effects mgr' db' := by
  obtain ⟨rfl, rfl, ⟨status, rfl⟩ | ⟨kuid, reason, text, root, rfl⟩⟩ := handleKick_cases ran
  · exact .answered _ _ (answers_status _ _)
  · exact .kicked kuid reason text root

/-- Every way in which the handler ends. -/
theorem processMessageJobHandler_outcome {msg : Message}
    (ran : processMessageJobHandler md5hex env sockid mgr db msg = some (effects, mgr', db')) :
    Outcome env sockid mgr db msg.msgType effects mgr' db' := by
  unfold processMessageJobHandler at ran
  split at ran
  next type => exact type ▸ handleLogin_outcome ran
  split at ran
  next type =>
    cases ran
    exact type ▸ .loggedOut
  split at ran
  next type => exact type ▸ handleRegular_outcome ran
  split at ran
  next => exact handleHistory_outcome ran _
  split at ran
  next => exact handleList_outcome ran _
  split at ran
  next type => exact type ▸ handleKick_outcome ran
  next =>
    cases ran
    exact .answered _ _ (answers_status _ _)

end Handlers

end AcosChat

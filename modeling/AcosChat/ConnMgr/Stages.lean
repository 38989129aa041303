import AcosChat.ConnMgr.Agreement

/-!
# The calls of the connection manager, map by map

Each call of `server/conn_mgr.c` is a sequence of operations of `ts_map`, between which other
threads can come to the maps: `mgr->mutex` keeps out other calls only. Run without a pause
the operations make up the call.
-/
namespace AcosChat

open Std

/-- The operation that a call is about to do. -/
inductive CallStage where
  /-- `ts_map_insert(&mgr->sid_to_uid, sid, 0)` of `conn_mgr_add_sid` -/
  | insertSid (sid : Int32)
  /-- `ts_map_insert(&mgr->uid_to_sid, uid, m)` of `conn_mgr_add_uid` -/
  | insertUid (uid : Int32)
  /-- `ts_map_has(&mgr->sid_to_uid, sid)` of `conn_mgr_connect_sid_uid` -/
  | has (sid uid : Int32)
  /-- `ts_map_erase(&mgr->sid_to_uid, sid)`, of `conn_mgr_del_sid`, or of
  `conn_mgr_connect_sid_uid` with the uid that is to come. -/
  | erase (sid : Int32) (next : Option Int32)
  /-- `ts_map_find(&mgr->uid_to_sid, uid)` for the uid that the socket had. -/
  | find (sid uid : Int32) (next : Option Int32)
  /-- `ts_map_erase(m, sid)` -/
  | forget (sid uid : Int32) (next : Option Int32)
  /-- `ts_map_insert(&mgr->sid_to_uid, sid, uid)` -/
  | insert (sid uid : Int32)
  /-- `ts_map_find(&mgr->uid_to_sid, uid)` for the uid that the socket has now. -/
  | findNew (sid uid : Int32)
  /-- `ts_map_insert(m, sid, NULL)` -/
  | join (sid uid : Int32)
  /-- UNLOCK -/
  | unlock
deriving DecidableEq, Repr

namespace CallStage

/-- What comes when the socket is out of both maps. -/
def takenOut (sid : Int32) : Option Int32 → CallStage
  | none => .unlock
  | some uid => .insert sid uid

/-- The operation, and the one that comes after it. -/
def advance (mgr : ConnMgr) : CallStage → ConnMgr × CallStage
  | .insertSid sid => (mgr.addSid sid, .unlock)
  | .insertUid uid => (mgr.addUid uid, .unlock)
  | .has sid uid =>
    (mgr, if mgr.sidToUid.contains (wordOfInt sid) then .erase sid (some uid) else .unlock)
  | .erase sid next =>
    ({ mgr with sidToUid := mgr.sidToUid.erase (wordOfInt sid) },
      .find sid (ptrUid (mgr.sidToUid[wordOfInt sid]?).join) next)
  | .find sid uid next =>
    (mgr, if (mgr.sessions uid).isSome then .forget sid uid next else takenOut sid next)
  | .forget sid uid next =>
    (mgr.updateSessions uid fun m => m.erase (wordOfInt sid), takenOut sid next)
  | .insert sid uid =>
    ({ mgr with sidToUid := mgr.sidToUid.insertIfNew (wordOfInt sid) (uidPtr uid) }, .findNew sid uid)
  | .findNew sid uid => (mgr, if (mgr.sessions uid).isSome then .join sid uid else .unlock)
  | .join sid uid => (mgr.updateSessions uid fun m => m.insertIfNew (wordOfInt sid) none, .unlock)
  | .unlock => (mgr, .unlock)

/-- So many operations one after another. -/
def through (mgr : ConnMgr) (stage : CallStage) : Nat → ConnMgr × CallStage
  | 0 => (mgr, stage)
  | rounds + 1 => through (stage.advance mgr).1 (stage.advance mgr).2 rounds

end CallStage

/-- The calls of the server's threads that change the maps. -/
inductive MgrCall where
  | addSid (sid : Int32)
  | addUid (uid : Int32)
  | delSid (sid : Int32)
  | connectSidUid (sid uid : Int32)
deriving DecidableEq, Repr

/-- The first operation after LOCK. -/
def MgrCall.entry : MgrCall → CallStage
  | .addSid sid => .insertSid sid
  | .addUid uid => .insertUid uid
  | .delSid sid => .erase sid none
  | .connectSidUid sid uid => .has sid uid

/-- The call as one step. -/
def MgrCall.whole (mgr : ConnMgr) : MgrCall → ConnMgr
  | .addSid sid => mgr.addSid sid
  | .addUid uid => mgr.addUid uid
  | .delSid sid => mgr.delSid sid
  | .connectSidUid sid uid => mgr.connectSidUid sid uid

namespace CallStage

/-- Without a pause the one leads to the other. -/
def Leads (mgr : ConnMgr) (stage : CallStage) (mgr' : ConnMgr) (stage' : CallStage) : Prop :=
  ∃ rounds, through mgr stage rounds = (mgr', stage')

variable {mgr mgr' mgr'' : ConnMgr} {stage stage' stage'' : CallStage}

theorem Leads.refl : Leads mgr stage mgr stage := ⟨0, rfl⟩

/-- The first operation, and then the others. -/
theorem Leads.head (first : stage.advance mgr = (mgr', stage')) (rest : Leads mgr' stage' mgr'' stage'') :
    Leads mgr stage mgr'' stage'' := by
  obtain ⟨rounds, rest⟩ := rest
  refine ⟨rounds + 1, ?_⟩
  rw [through, first]
  exact rest

theorem updateSessions_of_none {uid : Int32} {f : Sessions → Sessions}
    (null : (mgr.sessions uid).isSome = false) : mgr.updateSessions uid f = mgr := by
  rw [Option.isSome_eq_false_iff, Option.isNone_iff_eq_none] at null
  rw [ConnMgr.updateSessions, null]

/-- From the erase of `sid_to_uid` on the socket is taken out as `conn_mgr_del_sid` does it. -/
theorem leads_takenOut (mgr : ConnMgr) (sid : Int32) (next : Option Int32)
    (rest : Leads (mgr.delSid sid) (takenOut sid next) mgr' stage') :
    Leads mgr (.erase sid next) mgr' stage' := by
  refine .head rfl ?_
  -- `ts_map_find` on `uid_to_sid` decides whether there is a set to erase from.
  cases there : (ConnMgr.sessions { mgr with sidToUid := mgr.sidToUid.erase (wordOfInt sid) }
      (ptrUid (mgr.sidToUid[wordOfInt sid]?).join)).isSome with
  | true =>
    refine .head (by rw [advance, if_pos there]) ?_
    exact .head rfl rest
  | false =>
    refine .head (by rw [advance, if_neg (by simp [there])]) ?_
    rwa [ConnMgr.delSid, updateSessions_of_none there] at rest

/-- From the insert into `sid_to_uid` on the socket gets its new uid. -/
theorem leads_connected (mgr : ConnMgr) (sid uid : Int32) :
    Leads mgr (.insert sid uid)
      (ConnMgr.updateSessions { mgr with sidToUid := mgr.sidToUid.insertIfNew (wordOfInt sid) (uidPtr uid) }
        uid fun m => m.insertIfNew (wordOfInt sid) none) .unlock := by
  refine .head rfl ?_
  cases there : (ConnMgr.sessions
      { mgr with sidToUid := mgr.sidToUid.insertIfNew (wordOfInt sid) (uidPtr uid) } uid).isSome with
  | true =>
    refine .head (by rw [advance, if_pos there]) ?_
    exact .head rfl .refl
  | false =>
    refine .head (by rw [advance, if_neg (by simp [there])]) ?_
    rw [updateSessions_of_none there]
    exact .refl

end CallStage

open CallStage in
/-- A call without a pause does what it does as one step. -/
theorem MgrCall.leads (mgr : ConnMgr) (call : MgrCall) :
    Leads mgr call.entry (call.whole mgr) .unlock := by
  cases call with
  | addSid sid => exact .head rfl .refl
  | addUid uid => exact .head rfl .refl
  | delSid sid => exact leads_takenOut mgr sid none .refl
  | connectSidUid sid uid =>
    rw [MgrCall.whole, ConnMgr.connectSidUid]
    split
    next registered =>
      refine .head (by rw [MgrCall.entry, advance, if_pos registered]) ?_
      exact leads_takenOut mgr sid (some uid) (leads_connected _ sid uid)
    next missing =>
      refine .head (by rw [MgrCall.entry, advance, if_neg missing]) ?_
      exact .refl

end AcosChat

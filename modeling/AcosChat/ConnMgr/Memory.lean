import AcosChat.ConnMgr.Agreement

/-!
# The memory of the connection manager

`server/conn_mgr.c` over the trees of `ts_map`: `uid_to_sid` holds pointers to maps that
`conn_mgr_add_uid` allocates. The finite maps of `ConnMgr` are what these trees stand for.
-/
namespace AcosChat

open Std Store TsMap

/-- `conn_mgr_t`, with the heap of the sets that `uid_to_sid` points to. -/
structure MgrMemory where
  sidToUid : TsMap UInt64
  uidToSid : TsMap Nat
  sets : Store (TsMap Unit)
  /-- The sets that have been freed, as they were then. -/
  freed : List (TsMap Unit)

namespace MgrMemory

/-- `init_conn_mgr` -/
def init : MgrMemory := ⟨tsMapInit, tsMapInit, Store.empty, []⟩

/-- A call of `ts_map` on the set at an address. -/
def callOn {ρ : Type} (mem : MgrMemory) (m : Nat) (f : TsMap Unit → Option (ρ × TsMap Unit)) :
    Option (ρ × MgrMemory) := do
  let set ← mem.sets.read m
  let (answer, set) ← f set
  let sets ← mem.sets.modify m fun _ => set
  some (answer, { mem with sets := sets })

/-- `ts_map_destroy(m, NULL); free(m);`, which is also `map_destroyer`. -/
def discard (mem : MgrMemory) (m : Nat) : Option MgrMemory := do
  let set ← mem.sets.read m
  let (set, _) ← tsMapDestroy none set ()
  let sets ← mem.sets.free m
  some { mem with sets := sets, freed := mem.freed ++ [set] }

/-- `ts_map_find(&mgr->uid_to_sid, uid)` -/
def findSet (mem : MgrMemory) (uid : Int32) : Option (Option Nat × MgrMemory) :=
  (tsMapFind mem.uidToSid (wordOfInt uid)).map fun (m, map) => (m, { mem with uidToSid := map })

/-- `ts_map_erase(&mgr->sid_to_uid, sid)` -/
def eraseSid (mem : MgrMemory) (key : UInt64) : Option (Option UInt64 × MgrMemory) :=
  (tsMapErase mem.sidToUid key).map fun (uid, map) => (uid, { mem with sidToUid := map })

/-- `ts_map_insert(&mgr->sid_to_uid, sid, uid)` -/
def insertSid (mem : MgrMemory) (sid : Int32) (uid : Option UInt64) : Option MgrMemory :=
  (tsMapInsert mem.sidToUid (wordOfInt sid) uid).map fun (_, map) => { mem with sidToUid := map }

/-- `m = ts_map_find(&mgr->uid_to_sid, uid)`, and a call on the set if `m` is not null. -/
def updateSet {ρ : Type} (mem : MgrMemory) (uid : Int32) (f : TsMap Unit → Option (ρ × TsMap Unit)) :
    Option (Option ρ × MgrMemory) := do
  let (m, mem) ← mem.findSet uid
  match m with
  | none => some (none, mem)
  | some m => (mem.callOn m f).map fun (answer, mem) => (some answer, mem)

/-- `conn_mgr_add_sid` -/
def addSid (mem : MgrMemory) (sid : Int32) : Option MgrMemory := mem.insertSid sid none

/-- `conn_mgr_add_uid`; `calloc` is taken to succeed, as the source does. -/
def addUid (mem : MgrMemory) (uid : Int32) : Option MgrMemory := do
  let (m, sets) := mem.sets.alloc tsMapInit
  let mem := { mem with sets := sets }
  let (success, map) ← tsMapInsert mem.uidToSid (wordOfInt uid) (some m)
  let mem := { mem with uidToSid := map }
  if success then some mem else mem.discard m

/-- `conn_mgr_del_sid` -/
def delSid (mem : MgrMemory) (sid : Int32) : Option MgrMemory := do
  let (uid, mem) ← mem.eraseSid (wordOfInt sid)
  let (_, mem) ← mem.updateSet (ptrUid uid) fun m => tsMapErase m (wordOfInt sid)
  some mem

/-- `del_uid_helper` -/
def delUidHelper (key : UInt64) (mem : Option MgrMemory) : Option MgrMemory := do
  let mem ← mem
  let (_, mem) ← mem.eraseSid key
  some mem

/-- `conn_mgr_del_uid` -/
def delUid (mem : MgrMemory) (uid : Int32) : Option MgrMemory := do
  let (m, map) ← tsMapErase mem.uidToSid (wordOfInt uid)
  let mem := { mem with uidToSid := map }
  match m with
  | none => some mem
  | some m => do
    let set ← mem.sets.read m
    let mem ← (tsMapForall (fun key _ mem => delUidHelper key mem) set (some mem)).join
    mem.discard m

/-- `conn_mgr_connect_sid_uid` -/
def connectSidUid (mem : MgrMemory) (sid uid : Int32) : Option MgrMemory := do
  let (has, map) ← tsMapHas mem.sidToUid (wordOfInt sid)
  let mem := { mem with sidToUid := map }
  if has then do
    let (oldUid, mem) ← mem.eraseSid (wordOfInt sid)
    let (_, mem) ← mem.updateSet (ptrUid oldUid) fun m => tsMapErase m (wordOfInt sid)
    let mem ← mem.insertSid sid (uidPtr uid)
    let (_, mem) ← mem.updateSet uid fun m => tsMapInsert m (wordOfInt sid) none
    some mem
  else some mem

/-- `conn_mgr_get_uid` -/
def getUid (mem : MgrMemory) (sid : Int32) : Option (Int32 × MgrMemory) :=
  (tsMapFind mem.sidToUid (wordOfInt sid)).map fun (uid, map) => (ptrUid uid, { mem with sidToUid := map })

/-- `conn_mgr_forall_uid` -/
def forallUid {σ : Type} (mem : MgrMemory) (uid : Int32) (callback : UInt64 → σ → σ) (state : σ) :
    Option (σ × MgrMemory) := do
  let (visited, mem) ← mem.updateSet uid fun m =>
    (tsMapForall (fun key _ state => callback key state) m state).map fun state => (state, m)
  some (visited.getD state, mem)

/-- `conn_mgr_get_number_of_sessions` -/
def getNumberOfSessions (mem : MgrMemory) (uid : Int32) : Option (Int32 × MgrMemory) := do
  let (ans, mem) ← mem.updateSet uid fun m => (numberOfSessions (some m)).map fun ans => (ans, m)
  some (ans.getD 0, mem)

/-- `user_list_callback`; a null set would be dereferenced. -/
def userListCallback (mem : MgrMemory) (key : UInt64) (val : Option Nat) (users : Option (List Int32)) :
    Option (List Int32) := do
  let users ← users
  let m ← val
  let set ← mem.sets.read m
  let size ← tsMapSize set
  let uid := intOfWord key
  some (if size ≠ 0 ∧ uid ≠ nullUid then users ++ [uid] else users)

/-- The uids that LIST collects. -/
def userList (mem : MgrMemory) : Option (List Int32) :=
  (tsMapForall mem.userListCallback mem.uidToSid (some [])).join

/-- `destroy_conn_mgr` -/
def destroy (mem : MgrMemory) : Option MgrMemory := do
  let (map, _) ← tsMapDestroy none mem.sidToUid ()
  let mem := { mem with sidToUid := map }
  let mapDestroyer : Option Nat → Option MgrMemory → Option MgrMemory :=
    fun val mem => mem.bind fun mem => val.bind mem.discard
  let (map, mem) ← tsMapDestroy (some mapDestroyer) mem.uidToSid (some mem)
  let mem ← mem
  some { mem with uidToSid := map }

end MgrMemory

/-! ### Calls and their answers -/

inductive MgrRequest where
  | change (call : ConnCall)
  | getUid (sid : Int32)
  | forallUid (uid : Int32)
  | getNumberOfSessions (uid : Int32)
  | userList
deriving DecidableEq, Repr

inductive MgrAnswer where
  | done
  | uid (uid : Int32)
  /-- The keys that `callback` was called with, in order. -/
  | visited (keys : List UInt64)
  | number (ans : Int32)
  | users (uids : Option (List Int32))
deriving DecidableEq, Repr

/-- The answer of the finite maps, and the maps after the call. -/
def ConnMgr.answer (mgr : ConnMgr) : MgrRequest → MgrAnswer × ConnMgr
  | .change call => (.done, mgr.call call)
  | .getUid sid => (.uid (mgr.getUid sid), mgr)
  | .forallUid uid => (.visited (mgr.forallUid uid (fun key keys => keys ++ [key]) []), mgr)
  | .getNumberOfSessions uid => (.number (mgr.getNumberOfSessions uid), mgr)
  | .userList => (.users (AcosChat.userList mgr), mgr)

def ConnMgr.answers (mgr : ConnMgr) : List MgrRequest → List MgrAnswer × ConnMgr
  | [] => ([], mgr)
  | request :: later =>
    let (answer, mgr) := mgr.answer request
    let (answers, mgr) := mgr.answers later
    (answer :: answers, mgr)

namespace MgrMemory

def call (mem : MgrMemory) : ConnCall → Option MgrMemory
  | .addSid sid => mem.addSid sid
  | .addUid uid => mem.addUid uid
  | .delSid sid => mem.delSid sid
  | .delUid uid => mem.delUid uid
  | .connectSidUid sid uid => mem.connectSidUid sid uid

def answer (mem : MgrMemory) : MgrRequest → Option (MgrAnswer × MgrMemory)
  | .change call => (mem.call call).map fun mem => (.done, mem)
  | .getUid sid => (mem.getUid sid).map fun (uid, mem) => (.uid uid, mem)
  | .forallUid uid =>
    (mem.forallUid uid (fun key keys => keys ++ [key]) []).map fun (keys, mem) => (.visited keys, mem)
  | .getNumberOfSessions uid => (mem.getNumberOfSessions uid).map fun (ans, mem) => (.number ans, mem)
  | .userList => mem.userList.map fun uids => (.users (some uids), mem)

def answers (mem : MgrMemory) : List MgrRequest → Option (List MgrAnswer × MgrMemory)
  | [] => some ([], mem)
  | request :: later => do
    let (answer, mem) ← mem.answer request
    let (answers, mem) ← mem.answers later
    some (answer :: answers, mem)

end MgrMemory

end AcosChat

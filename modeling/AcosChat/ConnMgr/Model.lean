import AcosChat.Defines
import AcosChat.TsMap.Invariant

/-!
# The connection manager

`server/conn_mgr.c`, over the finite maps that `ts_map` refines. Every function holds
`mgr->mutex`, so a call is one step. Sockets and uids are `int`s; as keys they are
extended to 64 bits, and a uid is kept in the pointer that is the value of its socket.
-/
namespace AcosChat

open Std

/-- `int` to `uint64_t` -/
def wordOfInt (i : Int32) : UInt64 := i.toInt64.toUInt64

/-- `(int)` of a `uint64_t` -/
def intOfWord (word : UInt64) : Int32 := word.toInt64.toInt32

/-- `(void *)(uint64_t) uid` -/
def uidPtr (uid : Int32) : Option UInt64 := if wordOfInt uid = 0 then none else some (wordOfInt uid)

/-- `(int)(uint64_t)` of a pointer -/
def ptrUid (ptr : Option UInt64) : Int32 := intOfWord (ptr.getD 0)

/-- A set of sockets: a `ts_map_t` whose values are null. -/
abbrev Sessions := KeyMap Unit

/-- `conn_mgr_t` -/
structure ConnMgr where
  sidToUid : KeyMap UInt64
  uidToSid : KeyMap Sessions

/-- `init_conn_mgr` -/
def initConnMgr : ConnMgr := ⟨∅, ∅⟩

namespace ConnMgr

/-- `ts_map_find(&mgr->uid_to_sid, uid)` -/
def sessions (mgr : ConnMgr) (uid : Int32) : Option Sessions := (mgr.uidToSid[wordOfInt uid]?).join

/-- A call on the set of a uid, unless `ts_map_find` returns the null pointer. -/
def updateSessions (mgr : ConnMgr) (uid : Int32) (f : Sessions → Sessions) : ConnMgr :=
  match mgr.sessions uid with
  | none => mgr
  | some m => { mgr with uidToSid := mgr.uidToSid.insert (wordOfInt uid) (some (f m)) }

/-- `conn_mgr_add_sid` -/
def addSid (mgr : ConnMgr) (sid : Int32) : ConnMgr :=
  { mgr with sidToUid := mgr.sidToUid.insertIfNew (wordOfInt sid) none }

/-- `conn_mgr_add_uid` -/
def addUid (mgr : ConnMgr) (uid : Int32) : ConnMgr :=
  { mgr with uidToSid := mgr.uidToSid.insertIfNew (wordOfInt uid) (some ∅) }

/-- `conn_mgr_del_sid` -/
def delSid (mgr : ConnMgr) (sid : Int32) : ConnMgr :=
  let uid := ptrUid (mgr.sidToUid[wordOfInt sid]?).join
  let mgr := { mgr with sidToUid := mgr.sidToUid.erase (wordOfInt sid) }
  mgr.updateSessions uid fun m => m.erase (wordOfInt sid)

/-- `del_uid_helper` -/
def delUidHelper (key : UInt64) (mgr : ConnMgr) : ConnMgr :=
  { mgr with sidToUid := mgr.sidToUid.erase key }

/-- `conn_mgr_del_uid` -/
def delUid (mgr : ConnMgr) (uid : Int32) : ConnMgr :=
  let m := mgr.sessions uid
  let mgr := { mgr with uidToSid := mgr.uidToSid.erase (wordOfInt uid) }
  match m with
  | none => mgr
  | some m => m.toList.foldl (fun mgr entry => mgr.delUidHelper entry.1) mgr

/-- `conn_mgr_connect_sid_uid`; it takes the socket out as `conn_mgr_del_sid` does. -/
def connectSidUid (mgr : ConnMgr) (sid uid : Int32) : ConnMgr :=
  if mgr.sidToUid.contains (wordOfInt sid) then
    let mgr := mgr.delSid sid
    let mgr := { mgr with sidToUid := mgr.sidToUid.insertIfNew (wordOfInt sid) (uidPtr uid) }
    mgr.updateSessions uid fun m => m.insertIfNew (wordOfInt sid) none
  else mgr

/-- `conn_mgr_get_uid` -/
def getUid (mgr : ConnMgr) (sid : Int32) : Int32 := ptrUid (mgr.sidToUid[wordOfInt sid]?).join

/-- `conn_mgr_forall_uid`; the callbacks use the key only. -/
def forallUid {σ : Type} (mgr : ConnMgr) (uid : Int32) (callback : UInt64 → σ → σ) (state : σ) : σ :=
  match mgr.sessions uid with
  | none => state
  | some m => m.toList.foldl (fun state entry => callback entry.1 state) state

/-- `conn_mgr_get_number_of_sessions` -/
def getNumberOfSessions (mgr : ConnMgr) (uid : Int32) : Int32 :=
  match mgr.sessions uid with
  | none => 0
  | some m => Int32.ofNat m.size

/-- The source reads the count off the root of the set's tree. -/
theorem getNumberOfSessions_eq_read {mgr : ConnMgr} {uid : Int32} {set : Sessions} {m : TsMap Unit}
    (found : mgr.sessions uid = some set) (refines : Refines m set) :
    numberOfSessions (some m) = some (mgr.getNumberOfSessions uid) := by
  obtain ⟨t, tracks⟩ := refines
  have size := tracks.enumerates.size_eq tracks.sorted.increasing
  rw [List.length_map] at size
  rw [tracks.spans.sizes.2]
  simp only [getNumberOfSessions, found, size]

end ConnMgr

/-- `user_list_callback`; a null set would be dereferenced. -/
def userListCallback (entry : UInt64 × Option Sessions) (users : List Int32) : Option (List Int32) :=
  let uid := intOfWord entry.1
  entry.2.map fun set => if set.size ≠ 0 ∧ uid ≠ nullUid then users ++ [uid] else users

/-- The uids that LIST collects. -/
def userList (mgr : ConnMgr) : Option (List Int32) :=
  mgr.uidToSid.toList.foldlM (fun users entry => userListCallback entry users) []

end AcosChat

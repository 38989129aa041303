import AcosChat.ConnMgr.Agreement
import AcosChat.Server.Jobs

/-!
# Jobs that send messages

`broadcast_message_event_handler` of `server/events/broadcast_message_event.c` and the job of
`server/events/send_message_job.c` that it makes for each socket of `sid_to_uid`.
-/
namespace AcosChat

open Bytes

/-- `send_message_job_t` -/
structure SendMessageJob where
  sid : Int32
  tstamp : UInt64
  type : UInt8
  login : Option Block
  msg : Block
deriving DecidableEq, Repr

/-- `broadcast_message_callback` -/
def broadcastMessageCallback (evt : Broadcast) (key : UInt64) : SendMessageJob :=
  ⟨intOfWord key, evt.tstamp, evt.type, evt.login, evt.msg⟩

/-- `ts_map_forall` with the callback, over `sid_to_uid`. -/
def broadcastJobs (evt : Broadcast) (sidToUid : KeyMap UInt64) : List SendMessageJob :=
  sidToUid.keys.map (broadcastMessageCallback evt)

/-- The INSERT of `broadcast_message_event_handler`. -/
def storeBroadcast (noise : List Noise) (evt : Broadcast) (db : Db) : Option Db :=
  if evt.type = messageServerRegular then
    insertMessage noise ⟨evt.uid, evt.msg, evt.tstamp.toInt64⟩ db
  else some db

/-- `broadcast_message_event_handler`: the jobs and the database; `none` while it runs. -/
def broadcastMessageEventHandler (noise : List Noise) (evt : Broadcast) (mgr : ConnMgr) (db : Db) :
    Option (List SendMessageJob × Db) := do
  let db ← storeBroadcast noise evt db
  some (broadcastJobs evt mgr.sidToUid, db)

/-- The tokens that `send_message_job_handler` pushes; packing a null login would crash. -/
def SendMessageJob.tokens (job : SendMessageJob) : Option (List Token) :=
  if job.type = messageServerRegular then do
    let login ← job.login
    some [.int64 job.tstamp, cStr login, cStr job.msg]
  else some [.int64 job.tstamp, cStr job.msg]

/-- `send_message_job_handler` -/
def sendMessageJobHandler (job : SendMessageJob) : Option Effect := do
  let tokens ← job.tokens
  some (.sent job.sid ⟨job.type, tokens⟩)

/-- A job for a socket is for the socket of its key. -/
@[simp] theorem sid_broadcastMessageCallback (evt : Broadcast) (sid : Int32) :
    broadcastMessageCallback evt (wordOfInt sid) = ⟨sid, evt.tstamp, evt.type, evt.login, evt.msg⟩ := by
  rw [broadcastMessageCallback]
  simp

end AcosChat

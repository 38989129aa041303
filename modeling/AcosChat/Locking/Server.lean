import AcosChat.Locking.Model

/-!
# The mutexes of the server

`main` of the server and all that it calls, with the threads that it starts: the controller,
the listener, and as many workers as the controller is asked for. Where the source follows a
pointer to the sessions of a user, or allocates a vector, the address is left open. `in_worker`,
`workers_cnt` and the bytes of a connection have no mutex and are left out.
-/
namespace AcosChat.Locking.Server

open Locks Code Mutex

/-! ### `conn_mgr.c` -/

def initConnMgr : LockCode := locked mgr (block [tsMapInit sidToUid, tsMapInit uidToSid])

def mapDestroyer : LockCode := any fun m => tsMapDestroy (session m) skip

def destroyConnMgr : LockCode :=
  locked mgr (block [tsMapDestroy sidToUid skip, tsMapDestroy uidToSid mapDestroyer])

def connMgrAddSid : LockCode := locked mgr (tsMapInsert sidToUid)

def connMgrAddUid : LockCode :=
  locked mgr (any fun m => block [tsMapInit (session m), tsMapInsert uidToSid,
    perhaps (tsMapDestroy (session m) skip)])

def connMgrDelSid : LockCode :=
  locked mgr (block [tsMapErase sidToUid, tsMapFind uidToSid,
    perhaps (any fun m => tsMapErase (session m))])

def delUidHelper : LockCode := tsMapErase sidToUid

def connMgrDelUid : LockCode :=
  locked mgr (block [tsMapErase uidToSid, perhaps (any fun m =>
    block [tsMapForall (session m) delUidHelper, tsMapDestroy (session m) skip])])

def connMgrConnectSidUid : LockCode :=
  locked mgr (block [tsMapHas sidToUid, perhaps (block [
    tsMapErase sidToUid, tsMapFind uidToSid, perhaps (any fun m => tsMapErase (session m)),
    tsMapInsert sidToUid, tsMapFind uidToSid, perhaps (any fun m => tsMapInsert (session m))])])

def connMgrGetUid : LockCode := locked mgr (tsMapFind sidToUid)

def connMgrForallUid (callback : LockCode) : LockCode :=
  locked mgr (block [tsMapFind uidToSid, perhaps (any fun m => tsMapForall (session m) callback)])

/-- `m->root` is read without the mutex of `m`. -/
def connMgrGetNumberOfSessions : LockCode :=
  locked mgr (block [tsMapFind uidToSid, perhaps (any fun m => read (session m))])

/-! ### The events and jobs -/

def broadcastMessageCallback : LockCode := sendEvent .workers

def broadcastMessageEventHandler : LockCode := tsMapForall sidToUid broadcastMessageCallback

def inputMsgEventHandler : LockCode :=
  any fun tokens => block [unpackMessage2 tokens, either sendStatusCode (sendEvent .workers)]

def processMessageJobDeleter : LockCode := any deleteMessage

def browseHistoryCallback : LockCode := sendTokens

def browseHistory (callback : LockCode) : LockCode := loop callback

def userListCallback (users : Nat) : LockCode :=
  block [any fun m => tsMapSize (session m), perhaps (tsVectorPushBack (vector users))]

def kickCallback : LockCode := block [sendTokens, sendEvent .listener]

def sendMessageJobHandler : LockCode := sendTokens

def processLogin : LockCode :=
  either sendStatusCode (either sendStatusCode (block [
    connMgrGetNumberOfSessions, connMgrAddUid, connMgrConnectSidUid, sendStatusCode, log,
    perhaps (sendEvent .controller)]))

def processLogout : LockCode := sendEvent .listener

def processRegular : LockCode :=
  block [connMgrGetUid, either sendStatusCode (either sendStatusCode (sendEvent .controller))]

def processHistory : LockCode := either sendStatusCode (browseHistory browseHistoryCallback)

def processList : LockCode :=
  any fun users => block [tsVectorInit (vector users), tsMapForall uidToSid (userListCallback users),
    any fun tokens => block [tsVectorInit (vector tokens), loop (tsVectorPushBack (vector tokens)),
      tsVectorDestroy (vector users), sendMessage, deleteMessage tokens]]

def processKick : LockCode :=
  block [connMgrGetUid, either sendStatusCode (either sendStatusCode (block [
    connMgrGetNumberOfSessions, either sendStatusCode (block [
      connMgrForallUid kickCallback, sendEvent .controller])]))]

/-- The branches of the `switch`, each under a name of its own, and the `default`. -/
def processMessageJobHandler : LockCode :=
  block [log, oneOf [processLogin, processLogout, processRegular, processHistory, processList, processKick,
    sendStatusCode]]

/-! ### `worker.c`, `controller.c` -/

def workersInit : LockCode :=
  block [tsMapInsert (handlers .workers), tsMapInsert (deleters .workers), tsMapInsert (handlers .workers)]

def workerThread : LockCode :=
  block [log, runEventLoop .workers [processMessageJobHandler, sendMessageJobHandler]
    [processMessageJobDeleter], log, sendEvent .controller]

def runWorker : LockCode := any fun id => block [spawn (life (.worker id)) workerThread, tsMapInsert workers]

def decreaseWorkers : LockCode := sendUrgentEvent .workers

def changeWorkerCntEventHandler : LockCode := block [loop runWorker, loop decreaseWorkers]

def killWorker : LockCode := any fun id => join (life (.worker id))

def workerExitEventHandler : LockCode := block [tsMapErase workers, perhaps killWorker]

def controllerHandlers : List LockCode :=
  [changeWorkerCntEventHandler, workerExitEventHandler, inputMsgEventHandler, broadcastMessageEventHandler]

def controllerInit : LockCode :=
  block [tsMapInit workers, eventLoopInit .controller, eventLoopInit .workers, workersInit,
    tsMapInsert (handlers .controller), tsMapInsert (handlers .controller),
    tsMapInsert (handlers .controller), tsMapInsert (deleters .controller),
    tsMapInsert (handlers .controller), tsMapInsert (deleters .controller), initConnMgr]

/-- The deleters of the controller's events only free. -/
def controllerDestroy : LockCode :=
  block [destroyConnMgr, tsMapDestroy workers killWorker, eventLoopDestroy .workers [processMessageJobDeleter],
    eventLoopDestroy .controller []]

def controllerThread : LockCode :=
  block [log, runEventLoop .controller controllerHandlers [], log, loop decreaseWorkers,
    tsMapErase (handlers .controller), tsMapErase (handlers .controller),
    loop (eventLoopIteration .controller controllerHandlers []), log]

/-! ### `listener.c` -/

def pushBackConn (polling : Nat) : LockCode := perhaps (tsVectorPushBack (vector polling))

def closeConnection : LockCode :=
  block [connMgrGetUid, connMgrGetNumberOfSessions, tsMapErase clients, connMgrDelSid, log,
    perhaps (sendEvent .controller)]

/-- Where `recv` or `malloc` fails or the frame is corrupted, the connection is closed. -/
def processConnection : LockCode :=
  block [log, tsMapFind clients, either (block [log, closeConnection])
    (perhaps (block [log, sendEvent .controller]))]

def acceptConnection : LockCode :=
  block [log, either (block [tsMapInsert clients, log, connMgrAddSid]) log]

def closeConnectionEventHandler : LockCode := closeConnection

def listenerInit : LockCode :=
  block [tsMapInit clients, eventLoopInit .listener, tsMapInsert (handlers .listener), perhaps log]

def listenerDestroy : LockCode :=
  block [log, tsMapDestroy clients skip, eventLoopDestroy .listener []]

def listenerTurn (polling : Nat) : LockCode :=
  block [tsVectorClear (vector polling), tsVectorPushBack (vector polling),
    tsMapForall clients (pushBackConn polling),
    either log (block [perhaps acceptConnection, loop (oneOf [closeConnection, processConnection]),
      eventLoopIteration .listener [closeConnectionEventHandler] []])]

def listenerThread : LockCode :=
  any fun polling => block [tsVectorInit (vector polling), loop (listenerTurn polling),
    tsVectorDestroy (vector polling)]

/-! ### `main.c` -/

def prepareDb : LockCode := block [log, log, perhaps log]

def prepareConnMgr : LockCode := loop connMgrAddUid

def main : LockCode :=
  block [controllerInit, listenerInit, prepareDb, prepareConnMgr, spawn (life .controller) controllerThread,
    spawn (life .listener) listenerThread, sendEvent .controller, loop (perhaps (sendEvent .controller)),
    sendEvent .controller, sendEvent .listener, join (life .controller), join (life .listener),
    controllerDestroy, listenerDestroy]

/-! ### Every function keeps to the discipline -/

section

variable {locks : List Mutex}

/-- For all who change the sessions of a user have `mgr->mutex`. -/
theorem keeps_readSessions (m : Nat) : (read (session m) : LockCode).Keeps discipline (mgr :: locks) :=
  ⟨mgr, by simp [discipline], List.mem_cons_self⟩

/-- The calls of the connection manager may be made by who is idle. -/
theorem keeps_connMgr (idle : Idle locks) {call : LockCode}
    (isCall : call ∈ [initConnMgr, destroyConnMgr, connMgrAddSid, connMgrAddUid, connMgrDelSid, connMgrDelUid,
      connMgrConnectSidUid, connMgrGetUid, connMgrGetNumberOfSessions]) : call.Keeps discipline locks := by
  simp only [List.mem_cons, List.not_mem_nil, or_false] at isCall
  rcases isCall with rfl | rfl | rfl | rfl | rfl | rfl | rfl | rfl | rfl
  all_goals simp [initConnMgr, destroyConnMgr, mapDestroyer, connMgrAddSid, connMgrAddUid, connMgrDelSid,
    delUidHelper, connMgrDelUid, connMgrConnectSidUid, connMgrGetUid, connMgrGetNumberOfSessions,
    keeps_readSessions, Ready, idle.below]

/-- The sessions of a user are gone through with `mgr->mutex` and theirs, and each is told. -/
theorem keeps_connMgrForallUid (idle : Idle locks) :
    (connMgrForallUid kickCallback).Keeps discipline locks := by
  have told : ∀ m, sendTokens.Keeps discipline (session m :: mgr :: locks) := by
    intro m
    apply keeps_sendTokens
    simp [idle.below]
  simp [connMgrForallUid, kickCallback, told, Ready, idle.below]

theorem keeps_processMessageJobHandler (idle : Idle locks) :
    processMessageJobHandler.Keeps discipline locks := by
  have tokens : sendTokens.Keeps discipline locks := keeps_sendTokens (idle.below _ (by decide))
  have calls := @keeps_connMgr locks idle
  have kick := keeps_connMgrForallUid idle
  simp [processMessageJobHandler, processLogin, processLogout, processRegular, processHistory, processList,
    processKick, sendStatusCode, browseHistory, browseHistoryCallback, userListCallback, deleteMessage, log,
    Ready, idle.below, tokens, calls, kick]

/-- A worker may be told to run while it has nothing but its life. -/
theorem keeps_workerThread (id : Nat) : workerThread.Keeps discipline [life (.worker id)] := by
  have idle : Idle [life (.worker id)] := by simp [Idle]
  have process := keeps_processMessageJobHandler idle
  have send : sendTokens.Keeps discipline [life (.worker id)] := keeps_sendTokens (idle.below _ (by decide))
  simp [workerThread, runEventLoop, sendMessageJobHandler, processMessageJobDeleter, deleteMessage, log, Ready,
    process, send]

theorem keeps_controllerHandlers :
    ∀ handler ∈ controllerHandlers, handler.Keeps discipline [life .controller] := by
  simp [controllerHandlers, changeWorkerCntEventHandler, runWorker, decreaseWorkers, workerExitEventHandler,
    killWorker, inputMsgEventHandler, unpackMessage2, sendStatusCode, broadcastMessageEventHandler,
    broadcastMessageCallback, log, Ready, keeps_workerThread]

theorem keeps_controllerThread : controllerThread.Keeps discipline [life .controller] := by
  simpa [controllerThread, runEventLoop, decreaseWorkers, log, Ready] using keeps_controllerHandlers

theorem keeps_listenerThread : listenerThread.Keeps discipline [life .listener] := by
  have idle : Idle [life .listener] := by simp [Idle]
  have calls := @keeps_connMgr _ idle
  simp [listenerThread, listenerTurn, pushBackConn, acceptConnection, closeConnection, processConnection,
    closeConnectionEventHandler, log, Ready, calls]

/-- So does the program as a whole. -/
theorem keeps_main : main.Keeps discipline [] := by
  have idle : Idle [] := by simp [Idle]
  have calls := @keeps_connMgr _ idle
  simp [main, controllerInit, eventLoopInit, workersInit, listenerInit, prepareDb, prepareConnMgr,
    controllerDestroy, listenerDestroy, killWorker, processMessageJobDeleter, deleteMessage, log, Ready, calls,
    keeps_controllerThread, keeps_listenerThread]

end

end AcosChat.Locking.Server

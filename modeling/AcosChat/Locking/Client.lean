import AcosChat.Locking.Model

/-!
# The mutexes of the client

`main` of the client and all that it calls, with the threads of the window, of the controller
and of the listener. `sockid` and `logged_in` have no mutex and are left out.
-/
namespace AcosChat.Locking.Client

open Locks Code Mutex

/-! ### `misc.c`, `controller.c` -/

def askForHistory : LockCode := sendTokens

def askForUserlist : LockCode := sendTokens

def getServerAddrCallbackFailure : LockCode := block [sendEvent .gui, sendUrgentEvent .controller]

def loginCallbackFailure : LockCode := block [sendEvent .gui, sendUrgentEvent .controller]

def loginCallbackSuccess : LockCode := sendTokens

def getUsernameCallbackSuccess : LockCode := sendEvent .gui

def getServerAddrCallbackSuccess : LockCode := either getServerAddrCallbackFailure (sendEvent .gui)

/-! ### The events of the controller -/

def sendMessageToServerJobHandler : LockCode := either (sendEvent .gui) sendTokens

def listEventHandler : LockCode := loop (sendEvent .gui)

def listEventDeleter : LockCode := any deleteMessage

def kickEventHandler : LockCode := block [sendEvent .gui, sendUrgentEvent .controller]

def hangupEventHandler : LockCode := block [sendEvent .gui, sendUrgentEvent .controller]

def statusEventHandler : LockCode := either (either askForHistory loginCallbackFailure) (sendEvent .gui)

def clientControllerInit : LockCode :=
  block [eventLoopInit .controller,
    tsMapInsert (handlers .controller), tsMapInsert (deleters .controller),
    tsMapInsert (handlers .controller), tsMapInsert (deleters .controller),
    tsMapInsert (handlers .controller), tsMapInsert (deleters .controller),
    tsMapInsert (handlers .controller), tsMapInsert (deleters .controller), tsMapInsert (handlers .controller)]

def clientControllerDestroy : LockCode := eventLoopDestroy .controller [listEventDeleter]

def clientControllerThread : LockCode :=
  block [sendEvent .gui, runEventLoop .controller [sendMessageToServerJobHandler, listEventHandler,
    kickEventHandler, hangupEventHandler, statusEventHandler] [listEventDeleter]]

/-! ### `gui.c` -/

def getKickReasonSuccess : LockCode := sendTokens

def getKickReasonFailure : LockCode := skip

def getKickUidCallback : LockCode := sendEvent .gui

/-- What the dialogs call when they end. -/
def readinputEventHandler : LockCode :=
  oneOf [getServerAddrCallbackSuccess, getServerAddrCallbackFailure, getUsernameCallbackSuccess,
    loginCallbackSuccess, loginCallbackFailure, getKickUidCallback, getKickReasonSuccess, getKickReasonFailure]

def guiInit : LockCode :=
  block [eventLoopInit .gui, tsMapInsert (handlers .gui), tsMapInsert (deleters .gui),
    tsMapInsert (handlers .gui), tsMapInsert (deleters .gui)]

def guiDestroy : LockCode := eventLoopDestroy .gui []

/-- Of the keys, those for a line, for the help, for the users and for kicking a user do more than
draw. -/
def guiThread : LockCode :=
  loop (block [oneOf [sendEvent .controller, sendEvent .gui, askForUserlist, sendEvent .gui],
    eventLoopIteration .gui [readinputEventHandler] []])

/-! ### `listener.c` -/

def clientListenerInit : LockCode := eventLoopInit .listener

def clientListenerDestroy : LockCode := eventLoopDestroy .listener []

/-- After the whole frame: a chat line, a kick, a list of users, a status, anything else. -/
def processConnection : LockCode :=
  any fun tokens => perhaps (block [unpackMessage2 tokens, oneOf [
    block [deleteMessage tokens, sendEvent .gui],
    block [sendEvent .controller, deleteMessage tokens],
    sendEvent .controller,
    block [sendEvent .controller, deleteMessage tokens],
    deleteMessage tokens]])

def clientListenerThread : LockCode :=
  loop (block [oneOf [block [sendEvent .controller, sendEvent .gui], processConnection],
    eventLoopIteration .listener [] []])

/-! ### `main.c` -/

def main : LockCode :=
  block [guiInit, clientControllerInit, clientListenerInit, spawn (life .gui) guiThread,
    spawn (life .controller) clientControllerThread, spawn (life .listener) clientListenerThread,
    join (life .gui), sendUrgentEvent .controller, join (life .controller), sendUrgentEvent .listener,
    join (life .listener), guiDestroy, clientControllerDestroy, clientListenerDestroy]

/-! ### Every function keeps to the discipline -/

theorem keeps_guiThread : guiThread.Keeps discipline [life .gui] := by
  have send : sendTokens.Keeps discipline [life .gui] := keeps_sendTokens (by simp)
  simp [guiThread, readinputEventHandler, getServerAddrCallbackSuccess, getServerAddrCallbackFailure,
    getUsernameCallbackSuccess, loginCallbackSuccess, loginCallbackFailure, getKickUidCallback,
    getKickReasonSuccess, getKickReasonFailure, askForUserlist, Ready, send]

theorem keeps_clientControllerThread : clientControllerThread.Keeps discipline [life .controller] := by
  have send : sendTokens.Keeps discipline [life .controller] := keeps_sendTokens (by simp)
  simp [clientControllerThread, runEventLoop, sendMessageToServerJobHandler, listEventHandler, listEventDeleter,
    kickEventHandler, hangupEventHandler, statusEventHandler, askForHistory, loginCallbackFailure,
    deleteMessage, Ready, send]

theorem keeps_clientListenerThread : clientListenerThread.Keeps discipline [life .listener] := by
  simp [clientListenerThread, processConnection, unpackMessage2, deleteMessage, log, Ready]

theorem keeps_main : main.Keeps discipline [] := by
  simp [main, guiInit, clientControllerInit, clientListenerInit, eventLoopInit, guiDestroy,
    clientControllerDestroy, clientListenerDestroy, listEventDeleter, deleteMessage, Ready, keeps_guiThread,
    keeps_clientControllerThread, keeps_clientListenerThread]

end AcosChat.Locking.Client

import AcosChat.Lib.Store
import AcosChat.Server.Jobs

/-!
# Connections, clients and accounts of the server

What the threads of the server share: the connections on the heap, the listener's map
`clients`, the connection manager and the database, with `accept_connection` and
`close_connection` of `server/listener.c`. An address is given out once, so it names one
connection; a socket number is free again once its connection has been deleted.
-/
namespace AcosChat

open Store Bytes

/-- `prepare_db` on an empty database, with the digest of the password of root. -/
def preparedDb (hash : Block) : Db := ⟨[⟨rootUid, ascii "root", hash⟩], []⟩

/-- The digest of the empty password. -/
def emptyDigest : Block := ascii "D41D8CD98F00B204E9800998ECF8427E"

structure Core where
  conns : Store Connection
  clients : KeyMap Nat
  mgr : ConnMgr
  db : Db

namespace Core

/-- `main`: the uids of the table are registered, and there are no clients. -/
def init (db : Db) : Core :=
  ⟨Store.empty, ∅, db.users.foldl (fun mgr user => mgr.addUid user.uid) initConnMgr, db⟩

/-- `ts_map_find(&data->clients, sockid)` -/
def client (core : Core) (sockid : Int32) : Option Nat := (core.clients[wordOfInt sockid]?).join

/-- The sockets of the connections that have not been deleted. -/
def openSockets (core : Core) : List Int32 :=
  (List.range core.conns.next).filterMap fun a => (core.conns.read a).map Connection.sockid

/-- `accept_connection`, with what `accept` returns. -/
def acceptConnection (sockid : Int32) (core : Core) : Core :=
  if sockid > 0 then
    let (conn, conns) := core.conns.alloc (newConnection sockid)
    { core with
      conns := conns
      -- ts_map_insert does not overwrite: a key that is there keeps its connection.
      clients := core.clients.insertIfNew (wordOfInt sockid) (some conn)
      mgr := core.mgr.addSid sockid }
  else core

/-- The META event of `close_connection`. -/
def logoutEvents (env : Env) (uid sessions : Int32) (db : Db) : Option (List Effect) :=
  if sessions = 1 then do
    let login ← getLoginByUid (env.script 0) uid db
    some [metaEvent env.tstamp (ascii "User '" ++ showLogin login ++ ascii "' has logged out")]
  else some []

/-- `close_connection`: the effects, and what is left unless it crashes in
`connection_deleter`, on the null pointer or on a connection that has been deleted. -/
def closeConnection (env : Env) (sockid : Int32) (core : Core) :
    Option (List Effect × Option Core) :=
  -- Both are read before the socket is taken out of anything.
  let uid := core.mgr.getUid sockid
  let sessions := core.mgr.getNumberOfSessions uid
  let conn := core.client sockid
  let clients := core.clients.erase (wordOfInt sockid)
  let mgr := core.mgr.delSid sockid
  match conn.bind core.conns.free with
  -- ts_map_erase has returned NULL, or a connection that was deleted before.
  | none => some ([.deleted conn], none)
  | some conns => do
    let events ← logoutEvents env uid sessions core.db
    some (.deleted conn :: events, some ⟨conns, clients, mgr, core.db⟩)

/-- `process_message_job_handler` for the connection at an address. -/
def handleJob (md5hex : Block → Block) (env : Env) (conn : Connection) (msg : Message)
    (core : Core) : Option (List Effect × Core) := do
  let (effects, mgr, db) ← processMessageJobHandler md5hex env conn.sockid core.mgr core.db msg
  some (effects, { core with mgr := mgr, db := db })

end Core

end AcosChat

import AcosChat.Server.Authentication
import AcosChat.Server.SendMessage

/-!
# The chat

Whole handlers of the server in any order: those of a session, the controller's handler of a
broadcast and the job that it makes for each socket. Chat content leaves by a broadcast, by
the answer to HISTORY and by the answer to LIST. A frame goes to the connection that owns
the socket when it is sent.
-/
namespace AcosChat

open Std Store Run Bytes

/-- What is seen of the server: what its handlers do, and the frames on its connections. -/
inductive ChatSighting where
  | observed (o : Observed)
  | frame (c : Nat) (msg : Message)
deriving DecidableEq, Repr

structure Chat where
  core : Core
  /-- The events of the controller. -/
  broadcasts : List Broadcast
  /-- The jobs of the workers that send a message. -/
  jobs : List SendMessageJob

inductive ChatAction where
  | session (action : SessionAction)
  /-- `broadcast_message_event_handler`, on one of the events. -/
  | broadcast (i : Nat) (noise : List Noise)
  /-- `send_message_job_handler`, on one of the jobs. -/
  | send (i : Nat)

def Observed.effect : Observed → Effect
  | .byListener effect => effect
  | .byJob _ _ effect => effect

/-- The event for the controller. -/
def Effect.toController : Effect → Option Broadcast
  | .broadcast evt => some evt
  | _ => none

/-- The frames of an effect; `write` fails on a socket that is closed. -/
def Core.frames (core : Core) : Effect → List ChatSighting
  | .sent sockid msg => ((core.client sockid).map fun c => .frame c msg).toList
  | _ => []

def Core.sights (core : Core) (o : Observed) : List ChatSighting := .observed o :: core.frames o.effect

/-- Nobody is there, and nothing is to be sent. -/
def Chat.init (db : Db) : Chat := ⟨Core.init db, [], []⟩

def chatStep (md5hex : Block → Block) : Step Chat ChatAction ChatSighting
  | s, .session action => do
    let (did, rest) ← sessionStep md5hex s.core action
    some (did.flatMap s.core.sights, rest.map fun core =>
      { s with core := core, broadcasts := s.broadcasts ++ did.filterMap fun o => o.effect.toController })
  | s, .broadcast i noise => do
    let evt ← s.broadcasts[i]?
    let (jobs, db) ← broadcastMessageEventHandler noise evt s.core.mgr s.core.db
    some ([], some ⟨{ s.core with db := db }, s.broadcasts.eraseIdx i, s.jobs ++ jobs⟩)
  | s, .send i => do
    let job ← s.jobs[i]?
    match sendMessageJobHandler job with
    -- A null login is packed.
    | none => some ([], none)
    | some effect => some (s.core.frames effect, some { s with jobs := s.jobs.eraseIdx i })

/-- The ways in which a step can go. -/
inductive ChatTransition (md5hex : Block → Block) (s : Chat) :
    ChatAction → List ChatSighting → Option Chat → Prop
  | session (action : SessionAction) (did : List Observed) (rest : Option Core)
      (ran : sessionStep md5hex s.core action = some (did, rest)) :
      ChatTransition md5hex s (.session action) (did.flatMap s.core.sights) (rest.map fun core =>
        { s with
          core := core
          broadcasts := s.broadcasts ++ did.filterMap fun o => o.effect.toController })
  | broadcast (i : Nat) (noise : List Noise) (evt : Broadcast) (db : Db)
      (there : s.broadcasts[i]? = some evt) (stored : storeBroadcast noise evt s.core.db = some db) :
      ChatTransition md5hex s (.broadcast i noise) [] (some ⟨{ s.core with db := db },
        s.broadcasts.eraseIdx i, s.jobs ++ broadcastJobs evt s.core.mgr.sidToUid⟩)
  | crashed (i : Nat) (job : SendMessageJob) (there : s.jobs[i]? = some job)
      (unpacked : sendMessageJobHandler job = none) : ChatTransition md5hex s (.send i) [] none
  | sent (i : Nat) (job : SendMessageJob) (effect : Effect) (there : s.jobs[i]? = some job)
      (packed : sendMessageJobHandler job = some effect) :
      ChatTransition md5hex s (.send i) (s.core.frames effect) (some { s with jobs := s.jobs.eraseIdx i })

theorem chatStep_transition {md5hex : Block → Block} {s : Chat} {action : ChatAction}
    {did : List ChatSighting} {rest : Option Chat} (taken : chatStep md5hex s action = some (did, rest)) :
    ChatTransition md5hex s action did rest := by
  cases action with
  | session action =>
    simp only [chatStep, Option.bind_eq_bind, Option.bind_eq_some_iff, Prod.exists, Option.some.injEq,
      Prod.mk.injEq] at taken
    obtain ⟨seen, core, ran, rfl, rfl⟩ := taken
    exact .session action seen core ran
  | broadcast i noise =>
    simp only [chatStep, Option.bind_eq_bind, Option.bind_eq_some_iff, Prod.exists, Option.some.injEq,
      Prod.mk.injEq, broadcastMessageEventHandler] at taken
    obtain ⟨evt, there, _, _, ⟨db, stored, rfl, rfl⟩, rfl, rfl⟩ := taken
    exact .broadcast i noise evt db there stored
  | send i =>
    simp only [chatStep, Option.bind_eq_bind, Option.bind_eq_some_iff] at taken
    obtain ⟨job, there, taken⟩ := taken
    split at taken
    next unpacked =>
      cases taken
      exact .crashed i job there unpacked
    next effect packed =>
      cases taken
      exact .sent i job effect there packed

/-! ### Login -/

/-- The observations among what is seen. -/
def observations (trace : List ChatSighting) : List Observed :=
  trace.filterMap fun
    | .observed o => some o
    | .frame _ _ => none

/-- The connection has completed a successful LOGIN. -/
def HasLoggedIn (trace : List ChatSighting) (c : Nat) : Prop := lastLogin (observations trace) c ≠ none

instance (trace : List ChatSighting) (c : Nat) : Decidable (HasLoggedIn trace c) :=
  inferInstanceAs (Decidable (_ ≠ none))

def IsContent (type : UInt8) : Prop :=
  type = messageServerRegular ∨ type = messageServerHistory ∨ type = messageServerList

instance : DecidablePred IsContent :=
  fun type => inferInstanceAs (Decidable (type = messageServerRegular ∨ _ ∨ _))

/-- A frame with content needs a login on its connection. -/
def NeedsLogin (before : List ChatSighting) : ChatSighting → Prop
  | .observed _ => True
  | .frame c msg => IsContent msg.msgType → HasLoggedIn before c

/-! ### The condition -/

/-- The count of a HISTORY request that has one. -/
def historyCount (tokens : List Token) : Option Int32 := do
  if ← notAnInt tokens 1 then none else pStrInt (← tokenPStr tokens 0)

/-- The answer to this request would have content. -/
def AsksForContent (db : Db) (msg : Message) : Prop :=
  msg.msgType = messageClientList ∨
    (msg.msgType = messageClientHistory ∧ db.messages ≠ [] ∧
      ∃ cnt, historyCount msg.tokens = some cnt ∧ 0 < cnt.toInt)

/-- The socket of a connection that is there has been given a uid. -/
def Core.Authorized (core : Core) (sockid : Int32) : Prop :=
  core.client sockid ≠ none → core.mgr.getUid sockid ≠ nullUid

/-- LIST and HISTORY are handled, and content is sent to a socket, after a login only. -/
def BehindLogin (s : Chat) : ChatAction → Prop
  | .session (.handle c msg _) => ∀ conn, s.core.conns.read c = some conn →
      AsksForContent s.core.db msg → s.core.Authorized conn.sockid
  -- A REGULAR job with a null login crashes and sends nothing.
  | .send i => ∀ job, s.jobs[i]? = some job → IsContent job.type →
      (job.type = messageServerRegular → job.login ≠ none) → s.core.Authorized job.sid
  | _ => True

end AcosChat

import AcosChat.Client.Calls
import AcosChat.Talk.Requests

/-!
# What the clients read

The bytes on the way to a client are the rest of a stream of frames, of which its connection holds
the part that it has read. So a client receives what it is sent, each message once and in order.
-/
namespace AcosChat

open Store Run Bytes

/-! ### Frames and messages -/

/-- What the listener of a client makes of a frame. -/
def Frame.events (f : Frame) : List ClientEvent := (deliverMessage f.header f.body).getD []

/-- What it makes of the frame of a message. -/
def Message.events (msg : Message) : List ClientEvent :=
  (interpretMessage ⟨msg.msgType, msg.tokens.map fun t => .pStr (pascalBlock t.payload)⟩).getD []

/-- A message that is packed and unpacked as it is. -/
structure Deliverable (msg : Message) : Prop where
  wellFormed : ∀ t ∈ msg.tokens, t.WellFormed
  short : msg.Short

namespace Deliverable

variable {msg : Message}

theorem frameBytes_eq (deliverable : Deliverable msg) : frameBytes msg = (frameOf msg).bytes := by
  have packed := (unpackMessage2_packMessage msg deliverable.wellFormed deliverable.short.bodyLength_lt).1
  rw [frameBytes, packed, Option.getD_some]

theorem events_eq (deliverable : Deliverable msg) : (frameOf msg).events = msg.events := by
  have unpacked := (unpackMessage2_packMessage msg deliverable.wellFormed deliverable.short.bodyLength_lt).2
  rw [Frame.events, deliverMessage, unpacked, Message.events]

end Deliverable

theorem flatMap_frameBytes {msgs : List Message} (deliverable : ∀ msg ∈ msgs, Deliverable msg) :
    msgs.flatMap frameBytes = streamOf (msgs.map frameOf) := by
  rw [streamOf, List.flatMap_map]
  exact List.flatMap_congr fun msg member => (deliverable msg member).frameBytes_eq

theorem flatMap_events {msgs : List Message} (deliverable : ∀ msg ∈ msgs, Deliverable msg) :
    (msgs.map frameOf).flatMap Frame.events = msgs.flatMap Message.events := by
  rw [List.flatMap_map]
  exact List.flatMap_congr fun msg member => (deliverable msg member).events_eq

/-! ### A connection and the rest of its stream -/

/-- These frames are not complete, and these bytes of them are not read. -/
inductive Reading (conn : Connection) : List Frame → Block → Prop
  | idle (holds : ∀ f, Holds f 0 conn) : Reading conn [] []
  | amid (f : Frame) (frames : List Frame) (k : Nat) (holds : Holds f k conn) :
      Reading conn (f :: frames) (f.bytes.drop k ++ streamOf frames)

/-- Between two frames. -/
theorem Reading.fresh (sockid : Int32) (inWorker : Bool) (frames : List Frame) :
    Reading ⟨sockid, none, none, 0, 5, inWorker⟩ frames (streamOf frames) := by
  cases frames with
  | nil => exact .idle fun f => .fresh sockid inWorker
  | cons f frames =>
    have amid := Reading.amid f frames 0 (.fresh sockid inWorker)
    rwa [List.drop_zero] at amid

theorem Reading.append {conn : Connection} {frames : List Frame} {down : Block} (reading : Reading conn frames down)
    (later : List Frame) : Reading conn (frames ++ later) (down ++ streamOf later) := by
  cases reading with
  | idle holds =>
    cases later with
    | nil => exact .idle holds
    | cons f later =>
      have amid := Reading.amid f later 0 (holds f)
      rwa [List.drop_zero] at amid
  | amid f frames k holds =>
    have amid := Reading.amid f (frames ++ later) k holds
    rwa [streamOf, List.flatMap_append, ← List.append_assoc] at amid

theorem drop_take_append_drop {α : Type} (xs : List α) (n j : Nat) (there : j ≤ (xs.take n).length) :
    (xs.take n).drop j ++ xs.drop n = xs.drop j := by
  rw [← List.drop_append_of_le_length there, List.take_append_drop]

/-- A turn of the listener takes as many bytes as it reads, and delivers the frame that they
complete, if they do. -/
theorem Reading.turn {conn : Connection} {frames : List Frame} {down : Block} (reading : Reading conn frames down)
    (countable : ∀ f ∈ frames, f.Countable) {count : Nat} {cuts : List Nat} (some : down.take count ≠ [])
    {sent : List ListenerSent} {rest : Option Connection}
    (turn : clientListenerTurn conn (.readable, quietWire (down.take count) cuts) = .some (sent, rest)) :
    ∃ conn' done left, rest = .some conn' ∧ frames = done ++ left ∧
      sent = (done.flatMap Frame.events).map .event ∧
      Reading conn' left (unread conn (quietWire (down.take count) cuts) ++ down.drop count) := by
  cases reading with
  | idle => simp at some
  | amid f frames k holds =>
    generalize stream : f.bytes.drop k ++ streamOf frames = down at some turn ⊢
    -- The pending bytes are a front of the rest of the stream.
    have healthy : Healthy (quietWire (down.take count) cuts) := ⟨rfl, fun _ => rfl⟩
    have advances := receive_advances f (countable f List.mem_cons_self) k conn (quietWire (down.take count) cuts)
      (streamOf frames) holds healthy some (stream ▸ List.take_prefix count _)
    simp only [clientListenerTurn, clientProcessConnection] at turn
    simp only [unread, clientProcessConnection]
    generalize receive conn (quietWire (down.take count) cuts) = received at advances turn ⊢
    cases advances with
    | unfinished j conn' wire' moved there missing holds' rest' healthy' =>
      -- The frame goes on: `j` more bytes of it are there.
      cases turn
      refine ⟨conn', [], f :: frames, rfl, rfl, rfl, ?_⟩
      have left : wire'.pending ++ down.drop count = f.bytes.drop (k + j) ++ streamOf frames := by
        rw [rest', quietWire, drop_take_append_drop _ _ _ there, ← stream,
          List.drop_append_of_le_length (by rw [List.length_drop]; omega), List.drop_drop]
      dsimp only
      rw [left]
      exact .amid f frames (k + j) holds'
    | complete j conn' wire' moved there all header body rest' healthy' =>
      -- The frame is whole; what is behind it stays in the socket.
      have left : wire'.pending ++ down.drop count = streamOf frames := by
        rw [rest', quietWire, drop_take_append_drop _ _ _ there, ← stream]
        exact List.drop_left' (by rw [List.length_drop]; omega)
      simp only [header, body, Option.getD_some] at turn ⊢
      cases handled : deliverMessage f.header f.body with
      | none =>
        rw [handled] at turn
        cases turn
      | some events =>
        rw [handled] at turn
        cases turn
        refine ⟨resetConnection conn', [f], frames, rfl, rfl, ?_, ?_⟩
        · simp [Frame.events, handled]
        · simp only [Option.map_some]
          rw [left]
          exact .fresh conn'.sockid conn'.inWorker frames
    | blocked conn' missing => cases turn

/-- At the end of the stream nothing is left, and `process_connection` gives the connection up. -/
theorem Reading.ended {conn : Connection} {frames : List Frame} (reading : Reading conn frames [])
    {sent : List ListenerSent} {rest : Option Connection}
    (turn : clientListenerTurn conn (.readable, endedWire) = some (sent, rest)) :
    frames = [] ∧ sent = [] ∧ ∃ conn', rest = some conn' ∧ Reading conn' [] [] := by
  generalize empty : [] = down at reading
  cases reading with
  | amid f frames k holds =>
    -- The rest of a frame is not empty.
    have short := holds.lt
    have length := congrArg List.length empty
    simp only [List.length_nil, List.length_append, List.length_drop] at length
    omega
  | idle holds =>
    refine ⟨rfl, ?_⟩
    generalize start : 0 = k at holds
    cases holds ⟨0, []⟩ with
    | fresh sockid inWorker =>
      -- The block for the header is there all the same.
      cases turn
      exact ⟨rfl, _, rfl, .idle fun f => .header sockid inWorker 0 _ (by omega) rfl⟩
    | header sockid inWorker _ junk unread room =>
      subst start
      cases turn
      exact ⟨rfl, _, rfl, .idle fun f => .header sockid inWorker 0 junk unread room⟩
    | body => omega

/-! ### The steps of a client -/

/-- The event for which the listener has received a frame. -/
def ClientSighting.events : ClientSighting → List ClientEvent
  | .received (.event evt) => [evt]
  | _ => []

namespace Client

variable {s : Client} {did : List ClientSighting} {rest : Option Client}

@[simp] theorem setTodo_conn (s : Client) (who : ClientThread) (todo : List ClientEffect) :
    (s.setTodo who todo).conn = s.conn := by
  cases who <;> rfl

@[simp] theorem perform_conn (s : Client) (effect : ClientEffect) : (s.perform effect).2.conn = s.conn := by
  cases effect <;> rfl

/-- The step receives nothing and leaves the connection as it is. -/
def Unread (s : Client) (did : List ClientSighting) (rest : Option Client) : Prop :=
  did.flatMap ClientSighting.events = [] ∧ ∀ s', rest = some s' → s'.conn = s.conn

theorem Unread.crash (silent : did.flatMap ClientSighting.events = []) : s.Unread did none := by
  refine ⟨silent, ?_⟩
  rintro _ ⟨⟩

theorem Unread.kept {s' : Client} (silent : did.flatMap ClientSighting.events = []) (same : s'.conn = s.conn) :
    s.Unread did (some s') := by
  refine ⟨silent, ?_⟩
  rintro _ ⟨⟩
  exact same

theorem unread_controllerIterate {tstamp : Nat → UInt64}
    (taken : Client.step s (.controllerIterate tstamp) = some (did, rest)) : s.Unread did rest := by
  simp only [Client.step] at taken
  split at taken
  next =>
    cases taken
    exact .kept rfl rfl
  next =>
    cases taken
    exact .kept rfl rfl
  next evt queue _ _ _ =>
    split at taken
    next =>
      cases taken
      exact .crash rfl
    next =>
      cases taken
      refine .kept ?_ rfl
      rw [List.flatMap_cons, flatMap_refusal_eq_nil _ evt fun _ => rfl]
      rfl
  next => cases taken

theorem unread_answer {answer : DialogEnd} {net : Network} {tstamp : UInt64}
    (taken : Client.step s (.answer answer net tstamp) = some (did, rest)) : s.Unread did rest := by
  have calledBack : ∀ back, s.calledBack back = (did, rest) → s.Unread did rest := by
    intro back called
    cases back with
    | none =>
      cases called
      exact .crash rfl
    | some left =>
      cases called
      exact .kept rfl rfl
  simp only [Client.step] at taken
  split at taken
  next =>
    obtain ⟨str, _, called⟩ := Option.map_eq_some_iff.mp taken
    exact calledBack _ called
  next => exact calledBack _ (Option.some.inj taken)
  next => cases taken

theorem unread_listen {poll : ClientPoll} {wire : Wire} {tstamp : UInt64} (other : poll ≠ .readable)
    (taken : Client.step s (.listen poll wire tstamp) = some (did, rest)) : s.Unread did rest := by
  simp only [Client.step] at taken
  split at taken
  next =>
    split at taken
    next =>
      cases taken
      exact .kept rfl rfl
    next =>
      cases poll with
      | failed | none | hangup =>
        cases taken
        exact .kept rfl rfl
      | readable => exact absurd rfl other
  next => cases taken

/-- A step that is not one of reading. -/
theorem step_unread {action : ClientAction} (other : action.reads = false)
    (taken : Client.step s action = some (did, rest)) : s.Unread did rest := by
  cases action with
  | controllerIterate tstamp => exact unread_controllerIterate taken
  | answer answer net tstamp => exact unread_answer taken
  | listen poll wire tstamp =>
    refine unread_listen ?_ taken
    rintro rfl
    cases other
  | perform who =>
    simp only [Client.step] at taken
    split at taken
    next => cases taken
    next effect todo there =>
      cases taken
      exact .kept (flatMap_perform_eq_nil _ effect (fun _ _ => rfl) fun _ => rfl) (by simp)
  | key key tstamp =>
    simp only [Client.step] at taken
    split at taken
    next =>
      cases taken
      exact .kept rfl rfl
    next =>
      obtain ⟨todo, _, same⟩ := Option.map_eq_some_iff.mp taken
      cases same
      exact .kept (flatMap_typed_eq_nil _ todo fun _ => rfl) rfl
    next => cases taken
  | guiIterate =>
    simp only [Client.step] at taken
    split at taken <;> cases taken <;> exact .kept rfl rfl
  | listenerIterate =>
    simp only [Client.step] at taken
    split at taken <;> cases taken
    exact .kept rfl rfl
  | main =>
    simp only [Client.step] at taken
    split at taken
    next =>
      split at taken <;> cases taken
      exact .kept rfl rfl
    next =>
      split at taken <;> cases taken
      exact .kept rfl rfl
    next =>
      split at taken <;> cases taken
      refine .kept ?_ rfl
      split <;> rfl
    next => cases taken

/-- A step of reading is a turn of the listener. -/
theorem step_read {wire : Wire} {tstamp : UInt64} (connected : s.sockid ≠ -1)
    (taken : Client.step s (.listen .readable wire tstamp) = some (did, rest)) :
    ∃ sent left, clientListenerTurn s.conn (.readable, wire) = some (sent, left) ∧ did = sent.map .received ∧
      ∀ conn, left = some conn → ∃ s', rest = some s' ∧ s'.conn = conn := by
  simp only [Client.step] at taken
  split at taken
  next =>
    rw [if_neg connected] at taken
    split at taken
    next => cases taken
    next sent left turn =>
      cases taken
      refine ⟨sent, left, turn, rfl, ?_⟩
      rintro conn rfl
      exact ⟨_, rfl, rfl⟩
  next => cases taken

end Client

/-! ### The way to a client -/

/-- What has been sent on a connection, if there is one. -/
def sentOn (trace : List TalkSighting) : Option Nat → List Message
  | none => []
  | some c => framesTo (serverTrace trace) c

/-- A client sends nothing to clients. -/
@[simp] theorem sentOn_client (trace : List TalkSighting) (i : Nat) (seen : List ClientSighting) (conn : Option Nat) :
    sentOn (trace ++ seen.map (.client i)) conn = sentOn trace conn := by
  cases conn with
  | none => rfl
  | some c => rw [sentOn, sentOn, serverTrace_append, serverTrace_client, List.append_nil]

/-- A client has received the front of what was sent to it. While it lives, its connection and the
bytes on the way hold the rest. -/
def Channel (trace : List TalkSighting) (i : Nat) (peer : Peer) : Prop :=
  ∃ done left, sentOn trace peer.conn = done ++ left ∧
    (clientTrace i trace).flatMap ClientSighting.events = done.flatMap Message.events ∧
    ∀ client, peer.client = some client → Reading client.conn (left.map frameOf) peer.down

/-- All that is sent to clients is deliverable. -/
def AllDeliverable (trace : List ChatSighting) : Prop := ∀ c msg, .frame c msg ∈ trace → Deliverable msg

theorem AllDeliverable.framesTo {trace : List ChatSighting} (deliverable : AllDeliverable trace) (c : Nat) :
    ∀ msg ∈ framesTo trace c, Deliverable msg :=
  fun msg member => deliverable c msg (mem_framesTo.mp member)

theorem AllDeliverable.sentOn {trace : List TalkSighting} (deliverable : AllDeliverable (serverTrace trace))
    (conn : Option Nat) : ∀ msg ∈ sentOn trace conn, Deliverable msg := by
  cases conn with
  | none => exact fun _ member => absurd member List.not_mem_nil
  | some c => exact deliverable.framesTo c

namespace Channel

variable {trace did : List TalkSighting} {i : Nat} {peer : Peer}

/-- What the server sends is put behind the rest. -/
theorem heard (channel : Channel trace i peer) (silent : clientTrace i did = [])
    (deliverable : AllDeliverable (serverTrace did)) : Channel (trace ++ did) i (peer.hear (serverTrace did)) := by
  obtain ⟨done, left, split, received, reading⟩ := channel
  have same : clientTrace i (trace ++ did) = clientTrace i trace := by
    rw [clientTrace_append, silent, List.append_nil]
  unfold Channel
  rw [Peer.hear_conn, Peer.hear_client, same]
  cases conn : peer.conn with
  | none =>
    rw [conn] at split
    refine ⟨done, left, split, received, ?_⟩
    intro client alive
    simpa [Peer.hear, conn] using reading client alive
  | some c =>
    rw [conn] at split
    refine ⟨done, left ++ framesTo (serverTrace did) c, ?_, received, ?_⟩
    · simp only [sentOn] at split ⊢
      rw [serverTrace_append, ← List.append_assoc, ← split]
      exact List.filterMap_append
    · intro client alive
      have more := (reading client alive).append ((framesTo (serverTrace did) c).map frameOf)
      rw [← flatMap_frameBytes (deliverable.framesTo c), ← List.map_append] at more
      simpa [Peer.hear, conn] using more

/-- What a client does leaves what was sent. -/
theorem acted {client : Client} {action : ClientAction} {down : Block} {seen : List ClientSighting}
    {rest : Option Client} (channel : Channel trace i peer) (deliverable : AllDeliverable (serverTrace trace))
    (alive : peer.client = some client) (leaves : Leaves peer client action down)
    (taken : Client.step client action = some (seen, rest)) (up : List Block) :
    Channel (trace ++ seen.map (.client i)) i ⟨rest, peer.conn, up, down⟩ := by
  obtain ⟨done, left, split, received, reading⟩ := channel
  have sent : sentOn (trace ++ seen.map (.client i)) peer.conn = done ++ left := by rw [sentOn_client, split]
  have events : (clientTrace i (trace ++ seen.map (.client i))).flatMap ClientSighting.events =
      done.flatMap Message.events ++ seen.flatMap ClientSighting.events := by
    rw [clientTrace_append, clientTrace_client, if_pos rfl, List.flatMap_append, received]
  cases leaves with
  | unread action other =>
    obtain ⟨silent, conn⟩ := Client.step_unread other taken
    rw [silent, List.append_nil] at events
    refine ⟨done, left, sent, events, ?_⟩
    intro client' alive'
    rw [conn client' alive']
    exact reading client alive
  | read count cuts tstamp some connected =>
    have held : ∀ msg ∈ left, Deliverable msg := by
      intro msg member
      apply deliverable.sentOn peer.conn
      rw [split]
      exact List.mem_append_right _ member
    have countable : ∀ f ∈ left.map frameOf, f.Countable := by
      intro f member
      obtain ⟨msg, inside, rfl⟩ := List.mem_map.mp member
      exact (held msg inside).short.countable
    obtain ⟨sent', after, turn, rfl, kept⟩ := Client.step_read connected taken
    obtain ⟨conn', front, back, rfl, frames, same, reading'⟩ := (reading client alive).turn countable some turn
    obtain ⟨done', left', rfl, rfl, rfl⟩ := List.map_eq_append_iff.mp frames
    refine ⟨done ++ done', left', ?_, ?_, ?_⟩
    · rw [sent, List.append_assoc]
    · rw [events, List.flatMap_append, same, flatMap_events fun msg member => held msg (List.mem_append_left _ member)]
      congr 1
      simp [List.flatMap_map, ClientSighting.events]
    · intro client' alive'
      obtain ⟨client'', rfl, conn⟩ := kept conn' rfl
      cases alive'
      rw [conn]
      exact reading'
  | ended tstamp all connected =>
    obtain ⟨sent', after, turn, rfl, kept⟩ := Client.step_read connected taken
    obtain ⟨none, rfl, conn', rfl, reading'⟩ := (all ▸ reading client alive).ended turn
    rw [List.map_nil, List.flatMap_nil, List.append_nil] at events
    refine ⟨done, left, sent, events, ?_⟩
    intro client' alive'
    obtain ⟨client'', rfl, conn⟩ := kept conn' rfl
    cases alive'
    rw [conn, none]
    exact reading'

theorem step {w : Talk} {peer' : Peer} (channel : Channel trace i peer) (moves : peer.Moves w i did peer')
    (deliverable : AllDeliverable (serverTrace (trace ++ did)))
    (unused : framesTo (serverTrace trace) w.server.core.conns.next = []) : Channel (trace ++ did) i peer' := by
  rw [serverTrace_append] at deliverable
  have before : AllDeliverable (serverTrace trace) :=
    fun c msg member => deliverable c msg (List.mem_append_left _ member)
  have now : AllDeliverable (serverTrace did) :=
    fun c msg member => deliverable c msg (List.mem_append_right _ member)
  cases moves with
  | acts client action down seen rest alive leaves taken all =>
    subst all
    exact channel.acted before alive leaves taken _
  | stays up silent takes unasked =>
    have same : Channel trace i { peer with up := up } := channel
    exact same.heard silent now
  | connects fresh silent takes first =>
    -- The client has received nothing, and on the new connection nothing was sent.
    have same : Channel trace i { peer with conn := some w.server.core.conns.next } := by
      obtain ⟨done, left, split, received, reading⟩ := channel
      rw [fresh] at split
      exact ⟨done, left, unused.trans split, received, reading⟩
    exact same.heard silent now

theorem init (db : Db) (clients : Nat) (i : Nat) (peer : Peer) (there : (Talk.init db clients).peers[i]? = some peer) :
    Channel [] i peer := by
  rw [Talk.init, List.getElem?_replicate] at there
  split at there <;> cases there
  refine ⟨[], [], rfl, rfl, ?_⟩
  rintro _ ⟨⟩
  exact .idle fun f => .fresh (-1) false

theorem of_ran {md5hex : Block → Block} {db : Db} {clients : Nat} {w : Talk} {cond : Talk → TalkAction → Prop}
    (unique : UniqueUids db) (ran : Ran (Talk.step md5hex) cond (Talk.init db clients) trace w) :
    AllDeliverable (serverTrace trace) → ∀ i peer, w.peers[i]? = some peer → Channel trace i peer := by
  have all : Parties md5hex db trace w ∧ Heard md5hex db trace w ∧
      (AllDeliverable (serverTrace trace) → ∀ i peer, w.peers[i]? = some peer → Channel trace i peer) := by
    apply ran.invariant ⟨.init db clients, .init db unique clients, fun _ => init db clients⟩
    rintro trace w action did w' ⟨parties, heard, channels⟩ _ taken
    have transition := Talk.step_transition taken
    refine ⟨parties.step transition, heard.step parties transition, ?_⟩
    intro deliverable i peer' there
    obtain ⟨peer, before, moves⟩ := transition.peer there
    have earlier : AllDeliverable (serverTrace trace) := by
      intro c msg member
      rw [serverTrace_append] at deliverable
      exact deliverable c msg (List.mem_append_left _ member)
    refine (channels earlier i peer before).step moves deliverable ?_
    -- Nothing was sent on a connection that is not there yet.
    rw [List.eq_nil_iff_forall_not_mem]
    intro msg member
    exact Nat.lt_irrefl _ (heard.frames _ msg (mem_framesTo.mp member)).1
  exact all.2.2

end Channel

end AcosChat

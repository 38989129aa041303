import AcosChat.Server.Duplicates
import AcosChat.Talk.Model

/-!
# The runs of the parties

In a run of the whole the server runs, and so does every client: each sees its own part of what
happens. What a client has written the server has taken or will find on the way.
-/
namespace AcosChat

open Store Run Bytes

/-! ### The cases of a step -/

/-- What comes before a step of the server: who is seen to have caused it, and the peers then. -/
inductive Prepares (w : Talk) : ChatAction → List TalkSighting → List Peer → Prop
  | accept (i : Nat) (sockid : Int32) (peer : Peer) (client : Client) (there : w.peers[i]? = some peer)
      (alive : peer.client = some client) (connected : client.sockid ≠ -1) (fresh : peer.conn = none)
      (positive : sockid > 0) :
      Prepares w (.session (.accept sockid)) [.accepted i w.server.core.conns.next]
        (w.peers.set i { peer with conn := some w.server.core.conns.next })
  | handle (i c : Nat) (env : Env) (peer : Peer) (package : Block) (up : List Block) (msg : Message)
      (there : w.peers[i]? = some peer) (attached : peer.conn = some c) (first : peer.up = package :: up)
      (unpacked : unpackPackage package = some msg) :
      Prepares w (.session (.handle c msg env)) [.taken i package] (w.peers.set i { peer with up := up })
  | acceptOther (sockid : Int32) : Prepares w (.session (.accept sockid)) [] w.peers
  | handleOther (c : Nat) (env : Env) (package : Block) (msg : Message)
      (unpacked : unpackPackage package = some msg) (other : ∀ peer ∈ w.peers, peer.conn ≠ some c) :
      Prepares w (.session (.handle c msg env)) [] w.peers
  | close (sockid : Int32) (env : Env) : Prepares w (.session (.close sockid env)) [] w.peers
  | broadcast (k : Nat) (noise : List Noise) : Prepares w (.broadcast k noise) [] w.peers
  | send (k : Nat) : Prepares w (.send k) [] w.peers

/-- What a client's step leaves of the bytes for it. -/
inductive Leaves (peer : Peer) (client : Client) : ClientAction → Block → Prop
  | unread (action : ClientAction) (other : action.reads = false) : Leaves peer client action peer.down
  | read (count : Nat) (cuts : List Nat) (tstamp : UInt64) (some : peer.down.take count ≠ [])
      (connected : client.sockid ≠ -1) :
      Leaves peer client (.listen .readable (quietWire (peer.down.take count) cuts) tstamp)
        (AcosChat.unread client.conn (quietWire (peer.down.take count) cuts) ++ peer.down.drop count)
  | ended (tstamp : UInt64) (all : peer.down = []) (connected : client.sockid ≠ -1) :
      Leaves peer client (.listen .readable endedWire tstamp) []

/-- The ways in which a step can go. -/
inductive TalkTransition (md5hex : Block → Block) (w : Talk) : List TalkSighting → Option Talk → Prop
  | acted (i : Nat) (peer : Peer) (client : Client) (action : ClientAction) (down : Block)
      (did : List ClientSighting) (rest : Option Client) (there : w.peers[i]? = some peer)
      (alive : peer.client = some client) (leaves : Leaves peer client action down)
      (ran : Client.step client action = some (did, rest)) :
      TalkTransition md5hex w (did.map (.client i)) (some ⟨w.server, w.peers.set i
        ⟨rest, peer.conn, peer.up ++ did.filterMap ClientSighting.package, down⟩⟩)
  | served (action : ChatAction) (first : List TalkSighting) (peers : List Peer) (did : List ChatSighting)
      (rest : Option Chat) (prepares : Prepares w action first peers)
      (ran : chatStep md5hex w.server action = some (did, rest)) :
      TalkTransition md5hex w (first ++ did.map .server)
        (rest.map fun server => ⟨server, peers.map (Peer.hear did)⟩)

theorem Talk.serve_transition {md5hex : Block → Block} {w : Talk} {action : ChatAction}
    {first did : List TalkSighting} {peers : List Peer} {rest : Option Talk}
    (prepares : Prepares w action first peers) (ran : w.serve md5hex action peers = some (did, rest)) :
    TalkTransition md5hex w (first ++ did) rest := by
  obtain ⟨⟨seen, server⟩, step, same⟩ := Option.map_eq_some_iff.mp ran
  cases same
  exact .served action first peers seen server prepares step

theorem Talk.act_transition {md5hex : Block → Block} {w : Talk} {i : Nat} {peer : Peer} {client : Client}
    {action : ClientAction} {down : Block} {did : List TalkSighting} {rest : Option Talk}
    (there : w.peers[i]? = some peer) (alive : peer.client = some client)
    (leaves : Leaves peer client action down) (ran : w.act i peer client action down = some (did, rest)) :
    TalkTransition md5hex w did rest := by
  obtain ⟨⟨seen, client'⟩, step, same⟩ := Option.map_eq_some_iff.mp ran
  cases same
  exact .acted i peer client action down seen client' there alive leaves step

theorem Talk.step_transition {md5hex : Block → Block} {w : Talk} {action : TalkAction}
    {did : List TalkSighting} {rest : Option Talk} (taken : Talk.step md5hex w action = some (did, rest)) :
    TalkTransition md5hex w did rest := by
  cases action with
  | client i action =>
    simp only [step, Option.bind_eq_bind, Option.bind_eq_some_iff] at taken
    obtain ⟨peer, there, client, alive, taken⟩ := taken
    split at taken
    · cases taken
    · exact act_transition there alive (.unread action (Bool.eq_false_iff.mpr ‹_›)) taken
  | read i count cuts tstamp =>
    simp only [step, Option.bind_eq_bind, Option.bind_eq_some_iff] at taken
    obtain ⟨peer, there, client, alive, taken⟩ := taken
    split at taken
    · cases taken
    next readable =>
      obtain ⟨some, connected⟩ := not_or.mp readable
      exact act_transition there alive (.read count cuts tstamp some connected) taken
  | eof i tstamp =>
    simp only [step, Option.bind_eq_bind, Option.bind_eq_some_iff] at taken
    obtain ⟨peer, there, client, alive, c, attached, taken⟩ := taken
    split at taken
    · cases taken
    next ended =>
      simp only [not_or, not_not] at ended
      obtain ⟨all, _, connected⟩ := ended
      exact act_transition there alive (.ended tstamp all connected) taken
  | accept i sockid =>
    simp only [step, Option.bind_eq_bind, Option.bind_eq_some_iff] at taken
    obtain ⟨peer, there, client, alive, taken⟩ := taken
    split at taken
    · cases taken
    next acceptable =>
      obtain ⟨⟨did', rest'⟩, served, same⟩ := Option.bind_eq_some_iff.mp taken
      cases same
      simp only [not_or, not_not] at acceptable
      obtain ⟨connected, fresh, positive⟩ := acceptable
      exact serve_transition (.accept i sockid peer client there alive connected fresh positive) served
  | handle i env =>
    simp only [step, Option.bind_eq_bind, Option.bind_eq_some_iff] at taken
    obtain ⟨peer, there, c, attached, taken⟩ := taken
    split at taken
    · cases taken
    next package up first =>
      obtain ⟨msg, unpacked, taken⟩ := Option.bind_eq_some_iff.mp taken
      obtain ⟨⟨did', rest'⟩, served, same⟩ := Option.bind_eq_some_iff.mp taken
      cases same
      exact serve_transition (.handle i c env peer package up msg there attached first unpacked) served
  | acceptOther sockid => exact serve_transition (.acceptOther sockid) taken
  | handleOther c package env =>
    simp only [step, Option.bind_eq_bind, Option.bind_eq_some_iff] at taken
    obtain ⟨msg, unpacked, taken⟩ := taken
    split at taken
    · cases taken
    next other =>
      refine serve_transition (.handleOther c env package msg unpacked ?_) taken
      intro peer member same
      exact other ⟨peer, member, same⟩
  | close sockid env => exact serve_transition (.close sockid env) taken
  | broadcast k noise => exact serve_transition (.broadcast k noise) taken
  | send k => exact serve_transition (.send k) taken

/-! ### Parts of a trace -/

@[simp] theorem serverTrace_append (trace later : List TalkSighting) :
    serverTrace (trace ++ later) = serverTrace trace ++ serverTrace later := List.filterMap_append

@[simp] theorem clientTrace_append (i : Nat) (trace later : List TalkSighting) :
    clientTrace i (trace ++ later) = clientTrace i trace ++ clientTrace i later := List.filterMap_append

@[simp] theorem takenFrom_append (i : Nat) (trace later : List TalkSighting) :
    takenFrom i (trace ++ later) = takenFrom i trace ++ takenFrom i later := List.filterMap_append

@[simp] theorem serverTrace_server (did : List ChatSighting) : serverTrace (did.map .server) = did := by
  simp [serverTrace, List.filterMap_map]

@[simp] theorem clientTrace_server (i : Nat) (did : List ChatSighting) : clientTrace i (did.map .server) = [] := by
  simp [clientTrace, List.filterMap_map]

@[simp] theorem takenFrom_server (i : Nat) (did : List ChatSighting) : takenFrom i (did.map .server) = [] := by
  simp [takenFrom, List.filterMap_map]

@[simp] theorem serverTrace_client (i : Nat) (did : List ClientSighting) : serverTrace (did.map (.client i)) = [] := by
  simp [serverTrace, List.filterMap_map]

@[simp] theorem takenFrom_client (i j : Nat) (did : List ClientSighting) : takenFrom i (did.map (.client j)) = [] := by
  simp [takenFrom, List.filterMap_map]

theorem clientTrace_client (i j : Nat) (did : List ClientSighting) :
    clientTrace i (did.map (.client j)) = if j = i then did else [] := by
  by_cases same : j = i
  · simp [clientTrace, List.filterMap_map, same]
  · simp [clientTrace, List.filterMap_map, same]

theorem mem_serverTrace {trace : List TalkSighting} {sight : ChatSighting} :
    sight ∈ serverTrace trace ↔ .server sight ∈ trace := by
  rw [serverTrace, List.mem_filterMap]
  constructor
  · rintro ⟨seen, member, same⟩
    cases seen <;> cases same
    exact member
  · intro member
    exact ⟨_, member, rfl⟩

theorem mem_clientTrace {i : Nat} {trace : List TalkSighting} {sight : ClientSighting} :
    sight ∈ clientTrace i trace ↔ .client i sight ∈ trace := by
  rw [clientTrace, List.mem_filterMap]
  constructor
  · rintro ⟨seen, member, same⟩
    cases seen with
    | client j sight' =>
      dsimp only at same
      split at same
      next here =>
        cases same
        exact here ▸ member
      next => cases same
    | _ => cases same
  · intro member
    exact ⟨_, member, if_pos rfl⟩

/-! ### One peer in a step -/

theorem Peer.hear_nil (peer : Peer) : peer.hear [] = peer := by
  obtain ⟨client, conn, up, down⟩ := peer
  cases conn with
  | none => rfl
  | some c => simp [Peer.hear, framesTo]

@[simp] theorem Peer.hear_client (did : List ChatSighting) (peer : Peer) :
    (peer.hear did).client = peer.client := by
  unfold Peer.hear
  split <;> rfl

@[simp] theorem Peer.hear_conn (did : List ChatSighting) (peer : Peer) : (peer.hear did).conn = peer.conn := by
  cases conn : peer.conn <;> simp [Peer.hear, conn]

@[simp] theorem Peer.hear_up (did : List ChatSighting) (peer : Peer) : (peer.hear did).up = peer.up := by
  unfold Peer.hear
  split <;> rfl

/-- What a step of the whole is for one peer. -/
inductive Peer.Moves (w : Talk) (i : Nat) (peer : Peer) (did : List TalkSighting) : Peer → Prop
  | acts (client : Client) (action : ClientAction) (down : Block) (seen : List ClientSighting)
      (rest : Option Client) (alive : peer.client = some client) (leaves : Leaves peer client action down)
      (ran : Client.step client action = some (seen, rest)) (all : did = seen.map (.client i)) :
      Moves w i peer did ⟨rest, peer.conn, peer.up ++ seen.filterMap ClientSighting.package, down⟩
  | stays (up : List Block) (silent : clientTrace i did = []) (takes : peer.up = takenFrom i did ++ up)
      (unasked : ∀ c, .accepted i c ∉ did) : Moves w i peer did (Peer.hear (serverTrace did) { peer with up := up })
  | connects (fresh : peer.conn = none) (silent : clientTrace i did = []) (takes : takenFrom i did = [])
      (first : ∀ c, .accepted i c ∈ did ↔ w.server.core.conns.next = c) :
      Moves w i peer did (Peer.hear (serverTrace did) { peer with conn := some w.server.core.conns.next })

theorem getElem?_set_of_eq {α : Type} {xs : List α} {i j : Nat} {x y : α} (there : (xs.set i x)[j]? = some y) :
    i = j ∧ x = y ∨ i ≠ j ∧ xs[j]? = some y := by
  rw [List.getElem?_set] at there
  split at there
  next same =>
    split at there <;> cases there
    exact .inl ⟨same, rfl⟩
  next other => exact .inr ⟨other, there⟩

theorem Prepares.silent {w : Talk} {action : ChatAction} {first : List TalkSighting} {peers : List Peer}
    (prepares : Prepares w action first peers) : serverTrace first = [] ∧ ∀ i, clientTrace i first = [] := by
  cases prepares <;> exact ⟨rfl, fun _ => rfl⟩

theorem Prepares.serverTrace_eq {w : Talk} {action : ChatAction} {first : List TalkSighting} {peers : List Peer}
    (prepares : Prepares w action first peers) (seen : List ChatSighting) :
    serverTrace (first ++ seen.map .server) = seen := by
  rw [serverTrace_append, prepares.silent.1, serverTrace_server, List.nil_append]

theorem Prepares.peer {w : Talk} {action : ChatAction} {first : List TalkSighting} {peers : List Peer}
    (prepares : Prepares w action first peers) (seen : List ChatSighting) {i : Nat} {peer' : Peer}
    (there : peers[i]? = some peer') :
    ∃ peer, w.peers[i]? = some peer ∧ peer.Moves w i (first ++ seen.map .server) (peer'.hear seen) := by
  have silent : clientTrace i (first ++ seen.map .server) = [] := by simp [prepares.silent.2 i]
  have heard := prepares.serverTrace_eq seen
  -- A peer that the step does not name stays as it is, but for what it hears.
  have others : takenFrom i first = [] → (∀ c, .accepted i c ∉ first) → w.peers[i]? = some peer' →
      ∃ peer, w.peers[i]? = some peer ∧ peer.Moves w i (first ++ seen.map .server) (peer'.hear seen) := by
    intro untaken unasked same
    have stays := @Peer.Moves.stays w i peer' (first ++ seen.map .server) peer'.up silent (by simp [untaken])
      (by simpa using unasked)
    rw [heard] at stays
    exact ⟨peer', same, stays⟩
  cases prepares with
  | accept j sockid peer client isThere alive connected fresh positive =>
    rcases getElem?_set_of_eq there with ⟨rfl, rfl⟩ | ⟨other, same⟩
    · have connects := @Peer.Moves.connects w j peer _ fresh silent (by simp [takenFrom]) (by simp [eq_comm])
      rw [heard] at connects
      exact ⟨peer, isThere, connects⟩
    · exact others rfl (by simp [Ne.symm other]) same
  | handle j c env peer package up msg isThere attached first unpacked =>
    rcases getElem?_set_of_eq there with ⟨rfl, rfl⟩ | ⟨other, same⟩
    · have stays := @Peer.Moves.stays w j peer _ up silent (by simp [takenFrom, first]) (by simp)
      rw [heard] at stays
      exact ⟨peer, isThere, stays⟩
    · exact others (by simp [takenFrom, other]) (by simp) same
  | acceptOther | handleOther | close | broadcast | send => exact others rfl (by simp) there

theorem TalkTransition.peer {md5hex : Block → Block} {w w' : Talk} {did : List TalkSighting}
    (transition : TalkTransition md5hex w did (some w')) {i : Nat} {peer' : Peer}
    (there : w'.peers[i]? = some peer') : ∃ peer, w.peers[i]? = some peer ∧ peer.Moves w i did peer' := by
  generalize after : some w' = rest at transition
  cases transition with
  | acted j peer client action down seen rest isThere alive leaves ran =>
    cases after
    rcases getElem?_set_of_eq there with ⟨rfl, rfl⟩ | ⟨other, same⟩
    · exact ⟨peer, isThere, .acts client action down seen rest alive leaves ran rfl⟩
    · have silent : clientTrace i (seen.map (.client j)) = [] := by rw [clientTrace_client, if_neg other]
      have stays := @Peer.Moves.stays w i peer' (seen.map (.client j)) peer'.up silent (by simp) (by simp)
      rw [serverTrace_client, Peer.hear_nil] at stays
      exact ⟨peer', same, stays⟩
  | served action first peers seen rest prepares ran =>
    obtain ⟨server, rfl, rfl⟩ := Option.map_eq_some_iff.mp after.symm
    rw [List.getElem?_map, Option.map_eq_some_iff] at there
    obtain ⟨before, there, rfl⟩ := there
    exact prepares.peer seen there

/-- What a step is for the server. -/
theorem TalkTransition.server {md5hex : Block → Block} {w w' : Talk} {did : List TalkSighting}
    (transition : TalkTransition md5hex w did (some w')) :
    (∃ i, ∃ seen : List ClientSighting, did = seen.map (.client i)) ∧ w'.server = w.server ∨
      ∃ action first peers, ∃ seen : List ChatSighting, Prepares w action first peers ∧
        did = first ++ seen.map .server ∧
        chatStep md5hex w.server action = some (seen, some w'.server) := by
  generalize after : some w' = rest at transition
  cases transition with
  | acted i peer client action down seen rest isThere alive leaves ran =>
    cases after
    exact .inl ⟨⟨i, seen, rfl⟩, rfl⟩
  | served action first peers seen rest prepares ran =>
    obtain ⟨server, rfl, rfl⟩ := Option.map_eq_some_iff.mp after.symm
    exact .inr ⟨action, first, peers, seen, prepares, rfl, ran⟩

theorem TalkTransition.length_peers {md5hex : Block → Block} {w w' : Talk} {did : List TalkSighting}
    (transition : TalkTransition md5hex w did (some w')) : w'.peers.length = w.peers.length := by
  generalize after : some w' = rest at transition
  cases transition with
  | acted i peer client action down seen rest isThere alive leaves ran =>
    cases after
    simp
  | served action first peers seen rest prepares ran =>
    obtain ⟨server, rfl, rfl⟩ := Option.map_eq_some_iff.mp after.symm
    cases prepares <;> simp

/-- Who is seen in a step is there. -/
theorem TalkTransition.inside {md5hex : Block → Block} {w : Talk} {did : List TalkSighting} {rest : Option Talk}
    (transition : TalkTransition md5hex w did rest) {i : Nat} (absent : w.peers[i]? = none) :
    clientTrace i did = [] ∧ ∀ c, .accepted i c ∉ did := by
  cases transition with
  | acted j peer client action down seen rest isThere alive leaves ran =>
    have other : j ≠ i := by
      rintro rfl
      rw [isThere] at absent
      cases absent
    rw [clientTrace_client, if_neg other]
    simp
  | served action first peers seen rest prepares ran =>
    rw [clientTrace_append, clientTrace_server, prepares.silent.2 i]
    refine ⟨rfl, ?_⟩
    cases prepares with
    | accept j sockid peer client isThere alive connected fresh positive =>
      have other : i ≠ j := by
        rintro rfl
        rw [isThere] at absent
        cases absent
      simp [other]
    | handle | acceptOther | handleOther | close | broadcast | send => simp

/-! ### Connections -/

/-- Addresses are not given out again. -/
theorem chatStep_next_le {md5hex : Block → Block} {s s' : Chat} {action : ChatAction} {did : List ChatSighting}
    (taken : chatStep md5hex s action = some (did, some s')) : s.core.conns.next ≤ s'.core.conns.next := by
  generalize after : some s' = rest at taken
  cases chatStep_transition taken with
  | session action seen core ran =>
    obtain ⟨core', rfl, rfl⟩ := Option.map_eq_some_iff.mp after.symm
    exact (Once.session_conns ran).1
  | broadcast | sent =>
    cases after
    exact Nat.le_refl _
  | crashed => cases after

theorem chatStep_accept_next {md5hex : Block → Block} {s s' : Chat} {sockid : Int32} {did : List ChatSighting}
    (positive : sockid > 0) (taken : chatStep md5hex s (.session (.accept sockid)) = some (did, some s')) :
    did = [] ∧ s'.core.conns.next = s.core.conns.next + 1 := by
  generalize after : some s' = rest at taken
  cases chatStep_transition taken with
  | session action seen core ran =>
    obtain ⟨core', rfl, rfl⟩ := Option.map_eq_some_iff.mp after.symm
    generalize left : some core' = rest at ran
    cases sessionStep_transition ran with
    | accepted sockid unused =>
      cases left
      refine ⟨rfl, ?_⟩
      simp only [Core.acceptConnection, if_pos positive]
      rfl

theorem TalkTransition.next_le {md5hex : Block → Block} {w w' : Talk} {did : List TalkSighting}
    (transition : TalkTransition md5hex w did (some w')) :
    w.server.core.conns.next ≤ w'.server.core.conns.next := by
  rcases transition.server with ⟨_, same⟩ | ⟨action, first, peers, seen, _, _, ran⟩
  · rw [same]
  · exact chatStep_next_le ran

/-- One client at most is accepted in a step, on a new connection. -/
theorem TalkTransition.accepts {md5hex : Block → Block} {w w' : Talk} {did : List TalkSighting}
    (transition : TalkTransition md5hex w did (some w')) : (∀ i c, .accepted i c ∉ did) ∨
      ∃ i, (∀ j c, .accepted j c ∈ did → j = i ∧ c = w.server.core.conns.next) ∧
        serverTrace did = [] ∧ w.server.core.conns.next < w'.server.core.conns.next := by
  rcases transition.server with ⟨⟨i, seen, rfl⟩, _⟩ | ⟨action, first, peers, seen, prepares, rfl, ran⟩
  · exact .inl (by simp)
  · cases prepares with
    | accept i sockid peer client there alive connected fresh positive =>
      obtain ⟨rfl, next⟩ := chatStep_accept_next positive ran
      refine .inr ⟨i, by simp, rfl, ?_⟩
      rw [next]
      exact Nat.lt_succ_self _
    | handle | acceptOther | handleOther | close | broadcast | send => exact .inl (by simp)

/-! ### The parties in a run -/

/-- A client runs, or it has run until it crashed. -/
inductive ClientRan : List ClientSighting → Option Client → Prop
  | running {trace : List ClientSighting} {client : Client}
      (ran : Ran Client.step (fun _ _ => True) Client.init trace client) : ClientRan trace (some client)
  | crashed {trace did : List ClientSighting} {client : Client} {action : ClientAction}
      (ran : Ran Client.step (fun _ _ => True) Client.init trace client)
      (last : Client.step client action = some (did, none)) : ClientRan (trace ++ did) none

/-- A client runs; what it has written the server has taken or will find on the way. -/
structure Party (trace : List TalkSighting) (i : Nat) (peer : Peer) : Prop where
  ran : ClientRan (clientTrace i trace) peer.client
  sent : (clientTrace i trace).filterMap ClientSighting.package = takenFrom i trace ++ peer.up
  attached : ∀ c, .accepted i c ∈ trace ↔ peer.conn = some c

theorem ClientRan.step {trace seen : List ClientSighting} {client : Client} {action : ClientAction}
    {rest : Option Client} (ran : ClientRan trace (some client))
    (taken : Client.step client action = some (seen, rest)) : ClientRan (trace ++ seen) rest := by
  generalize alive : some client = before at ran
  cases ran with
  | running ran =>
    cases alive
    cases rest with
    | none => exact .crashed ran taken
    | some client' => exact .running (ran.step trivial taken)
  | crashed => cases alive

theorem Party.step {w : Talk} {trace did : List TalkSighting} {i : Nat} {peer peer' : Peer}
    (party : Party trace i peer) (moves : peer.Moves w i did peer') : Party (trace ++ did) i peer' := by
  obtain ⟨ran, sent, attached⟩ := party
  cases moves with
  | acts client action down seen rest alive leaves taken all =>
    subst all
    rw [alive] at ran
    refine ⟨?_, ?_, ?_⟩
    · rw [clientTrace_append, clientTrace_client, if_pos rfl]
      exact ran.step taken
    · rw [clientTrace_append, clientTrace_client, if_pos rfl, takenFrom_append, takenFrom_client,
        List.append_nil, List.filterMap_append, sent, List.append_assoc]
    · intro c
      simpa using attached c
  | stays up silent takes unasked =>
    refine ⟨?_, ?_, ?_⟩
    · rw [clientTrace_append, silent, List.append_nil, Peer.hear_client]
      exact ran
    · rw [clientTrace_append, silent, List.append_nil, sent, takes, takenFrom_append, Peer.hear_up,
        List.append_assoc]
    · intro c
      rw [Peer.hear_conn, List.mem_append, or_iff_left (unasked c)]
      exact attached c
  | connects fresh silent takes first =>
    refine ⟨?_, ?_, ?_⟩
    · rw [clientTrace_append, silent, List.append_nil, Peer.hear_client]
      exact ran
    · rw [clientTrace_append, silent, List.append_nil, sent, takenFrom_append, takes, List.append_nil,
        Peer.hear_up]
    · intro c
      -- A client is accepted once.
      have before : .accepted i c ∉ trace := by
        rw [attached c, fresh]
        exact nofun
      rw [Peer.hear_conn, List.mem_append, or_iff_right before, first c, Option.some.injEq]

/-- Everybody runs; a connection is that of one client. -/
structure Parties (md5hex : Block → Block) (db : Db) (trace : List TalkSighting) (w : Talk) : Prop where
  server : Ran (chatStep md5hex) (fun _ _ => True) (Chat.init db) (serverTrace trace) w.server
  each : ∀ i peer, w.peers[i]? = some peer → Party trace i peer
  absent : ∀ i, w.peers[i]? = none → clientTrace i trace = [] ∧ ∀ c, .accepted i c ∉ trace
  bounded : ∀ i c, .accepted i c ∈ trace → c < w.server.core.conns.next
  apart : ∀ i j c, .accepted i c ∈ trace → .accepted j c ∈ trace → i = j

namespace Parties

variable {md5hex : Block → Block} {db : Db} {clients : Nat} {trace : List TalkSighting} {w : Talk}

theorem init (db : Db) (clients : Nat) : Parties md5hex db [] (Talk.init db clients) where
  server := .start
  each i peer there := by
    rw [Talk.init, List.getElem?_replicate] at there
    split at there <;> cases there
    exact ⟨.running .start, rfl, by simp⟩
  absent i outside := ⟨rfl, by simp⟩
  bounded i c member := by cases member
  apart i j c member := by cases member

theorem step (parties : Parties md5hex db trace w) {did : List TalkSighting} {w' : Talk}
    (transition : TalkTransition md5hex w did (some w')) : Parties md5hex db (trace ++ did) w' where
  server := by
    rw [serverTrace_append]
    rcases transition.server with ⟨⟨i, seen, rfl⟩, same⟩ | ⟨action, first, peers, seen, prepares, rfl, ran⟩
    · rw [serverTrace_client, List.append_nil, same]
      exact parties.server
    · rw [prepares.serverTrace_eq]
      exact parties.server.step trivial ran
  each i peer' there := by
    obtain ⟨peer, before, moves⟩ := transition.peer there
    exact (parties.each i peer before).step moves
  absent i outside := by
    have before : w.peers[i]? = none := by
      rw [List.getElem?_eq_none_iff] at outside ⊢
      rwa [← transition.length_peers]
    obtain ⟨silent, unasked⟩ := parties.absent i before
    obtain ⟨silent', unasked'⟩ := transition.inside before
    rw [clientTrace_append, silent, silent']
    exact ⟨rfl, fun c member => (List.mem_append.mp member).elim (unasked c) (unasked' c)⟩
  bounded i c member := by
    rcases List.mem_append.mp member with old | new
    · exact Nat.lt_of_lt_of_le (parties.bounded i c old) transition.next_le
    · rcases transition.accepts with none | ⟨j, only, _, more⟩
      · exact absurd new (none i c)
      · rw [(only i c new).2]
        exact more
  apart i j c first second := by
    rcases transition.accepts with none | ⟨k, only, _, _⟩
    · exact parties.apart i j c ((List.mem_append.mp first).resolve_right (none i c))
        ((List.mem_append.mp second).resolve_right (none j c))
    · -- An address that was given out before is not the next one.
      have fresh : ∀ j, .accepted j w.server.core.conns.next ∉ trace :=
        fun j old => Nat.lt_irrefl _ (parties.bounded j _ old)
      rcases List.mem_append.mp first with old | new <;> rcases List.mem_append.mp second with old' | new'
      · exact parties.apart i j c old old'
      · exact absurd ((only j c new').2 ▸ old) (fresh i)
      · exact absurd ((only i c new).2 ▸ old') (fresh j)
      · exact (only i c new).1.trans (only j c new').1.symm

theorem of_ran {cond : Talk → TalkAction → Prop} (ran : Ran (Talk.step md5hex) cond (Talk.init db clients) trace w) :
    Parties md5hex db trace w :=
  ran.invariant (.init db clients) fun _ _ _ _ _ parties _ taken => parties.step (Talk.step_transition taken)

end Parties

/-- What a client does by itself. -/
def asClient (i : Nat) (actions : List ClientAction) : List TalkAction := actions.map (TalkAction.client i)

/-- Root says something, which somebody reads who has not logged in. -/
def smallTalk : List TalkAction :=
  let net : Network := ⟨5, fun _ => some 1, fun _ _ => true⟩
  let connects : List ClientAction := [.perform .controller, .key .other 0, .guiIterate, .answer (.enter [97]) net 0]
  let logsIn : List ClientAction := [.perform .gui, .key .other 0, .guiIterate, .answer (.enter (ascii "root")) net 0,
    .perform .gui, .key .other 0, .guiIterate, .answer (.enter [98]) net 0, .perform .gui]
  let hears : List ClientAction := [.perform .listener, .controllerIterate fun _ => 0, .perform .controller]
  let speaks : List ClientAction := [.key (.enter (ascii "hi")) 0, .perform .gui, .controllerIterate fun _ => 0,
    .perform .controller]
  let shows : List ClientAction := [.perform .listener, .perform .gui, .key .other 0, .guiIterate]
  [asClient 0 connects, [.accept 0 7], asClient 1 connects, [.accept 1 8],
    asClient 0 logsIn, [.handle 0 .calm, .read 0 13 [] 0], asClient 0 hears, [.handle 0 .calm],
    asClient 0 speaks, [.handle 0 .calm, .broadcast 1 [], .send 1],
    -- the header comes in two pieces
    [.read 1 100 [4] 0, .client 1 .listenerIterate, .read 1 100 [] 0], asClient 1 shows].flatten

theorem smallTalk_ran : ∃ trace w,
    replay (Talk.step fun _ => emptyDigest) (Talk.init (preparedDb emptyDigest) 2) smallTalk = some (trace, w) ∧
    (∀ sight ∈ trace, sight.Short) ∧ .accepted 0 0 ∈ trace ∧ .accepted 1 1 ∈ trace ∧
    .client 1 (.printed messageServerRegular (some (ascii "root")) (ascii "hi") 0) ∈ trace := by
  have seen : (replay (Talk.step fun _ => emptyDigest) (Talk.init (preparedDb emptyDigest) 2) smallTalk).any
      (fun (trace, _) => decide ((∀ sight ∈ trace, sight.Short) ∧ .accepted 0 0 ∈ trace ∧ .accepted 1 1 ∈ trace ∧
        .client 1 (.printed messageServerRegular (some (ascii "root")) (ascii "hi") 0) ∈ trace)) = true := by
    decide +kernel
  obtain ⟨⟨trace, w⟩, replayed, facts⟩ := (Option.any_eq_true _ _).mp seen
  exact ⟨trace, w, replayed, of_decide_eq_true facts⟩

end AcosChat

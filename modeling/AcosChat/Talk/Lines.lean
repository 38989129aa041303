import AcosChat.Client.Lines
import AcosChat.Talk.Delivery

/-!
# From the keyboards to the screens

What the server broadcasts for the connection of a client are lines that its user has typed, and
what the client prints is what was sent to it: in each direction nothing is made up, doubled or
overtaken on the way.
-/
namespace AcosChat

open Store Run Bytes

/-! ### What is seen of a client -/

/-- What is typed is a string, and what is written is a message of one of the handlers. -/
def ClientSighting.Lawful : ClientSighting → Prop
  | .typed text => NulFree text
  | .wrote _ msg => ∃ who, ClientCall who (.write msg)
  | .closed _ buf => buf = logoutBuffer
  | _ => True

theorem Key.calls_nulFree {tstamp : UInt64} {key : Key} {todo : List ClientEffect}
    (calls : key.calls tstamp = some todo) {text : Block}
    (member : .toController (.sendMessageToServer text) ∈ todo) : NulFree text := by
  cases key with
  | enter field =>
    obtain ⟨_, stripped, rfl⟩ := Option.map_eq_some_iff.mp calls
    cases List.mem_singleton.mp member
    obtain ⟨mem, _, rfl⟩ := Option.map_eq_some_iff.mp stripped
    exact nulFree_takeWhile mem
  | closeApp | other =>
    cases calls
    cases member
  | printHelp | listUsers | kickUsers =>
    cases calls
    cases List.mem_singleton.mp member

namespace Client

variable {s s' : Client} {did : List ClientSighting}

theorem perform_lawful {who : ClientThread} {effect : ClientEffect}
    (call : effect = askServerAddr ∨ ClientCall who effect) : ∀ sight ∈ (s.perform effect).1, sight.Lawful := by
  intro sight member
  cases effect with
  | write msg =>
    have call : ClientCall who (.write msg) := call.resolve_left nofun
    rw [List.mem_singleton.mp member]
    split
    · trivial
    · exact ⟨who, call⟩
  | _ => cases member

theorem refusal_lawful (s : Client) (evt : ControlEvent) : ∀ sight ∈ s.refusal evt, sight.Lawful := by
  intro sight member
  cases evt with
  | sendMessageToServer text =>
    simp only [refusal] at member
    split at member
    · rw [List.mem_singleton.mp member]
      trivial
    · cases member
  | _ => cases member

theorem Calls.lawful (calls : s.Calls) (transition : ClientTransition s did s') : ∀ sight ∈ did, sight.Lawful := by
  intro sight member
  cases transition with
  | performed who effect todo there => exact perform_lawful (calls.next there) sight member
  | handled tstamp evt =>
    rcases List.mem_cons.mp member with rfl | refused
    · trivial
    · exact s.refusal_lawful evt sight refused
  | pressed tstamp key todo ready pressed =>
    obtain ⟨effect, inside, typed⟩ := List.mem_filterMap.mp member
    unfold ClientEffect.typed at typed
    split at typed
    · cases typed
      exact Key.calls_nulFree pressed inside
    · cases typed
  | listened | lost =>
    obtain ⟨_, _, rfl⟩ := List.mem_map.mp member
    trivial
  | joinedListener =>
    split at member
    · cases member
    · rw [List.mem_singleton.mp member]
      rfl
  | exited | printed | asked =>
    rw [List.mem_singleton.mp member]
    trivial
  | idle | left | unasked | entered | cancelled | unconnected | iterated | joinedGui | joinedController => cases member

end Client

namespace ClientRan

variable {trace : List ClientSighting} {rest : Option Client}

/-- A crash adds nothing that could be mistaken for something else. -/
theorem exists_ran (ran : ClientRan trace rest) : ∃ before last client, trace = before ++ last ∧
    Ran Client.step (fun _ _ => True) Client.init before client ∧
    ∀ sight ∈ last, sight = .crashed ∨ ∃ evt, sight = .took evt := by
  cases ran with
  | running ran => exact ⟨trace, [], _, (List.append_nil _).symm, ran, nofun⟩
  | crashed ran last =>
    refine ⟨_, _, _, rfl, ran, ?_⟩
    intro sight member
    obtain ⟨_, evt, rfl, _⟩ | ⟨_, rfl, _⟩ := Client.step_crashed last
    · simp only [List.mem_cons, List.not_mem_nil, or_false] at member
      rcases member with rfl | rfl
      · exact .inr ⟨evt, rfl⟩
      · exact .inl rfl
    · exact .inl (List.mem_singleton.mp member)

theorem lawful (ran : ClientRan trace rest) : ∀ sight ∈ trace, sight.Lawful := by
  obtain ⟨before, last, client, rfl, ran, crash⟩ := ran.exists_ran
  have lawful : (∀ sight ∈ before, sight.Lawful) ∧ client.Calls := by
    refine @Ran.invariant _ _ _ _ _ _ (fun trace s => (∀ sight ∈ trace, sight.Lawful) ∧ s.Calls)
      ⟨nofun, Client.init_calls⟩ ?_ _ _ ran
    rintro trace s action did s' ⟨lawful, calls⟩ _ taken
    have transition := Client.step_transition taken
    exact ⟨List.forall_mem_append.mpr ⟨lawful, calls.lawful transition⟩, calls.step transition⟩
  intro sight member
  rcases List.mem_append.mp member with early | late
  · exact lawful.1 sight early
  · rcases crash sight late with rfl | ⟨evt, rfl⟩ <;> trivial

/-- What has gone out is the front of what has come in. -/
theorem flatMap_front {β : Type} (ran : ClientRan trace rest) (inn out : ClientSighting → List β)
    (held : Client → List β)
    (silent : inn .crashed = [] ∧ out .crashed = [] ∧ ∀ evt, inn (.took evt) = [] ∧ out (.took evt) = [])
    (empty : held Client.init = [])
    (passes : ∀ trace client, Ran Client.step (fun _ _ => True) Client.init trace client → ∀ action did client',
      Client.step client action = some (did, some client') → Passes inn out held client did client') :
    trace.flatMap out <+: trace.flatMap inn := by
  obtain ⟨before, last, client, rfl, ran, crash⟩ := ran.exists_ran
  obtain ⟨innCrash, outCrash, took⟩ := silent
  -- The crash itself counts for nothing, so the run before it decides.
  have nothing : last.flatMap inn = [] ∧ last.flatMap out = [] := by
    rw [List.flatMap_eq_nil_iff, List.flatMap_eq_nil_iff]
    constructor
    · intro sight member
      rcases crash sight member with rfl | ⟨evt, rfl⟩
      · exact innCrash
      · exact (took evt).1
    · intro sight member
      rcases crash sight member with rfl | ⟨evt, rfl⟩
      · exact outCrash
      · exact (took evt).2
  have passed := ran.passes inn out held fun trace client action did client' before _ taken =>
    passes trace client before action did client' taken
  rw [Passes, empty, List.nil_append] at passed
  rw [List.flatMap_append, List.flatMap_append, nothing.1, nothing.2, List.append_nil, List.append_nil, passed]
  exact List.prefix_append _ _

/-- The messages of the chat are printed as they are received. -/
theorem printed_front (ran : ClientRan trace rest) :
    trace.flatMap ClientSighting.printedChat <+: trace.flatMap ClientSighting.receivedChat :=
  ran.flatMap_front _ _ Client.chatHeld ⟨rfl, rfl, fun _ => ⟨rfl, rfl⟩⟩ rfl fun _ _ before _ _ _ taken =>
    (Client.ran_calls before).chat_passes (Client.step_transition taken)

/-- The lines are written or refused as they are typed. -/
theorem fate_front (ran : ClientRan trace rest) :
    trace.flatMap ClientSighting.fate <+: trace.flatMap ClientSighting.typedLine :=
  ran.flatMap_front _ _ Client.lineHeld ⟨rfl, rfl, fun _ => ⟨rfl, rfl⟩⟩ rfl fun _ _ before _ _ _ taken =>
    (ran_conversing before).line_passes (Client.step_transition taken)

end ClientRan

/-! ### From the keyboard to the server -/

/-- What a client writes is a message of one of these kinds. -/
theorem ClientCall.write_cases {who : ClientThread} {msg : Message} (call : ClientCall who (.write msg)) :
    (∃ text, msg = sendMessageToServerJob text) ∨ (∃ name passwd, msg = loginCallbackSuccess name passwd) ∨
      (∃ cnt, msg = historyRequest cnt) ∨ msg = askForUserlist ∨
      ∃ uid reason, msg = getKickReasonSuccess uid reason := by
  generalize same : ClientEffect.write msg = effect at call
  cases call with
  | event evt => cases evt <;> cases same
  | regular text =>
    cases same
    exact .inl ⟨text, rfl⟩
  | login name passwd =>
    cases same
    exact .inr (.inl ⟨name, passwd, rfl⟩)
  | history =>
    cases same
    exact .inr (.inr (.inl ⟨_, rfl⟩))
  | userlist =>
    cases same
    exact .inr (.inr (.inr (.inl rfl)))
  | kick uid reason =>
    cases same
    exact .inr (.inr (.inr (.inr ⟨uid, reason, rfl⟩)))
  | _ => cases same

theorem ClientCall.wellFormed {who : ClientThread} {msg : Message} (call : ClientCall who (.write msg)) :
    ∀ t ∈ msg.tokens, t.WellFormed := by
  rcases call.write_cases with ⟨_, rfl⟩ | ⟨_, _, rfl⟩ | ⟨_, rfl⟩ | rfl | ⟨_, _, rfl⟩
  · simp [sendMessageToServerJob]
  · simp [loginCallbackSuccess]
  · simp [historyRequest]
  · simp [askForUserlist]
  · simp [getKickReasonSuccess]

/-- A REGULAR is that of the job. -/
theorem ClientCall.eq_of_regular {who : ClientThread} {msg : Message} (call : ClientCall who (.write msg))
    (regular : msg.msgType = messageClientRegular) : ∃ text, msg = sendMessageToServerJob text := by
  rcases call.write_cases with text | ⟨_, _, rfl⟩ | ⟨_, rfl⟩ | rfl | ⟨_, _, rfl⟩
  · exact text
  · exact absurd regular (by decide : messageClientLogin ≠ messageClientRegular)
  · exact absurd regular (by decide : messageClientHistory ≠ messageClientRegular)
  · exact absurd regular (by decide : messageClientList ≠ messageClientRegular)
  · exact absurd regular (by decide : messageClientKick ≠ messageClientRegular)

theorem packageText_eq_nil {package : Block} {msg : Message} (unpacked : unpackPackage package = some msg)
    (other : msg.msgType ≠ messageClientRegular) : packageText package = [] := by
  rw [packageText, unpacked, Option.map_some, Option.getD_some, Message.text, if_neg other]

/-- The server reads the text that the client has written. -/
theorem ClientCall.packageText_eq {who : ClientThread} {msg : Message} (call : ClientCall who (.write msg))
    (short : msg.Short) {package : Block} (packed : packMessage msg = some package)
    (nulFree : ∀ text ∈ msg.regularText, NulFree text) : packageText package = msg.regularText := by
  have unpacked := unpackPackage_packMessage call.wellFormed short packed
  by_cases regular : msg.msgType = messageClientRegular
  · obtain ⟨text, rfl⟩ := call.eq_of_regular regular
    -- A string without NUL is copied from the token as a whole.
    have nulFree : NulFree text := nulFree text (by simp)
    have small : text.length < 2147483648 := short_of_cStr nulFree List.mem_cons_self short.bodyLength_lt
    rw [packageText, unpacked, regularText_sendMessageToServerJob]
    simp [Message.text, sendMessageToServerJob, tokenPStr, payload_cStr nulFree, pStrToCStr_of_nulFree nulFree small]
  · rw [packageText_eq_nil unpacked regular, regularText_eq_nil regular]

theorem ClientSighting.package_text {sight : ClientSighting} (lawful : sight.Lawful)
    (short : ∀ sockid msg, sight = .wrote sockid msg → msg.Short) (nulFree : ∀ text ∈ sight.fate, NulFree text) :
    List.Sublist (sight.package.toList.flatMap packageText) sight.fate := by
  cases sight with
  | wrote sockid msg =>
    obtain ⟨who, call⟩ := lawful
    rw [package]
    cases packed : packMessage msg with
    | none => exact List.nil_sublist _
    | some bytes =>
      rw [Option.toList_some, List.flatMap_singleton, call.packageText_eq (short sockid msg rfl) packed nulFree]
      exact List.Sublist.refl _
  | closed sockid buf =>
    obtain rfl : buf = logoutBuffer := lawful
    have silent : packageText logoutBuffer = [] := by decide
    rw [package, Option.toList_some, List.flatMap_singleton, silent]
    exact List.nil_sublist _
  | _ => exact List.nil_sublist _

/-- What the server reads of a client's texts are lines that have been typed there. -/
theorem ClientRan.texts_sublist {trace : List ClientSighting} {rest : Option Client} (ran : ClientRan trace rest)
    (short : ∀ sockid msg, .wrote sockid msg ∈ trace → msg.Short) :
    List.Sublist ((trace.filterMap ClientSighting.package).flatMap packageText)
      (trace.flatMap ClientSighting.typedLine) := by
  -- What becomes of a line was typed before, as a string.
  have typed : ∀ text ∈ trace.flatMap ClientSighting.fate, NulFree text := by
    intro text member
    obtain ⟨sight, inside, line⟩ := List.mem_flatMap.mp (ran.fate_front.subset member)
    cases sight with
    | typed line' =>
      cases List.mem_singleton.mp line
      exact ran.lawful _ inside
    | _ => cases line
  have written : List.Sublist ((trace.filterMap ClientSighting.package).flatMap packageText)
      (trace.flatMap ClientSighting.fate) := by
    rw [List.filterMap_eq_flatMap_toList, List.flatMap_assoc]
    apply List.Sublist.flatMap_right
    intro sight member
    refine ClientSighting.package_text (ran.lawful sight member) ?_ ?_
    · rintro sockid msg rfl
      exact short sockid msg member
    · intro text line
      exact typed text (List.mem_flatMap.mpr ⟨sight, member, line⟩)
  exact written.trans ran.fate_front.sublist

/-! ### From the server to the screen -/

/-- The message of the chat for which a frame has come. -/
def ClientEvent.chat : ClientEvent → List Printed
  | .displayParsedMessage type author text tstamp => chatLine type author text tstamp
  | _ => []

/-- What a client prints for a message. -/
def Message.lines (msg : Message) : List Printed := msg.events.flatMap ClientEvent.chat

theorem ClientSighting.receivedChat_eq (sight : ClientSighting) :
    sight.receivedChat = sight.events.flatMap ClientEvent.chat := by
  cases sight with
  | received sent =>
    cases sent with
    | event evt => cases evt <;> simp [receivedChat, events, ClientEvent.chat]
    | _ => rfl
  | _ => rfl

/-- What is printed is the front of what was sent. -/
theorem Channel.printed_front {trace : List TalkSighting} {i : Nat} {peer : Peer} (channel : Channel trace i peer)
    (ran : ClientRan (clientTrace i trace) peer.client) :
    (clientTrace i trace).flatMap ClientSighting.printedChat <+: (sentOn trace peer.conn).flatMap Message.lines := by
  obtain ⟨done, left, split, received, _⟩ := channel
  have lines : (clientTrace i trace).flatMap ClientSighting.receivedChat = done.flatMap Message.lines := by
    rw [List.flatMap_congr fun sight _ => sight.receivedChat_eq, ← List.flatMap_assoc, received, List.flatMap_assoc]
    rfl
  rw [split, List.flatMap_append]
  exact (lines ▸ ran.printed_front).trans (List.prefix_append _ _)

/-! ### In every run -/

section Runs

variable {md5hex : Block → Block} {db : Db} {clients : Nat} {trace : List TalkSighting} {w : Talk}

/-- The frames are those of the server, which it can pack. -/
theorem Heard.allDeliverable (heard : Heard md5hex db trace w) (short : ∀ sight ∈ trace, sight.Short) :
    AllDeliverable (serverTrace trace) := by
  intro c msg member
  exact ⟨(heard.frames c msg member).2, short _ (mem_serverTrace.mp member)⟩

/-- The texts that are broadcast for a client's connection have been typed there. -/
theorem Heard.texts_typed (heard : Heard md5hex db trace w) (parties : Parties md5hex db trace w)
    (short : ∀ sight ∈ trace, sight.Short) {i c : Nat} (accepted : .accepted i c ∈ trace) :
    List.Sublist ((observations (serverTrace trace)).filterMap (Observed.text c))
      ((clientTrace i trace).flatMap ClientSighting.typedLine) := by
  cases there : w.peers[i]? with
  | none => exact absurd accepted ((parties.absent i there).2 c)
  | some peer =>
    have party := parties.each i peer there
    -- What is broadcast was taken, what is taken was written, and what is written was typed.
    have written := party.ran.texts_sublist fun sockid msg member => short _ (mem_clientTrace.mp member)
    have taken : List.Sublist ((takenFrom i trace).flatMap packageText)
        (((clientTrace i trace).filterMap ClientSighting.package).flatMap packageText) := by
      rw [party.sent]
      exact (List.sublist_append_left _ _).flatMap packageText
    exact (heard.texts i c accepted).trans (taken.trans written)

/-- In every run of the server and its clients, as long as an `int` can count the frames: what the
server broadcasts for the connection of a client are lines that its user has typed, each for
one of its own and in their order; the messages that a client prints are those that were sent
on its connection, up to some point and in their order; without a connection it prints none. -/
theorem talk_in_order {cond : Talk → TalkAction → Prop} (unique : UniqueUids db)
    (ran : Ran (Talk.step md5hex) cond (Talk.init db clients) trace w) (short : ∀ sight ∈ trace, sight.Short) :
    (∀ i c, .accepted i c ∈ trace →
      List.Sublist ((observations (serverTrace trace)).filterMap (Observed.text c))
        ((clientTrace i trace).flatMap ClientSighting.typedLine) ∧
      (clientTrace i trace).flatMap ClientSighting.printedChat <+:
        (framesTo (serverTrace trace) c).flatMap Message.lines) ∧
    ∀ i, (∀ c, .accepted i c ∉ trace) → (clientTrace i trace).flatMap ClientSighting.printedChat = [] := by
  have parties := Parties.of_ran ran
  have heard := Heard.of_ran unique ran
  have channel := Channel.of_ran unique ran (heard.allDeliverable short)
  constructor
  · intro i c accepted
    refine ⟨heard.texts_typed parties short accepted, ?_⟩
    cases there : w.peers[i]? with
    | none => exact absurd accepted ((parties.absent i there).2 c)
    | some peer =>
      have printed := (channel i peer there).printed_front (parties.each i peer there).ran
      rw [((parties.each i peer there).attached c).mp accepted] at printed
      exact printed
  · intro i alone
    cases there : w.peers[i]? with
    | none =>
      rw [(parties.absent i there).1]
      rfl
    | some peer =>
      have printed := (channel i peer there).printed_front (parties.each i peer there).ran
      cases conn : peer.conn with
      | none =>
        rw [conn] at printed
        exact List.prefix_nil.mp printed
      | some c => exact absurd (((parties.each i peer there).attached c).mpr conn) (alone c)

end Runs

/-- The line of root is on the other screen. -/
theorem talk_in_order_small : ∃ trace, .accepted 0 0 ∈ trace ∧ .accepted 1 1 ∈ trace ∧
    .client 1 (.printed messageServerRegular (some (ascii "root")) (ascii "hi") 0) ∈ trace ∧
    List.Sublist ((observations (serverTrace trace)).filterMap (Observed.text 0))
      ((clientTrace 0 trace).flatMap ClientSighting.typedLine) ∧
    (clientTrace 1 trace).flatMap ClientSighting.printedChat <+:
      (framesTo (serverTrace trace) 1).flatMap Message.lines := by
  obtain ⟨trace, w, replayed, short, first, second, printed⟩ := smallTalk_ran
  have ran : Ran (Talk.step fun _ => emptyDigest) (fun _ _ => True) _ trace w :=
    ran_of_replay (meets_of_forall (fun _ _ => trivial) _ _) replayed
  have ordered := (talk_in_order (by unfold UniqueUids; decide) ran short).1
  exact ⟨trace, first, second, printed, (ordered 0 0 first).1, (ordered 1 1 second).2⟩

end AcosChat

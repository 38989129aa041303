import AcosChat.Connection.Reassembly

/-!
# What the two listeners deliver

A listener calls `process_connection` as long as bytes are pending. The server hands
every complete frame to its controller. The client hands it to `unpack_message_2` and
reads the tokens of what that returns, without checking that it is a message or how
many tokens it has, so a frame that is not well formed for its type is its last.
-/
namespace AcosChat

open Bytes

/-- A listener on one connection, and the (header, body) pairs handed over so far. -/
structure Listening where
  conn : Connection
  wire : Wire
  delivered : List (Block × Block)

def Frame.buffers (f : Frame) : Block × Block := (f.header, f.body)

/-- The server's listener; a dispatched connection is reset by `input_msg_event_deleter`
and released by its worker before it is read again. -/
def serverStep (s : Listening) : Loop.Step Listening (List (Block × Block)) :=
  if s.wire.pending = [] then .done s.delivered
  else match processConnection s.conn s.wire with
    | .blocked _ => .done s.delivered
    | .kept conn wire => .next ⟨conn, wire, s.delivered⟩
    | .dispatched conn wire =>
      .next ⟨{ resetConnection conn with inWorker := false }, wire,
        s.delivered ++ [(conn.header.getD [], conn.body.getD [])]⟩
    | .closed _ => .done s.delivered
    | .fault => .fault

/-- The client's listener; a frame that it does not survive is the last it hands over. -/
def clientStep (s : Listening) : Loop.Step Listening (List (Block × Block)) :=
  if s.wire.pending = [] then .done s.delivered
  else match clientProcessConnection s.conn s.wire with
    | .blocked _ => .done s.delivered
    | .kept conn wire => .next ⟨conn, wire, s.delivered⟩
    | .delivered header body none => .done (s.delivered ++ [(header, body)])
    | .delivered header body (some (_, conn, wire)) =>
      .next ⟨conn, wire, s.delivered ++ [(header, body)]⟩
    | .fault => .fault

/-! ### Runs of a listener -/

/-- The frames up to and including the first that is not survived. -/
def upToFatal (survives : Frame → Bool) : List Frame → List Frame
  | [] => []
  | f :: frames => f :: if survives f then upToFatal survives frames else []

/-- What one step of a listener makes of a connection that holds `k` bytes of a frame. -/
inductive Serves (f : Frame) (survives : Frame → Bool) (k : Nat) (s : Listening) :
    Loop.Step Listening (List (Block × Block)) → Prop
  | unfinished (j : Nat) (conn : Connection) (wire : Wire) (moved : 0 < j)
      (there : j ≤ s.wire.pending.length) (missing : k + j < f.bytes.length)
      (holds : Holds f (k + j) conn) (rest : wire.pending = s.wire.pending.drop j)
      (healthy : Healthy wire) : Serves f survives k s (.next ⟨conn, wire, s.delivered⟩)
  | delivered (j : Nat) (sockid : Int32) (inWorker : Bool) (wire : Wire) (moved : 0 < j)
      (there : j ≤ s.wire.pending.length) (all : k + j = f.bytes.length)
      (survived : survives f = true) (rest : wire.pending = s.wire.pending.drop j)
      (healthy : Healthy wire) : Serves f survives k s
        (.next ⟨⟨sockid, none, none, 0, 5, inWorker⟩, wire, s.delivered ++ [f.buffers]⟩)
  | died (there : f.bytes.length ≤ k + s.wire.pending.length) (fatal : survives f = false) :
      Serves f survives k s (.done (s.delivered ++ [f.buffers]))
  | blocked (missing : k + s.wire.pending.length < f.bytes.length) :
      Serves f survives k s (.done s.delivered)

/-- A listener that reassembles: it stops when nothing is pending, and otherwise serves the
frame that the connection holds a part of. -/
structure Reassembles (step : Listening → Loop.Step Listening (List (Block × Block)))
    (survives : Frame → Bool) : Prop where
  idle : ∀ s, s.wire.pending = [] → step s = .done s.delivered
  serves : ∀ (f : Frame) (k : Nat) (s : Listening) (after : Block), f.Countable →
    Holds f k s.conn → Healthy s.wire → s.wire.pending ≠ [] →
    s.wire.pending <+: f.bytes.drop k ++ after → Serves f survives k s (step s)

theorem Holds.lt {f : Frame} {k : Nat} {conn : Connection} (holds : Holds f k conn) :
    k < f.bytes.length := by
  have total := f.length_bytes
  cases holds <;> omega

/-- A run hands over the complete frames of what it receives, each once and in order, up to
the first that is not survived. -/
theorem Reassembles.run {step : Listening → Loop.Step Listening (List (Block × Block))}
    {survives : Frame → Bool} (listener : Reassembles step survives) (budget : Nat)
    (f : Frame) (frames : List Frame) (countable : ∀ g ∈ f :: frames, g.Countable) (k : Nat)
    (s : Listening) (holds : Holds f k s.conn) (healthy : Healthy s.wire)
    (stream : s.wire.pending <+: f.bytes.drop k ++ streamOf frames)
    (enough : s.wire.pending.length < budget) :
    Loop.run step budget s = .done (s.delivered ++ (upToFatal survives
      (completeFrames (f :: frames) (k + s.wire.pending.length))).map Frame.buffers) := by
  induction budget generalizing f frames k s with
  | zero => omega
  | succ budget ih =>
    have short := holds.lt
    -- A call is made only while something is pending.
    by_cases idle : s.wire.pending = []
    · have incomplete : ¬(f.bytes.length ≤ k + s.wire.pending.length) := by
        rw [idle, List.length_nil]
        omega
      rw [Loop.run_done (listener.idle s idle), completeFrames, if_neg incomplete]
      simp [upToFatal]
    have served := listener.serves f k s _ (countable f (by simp)) holds healthy idle stream
    generalize taken : step s = result at served
    cases served with
    | unfinished j conn wire moved there missing holds' rest healthy' =>
      obtain ⟨_, stream'⟩ := prefix_take_drop stream j there (by rw [List.length_drop]; omega)
      rw [List.drop_drop, ← rest] at stream'
      have left : wire.pending.length = s.wire.pending.length - j := by rw [rest, List.length_drop]
      have progress : k + j + wire.pending.length = k + s.wire.pending.length := by omega
      rw [Loop.run_next taken, ← progress]
      exact ih f frames countable (k + j) ⟨conn, wire, s.delivered⟩ holds' healthy' stream'
        (by dsimp only; omega)
    | delivered j sockid inWorker wire moved there all survived rest healthy' =>
      -- The frame is used up, and the next one starts from nothing.
      obtain ⟨_, stream'⟩ := prefix_take_drop stream j there (by rw [List.length_drop]; omega)
      have consumed : (f.bytes.drop k).drop j = [] := by
        rw [List.drop_drop]
        exact List.drop_eq_nil_of_le (by omega)
      rw [consumed, List.nil_append, ← rest] at stream'
      have left : wire.pending.length = k + s.wire.pending.length - f.bytes.length := by
        rw [rest, List.length_drop]
        omega
      rw [Loop.run_next taken, completeFrames, if_pos (by omega), upToFatal, if_pos survived, ← left]
      cases frames with
      | nil =>
        have empty : wire.pending = [] := List.prefix_nil.mp stream'
        obtain ⟨budget, rfl⟩ : ∃ b, budget = b + 1 := ⟨budget - 1, by omega⟩
        rw [Loop.run_done (listener.idle _ empty)]
        simp [completeFrames, upToFatal]
      | cons g frames =>
        have rest := ih g frames (fun h member => countable h (by simp [member])) 0
          ⟨⟨sockid, none, none, 0, 5, inWorker⟩, wire, s.delivered ++ [f.buffers]⟩
          (.fresh sockid inWorker) healthy' stream' (by dsimp only; omega)
        rw [Nat.zero_add] at rest
        rw [rest]
        simp
    | died there fatal =>
      rw [Loop.run_done taken, completeFrames, if_pos there, upToFatal, if_neg (by simp [fatal])]
      simp
    | blocked missing =>
      rw [Loop.run_done taken, completeFrames, if_neg (by omega)]
      simp [upToFatal]

/-! ### The two sides -/

theorem server_reassembles : Reassembles serverStep (fun _ => true) := by
  constructor
  · intro s idle
    simp only [serverStep, if_pos idle]
  · intro f k s after countable holds healthy busy stream
    have advances := receive_advances f countable k s.conn s.wire after holds healthy busy stream
    simp only [serverStep, if_neg busy, processConnection]
    generalize receive s.conn s.wire = received at advances
    cases advances with
    | unfinished j conn wire moved there missing holds rest healthy =>
      exact .unfinished j conn wire moved there missing holds rest healthy
    | complete j conn wire moved there all header body rest healthy =>
      simp only [header, body, Option.getD_some]
      exact .delivered j conn.sockid false wire moved there all rfl rest healthy
    | blocked conn missing => exact .blocked missing

/-- The client gets through `unpack_message_2` and its `switch`. -/
def clientSurvives (f : Frame) : Bool := (deliverMessage f.header f.body).isSome

theorem client_reassembles : Reassembles clientStep clientSurvives := by
  constructor
  · intro s idle
    simp only [clientStep, if_pos idle]
  · intro f k s after countable holds healthy busy stream
    have advances := receive_advances f countable k s.conn s.wire after holds healthy busy stream
    simp only [clientStep, if_neg busy, clientProcessConnection]
    generalize receive s.conn s.wire = received at advances
    cases advances with
    | unfinished j conn wire moved there missing holds rest healthy =>
      exact .unfinished j conn wire moved there missing holds rest healthy
    | complete j conn wire moved there all header body rest healthy =>
      simp only [header, body, Option.getD_some]
      cases handled : deliverMessage f.header f.body with
      | none => exact .died (by omega) (by simp [clientSurvives, handled])
      | some events =>
        exact .delivered j conn.sockid conn.inWorker wire moved there all
          (by simp [clientSurvives, handled]) rest healthy
    | blocked conn missing => exact .blocked missing

/-! ### The frames that the client survives -/

/-- The tokens that the client's `switch` reads are there and long enough. -/
def TokensFit (msgType : UInt8) (payloads : List Block) : Prop :=
  if msgType = messageServerRegular ∨ msgType = messageServerHistory then
    ∃ tstamp login text rest, payloads = tstamp :: login :: text :: rest ∧ 8 ≤ tstamp.length
  else if msgType = messageServerMeta then
    ∃ tstamp text rest, payloads = tstamp :: text :: rest ∧ 8 ≤ tstamp.length
  else if msgType = messageServerKick then payloads ≠ []
  else if msgType = messageServerStatus then ∀ status ∈ payloads.head?, 4 ≤ status.length
  else True

/-- The body is cut into complete tokens, and these fit the type of the frame. -/
def ClientReadable (f : Frame) : Prop :=
  ∃ payloads, Delimits f.body payloads false ∧ TokensFit f.msgType payloads

theorem tokenPStr_map (payloads : List Block) (i : Nat) :
    tokenPStr (payloads.map fun payload => .pStr (pascalBlock payload)) i =
      payloads[i]?.map pascalBlock := by
  rw [tokenPStr, List.getElem?_map]
  cases payloads[i]? <;> rfl

theorem load_pascalBlock_isSome (payload : Block) (width : Nat) :
    (load (pascalBlock payload) 4 width).isSome = true ↔ width ≤ payload.length := by
  rw [Option.isSome_iff_ne_none, ne_eq, load_eq_none_iff, length_pascalBlock]
  omega

/-- `switch` on REGULAR and HISTORY: tokens 0, 1 and 2 are read. -/
private theorem interpret_chat (msgType : UInt8) (payloads : List Block)
    (chat : msgType = messageServerRegular ∨ msgType = messageServerHistory)
    (signed : ∀ payload ∈ payloads, payload.length < 2147483648) :
    (interpretMessage ⟨msgType, payloads.map fun payload => .pStr (pascalBlock payload)⟩).isSome =
      true ↔ TokensFit msgType payloads := by
  have branch : msgType = messageServerRegular ∨ msgType = messageServerHistory ∨
      msgType = messageServerMeta := by
    rcases chat with h | h <;> simp [h]
  have notMeta : ¬(msgType = messageServerMeta) := by
    rcases chat with rfl | rfl <;> decide
  rw [interpretMessage, if_pos branch, TokensFit, if_pos chat]
  simp only [notMeta, if_false, tokenPStr_map]
  rcases payloads with _ | ⟨tstamp, _ | ⟨login, _ | ⟨text, rest⟩⟩⟩
  · simp
  · simp
  · simp [pStrToCStr_pascalBlock login (signed login (by simp))]
  · have author := pStrToCStr_pascalBlock login (signed login (by simp))
    have shown := pStrToCStr_pascalBlock text (signed text (by simp))
    simp [author, shown, ← load_pascalBlock_isSome, Option.isSome_bind]

private theorem interpret_meta (payloads : List Block)
    (signed : ∀ payload ∈ payloads, payload.length < 2147483648) :
    (interpretMessage
      ⟨messageServerMeta, payloads.map fun payload => .pStr (pascalBlock payload)⟩).isSome =
      true ↔ TokensFit messageServerMeta payloads := by
  have notChat : ¬(messageServerMeta = messageServerRegular ∨
      messageServerMeta = messageServerHistory) := by decide
  simp only [interpretMessage, or_true, if_true, tokenPStr_map, TokensFit, if_neg notChat]
  rcases payloads with _ | ⟨tstamp, _ | ⟨text, rest⟩⟩
  · simp
  · simp
  · have shown := pStrToCStr_pascalBlock text (signed text (by simp))
    simp [shown, ← load_pascalBlock_isSome, Option.isSome_bind]

theorem interpretMessage_isSome (msgType : UInt8) (payloads : List Block)
    (signed : ∀ payload ∈ payloads, payload.length < 2147483648) :
    (interpretMessage ⟨msgType, payloads.map fun payload => .pStr (pascalBlock payload)⟩).isSome =
      true ↔ TokensFit msgType payloads := by
  by_cases chat : msgType = messageServerRegular ∨ msgType = messageServerHistory
  · exact interpret_chat msgType payloads chat signed
  by_cases isMeta : msgType = messageServerMeta
  · subst isMeta
    exact interpret_meta payloads signed
  have other : ¬(msgType = messageServerRegular ∨ msgType = messageServerHistory ∨
      msgType = messageServerMeta) := by tauto
  simp only [interpretMessage, if_neg other, TokensFit, if_neg chat, if_neg isMeta]
  by_cases kick : msgType = messageServerKick
  · simp only [if_pos kick, tokenPStr_map]
    rcases payloads with _ | ⟨reason, rest⟩
    · simp
    · simp [pStrToCStr_pascalBlock reason (signed reason (by simp))]
  simp only [if_neg kick]
  by_cases list : msgType = messageServerList
  · have notStatus : ¬(msgType = messageServerStatus) := by subst list; decide
    simp [list, if_neg (list ▸ notStatus)]
  simp only [if_neg list]
  by_cases status : msgType = messageServerStatus
  · simp only [if_pos status, tokenPStr_map]
    rcases payloads with _ | ⟨code, rest⟩
    · simp
    · simp [← load_pascalBlock_isSome, Option.isSome_bind]
  · simp [if_neg status]

/-- The client gets through `unpack_message_2` and its `switch` exactly on the frames it can read. -/
theorem deliverMessage_isSome_iff (f : Frame) (small : f.body.length < 2147483648) :
    (deliverMessage f.header f.body).isSome = true ↔ ClientReadable f := by
  have signed : ∀ payloads, Delimits f.body payloads false →
      ∀ payload ∈ payloads, payload.length < 2147483648 := by
    intro payloads cut payload member
    have inside := cut.payload_le payload member
    omega
  constructor
  · intro survived
    unfold deliverMessage at survived
    split at survived
    next msg returned =>
      obtain ⟨payloads, cut, rfl⟩ := (unpackMessage2_iff f.msgType f.body msg small).mp returned
      exact ⟨payloads, cut, (interpretMessage_isSome _ payloads (signed payloads cut)).mp survived⟩
    all_goals simp at survived
  · rintro ⟨payloads, cut, fit⟩
    have returned := (unpackMessage2_iff f.msgType f.body _ small).mpr ⟨payloads, cut, rfl⟩
    simp only [deliverMessage, Frame.header, returned]
    exact (interpretMessage_isSome _ payloads (signed payloads cut)).mpr fit

/-- The client survives exactly the frames it can read. -/
theorem clientSurvives_iff (f : Frame) (countable : f.Countable) :
    clientSurvives f = true ↔ ClientReadable f := by
  apply deliverMessage_isSome_iff
  unfold Frame.Countable at countable
  omega

/-! ### Reassembly on both sides -/

theorem upToFatal_all (frames : List Frame) : upToFatal (fun _ => true) frames = frames := by
  induction frames with
  | nil => rfl
  | cons f frames ih => simp [upToFatal, ih]

/-- Nothing is cut off exactly if every frame but the last is survived. -/
theorem upToFatal_length_iff (survives : Frame → Bool) (frames : List Frame) :
    (upToFatal survives frames).length = frames.length ↔
      ∀ f ∈ frames.dropLast, survives f = true := by
  induction frames with
  | nil => simp [upToFatal]
  | cons f frames ih =>
    cases frames with
    | nil => cases h : survives f <;> simp [upToFatal, h]
    | cons g frames =>
      cases h : survives f with
      | false => simp [upToFatal, h]
      | true =>
        simp only [List.dropLast_cons_cons, List.mem_cons, forall_eq_or_imp, h, true_and, ← ih]
        simp [upToFatal, h]

theorem upToFatal_eq_iff (survives : Frame → Bool) (frames : List Frame) :
    (upToFatal survives frames).map Frame.buffers = frames.map Frame.buffers ↔
      ∀ f ∈ frames.dropLast, survives f = true := by
  constructor
  · intro same
    have lengths := congrArg List.length same
    simp only [List.length_map] at lengths
    exact (upToFatal_length_iff survives frames).mp lengths
  · intro all
    have lengths := (upToFatal_length_iff survives frames).mpr all
    clear all
    induction frames with
    | nil => rfl
    | cons f frames ih =>
      cases h : survives f with
      | true =>
        simp only [upToFatal, h, if_true, List.map_cons, List.length_cons] at lengths ⊢
        rw [ih (by omega)]
      | false =>
        simp only [upToFatal, h, Bool.false_eq_true, if_false, List.length_cons, List.length_nil]
          at lengths
        -- the frame that kills the client is the last one
        have empty : frames = [] := List.length_eq_zero_iff.mp (by omega)
        simp [upToFatal, h, empty]

theorem mem_completeFrames {frames : List Frame} {n : Nat} :
    ∀ f ∈ completeFrames frames n, f ∈ frames := by
  induction frames generalizing n with
  | nil => simp [completeFrames]
  | cons g frames ih =>
    intro f member
    rw [completeFrames] at member
    split at member
    · rcases List.mem_cons.mp member with rfl | later
      · simp
      · exact List.mem_cons_of_mem g (ih f later)
    · cases member

/-- A run from a fresh connection over a prefix of a stream of frames. -/
theorem Reassembles.run_stream {step : Listening → Loop.Step Listening (List (Block × Block))}
    {survives : Frame → Bool} (listener : Reassembles step survives) (frames : List Frame)
    (countable : ∀ f ∈ frames, f.Countable) (sockid : Int32) (wire : Wire) (healthy : Healthy wire)
    (stream : wire.pending <+: streamOf frames) (budget : Nat)
    (enough : wire.pending.length < budget) :
    Loop.run step budget ⟨newConnection sockid, wire, []⟩ = .done ((upToFatal survives
      (completeFrames frames wire.pending.length)).map Frame.buffers) := by
  cases frames with
  | nil =>
    have empty : wire.pending = [] := List.prefix_nil.mp stream
    obtain ⟨budget, rfl⟩ : ∃ b, budget = b + 1 := ⟨budget - 1, by omega⟩
    rw [Loop.run_done (listener.idle _ empty)]
    rfl
  | cons f frames =>
    have ran := listener.run budget f frames countable 0 ⟨newConnection sockid, wire, []⟩
      (.fresh sockid false) healthy stream enough
    simpa using ran

/-- Reassembly does not depend on how the stream is cut. The server dispatches exactly the
frames that lie completely inside the prefix it has received, each once, in order and byte
for byte. The client hands exactly these to `unpack_message_2` if and only if it can read
every one of them but the last. -/
theorem reassembly_iff (frames : List Frame) (countable : ∀ f ∈ frames, f.Countable)
    (received : Block) (stream : received <+: streamOf frames) (cuts : List Nat)
    (sockid : Int32) (budget : Nat) (enough : received.length < budget) :
    Loop.run serverStep budget ⟨newConnection sockid, ⟨received, cuts, .quiet, fun _ => true⟩, []⟩ =
      .done ((completeFrames frames received.length).map Frame.buffers) ∧
    (Loop.run clientStep budget ⟨newConnection (-1), ⟨received, cuts, .quiet, fun _ => true⟩, []⟩ =
      .done ((completeFrames frames received.length).map Frame.buffers) ↔
      ∀ f ∈ (completeFrames frames received.length).dropLast, ClientReadable f) := by
  have healthy : Healthy ⟨received, cuts, .quiet, fun _ => true⟩ := ⟨rfl, fun _ => rfl⟩
  have server := server_reassembles.run_stream frames countable sockid _ healthy stream budget enough
  have client := client_reassembles.run_stream frames countable (-1) _ healthy stream budget enough
  rw [upToFatal_all] at server
  refine ⟨server, ?_⟩
  rw [client, Loop.Outcome.done.injEq, upToFatal_eq_iff]
  have readable : ∀ f ∈ (completeFrames frames received.length).dropLast,
      (clientSurvives f = true ↔ ClientReadable f) := by
    intro f member
    exact clientSurvives_iff f (countable f (mem_completeFrames f (List.dropLast_subset _ member)))
  exact forall₂_congr readable

/-- Two frames and the first byte of a third, received in pieces of one and three bytes. -/
theorem reassembly_iff_pieces :
    Loop.run serverStep 13 ⟨newConnection 7, ⟨[120, 0, 0, 0, 0, 121, 0, 0, 0, 1, 65, 122],
        [1, 3], .quiet, fun _ => true⟩, []⟩ =
      .done ((completeFrames [⟨120, []⟩, ⟨121, [65]⟩, ⟨122, []⟩] 12).map Frame.buffers) ∧
    (Loop.run clientStep 13 ⟨newConnection (-1), ⟨[120, 0, 0, 0, 0, 121, 0, 0, 0, 1, 65, 122],
        [1, 3], .quiet, fun _ => true⟩, []⟩ =
      .done ((completeFrames [⟨120, []⟩, ⟨121, [65]⟩, ⟨122, []⟩] 12).map Frame.buffers) ↔
      ∀ f ∈ (completeFrames [⟨120, []⟩, ⟨121, [65]⟩, ⟨122, []⟩] 12).dropLast, ClientReadable f) :=
  reassembly_iff [⟨120, []⟩, ⟨121, [65]⟩, ⟨122, []⟩]
    (by
      intro f member
      simp only [List.mem_cons, List.not_mem_nil, or_false] at member
      rcases member with rfl | rfl | rfl <;> decide)
    [120, 0, 0, 0, 0, 121, 0, 0, 0, 1, 65, 122] ⟨[0, 0, 0, 0], by decide⟩ [1, 3] 7 13 (by decide)

/-- A token that overruns its body makes `unpack_message_2` return the null pointer, which
the client dereferences; the frame behind it is never handed over. -/
theorem client_stops_at_overrun :
    ([120, 0, 0, 0, 4, 0, 0, 0, 127, 121, 0, 0, 0, 0] : Block) <+:
      streamOf [⟨120, [0, 0, 0, 127]⟩, ⟨121, []⟩] ∧
    completeFrames [⟨120, [0, 0, 0, 127]⟩, ⟨121, []⟩] 14 = [⟨120, [0, 0, 0, 127]⟩, ⟨121, []⟩] ∧
    Loop.run clientStep 15 ⟨newConnection (-1),
      ⟨[120, 0, 0, 0, 4, 0, 0, 0, 127, 121, 0, 0, 0, 0], [], .quiet, fun _ => true⟩, []⟩ =
      .done [(⟨120, [0, 0, 0, 127]⟩ : Frame).buffers] ∧
    [(⟨120, [0, 0, 0, 127]⟩ : Frame).buffers] ≠
      [(⟨120, [0, 0, 0, 127]⟩ : Frame).buffers, (⟨121, []⟩ : Frame).buffers] :=
  ⟨by decide, by decide, by decide, by decide⟩

end AcosChat

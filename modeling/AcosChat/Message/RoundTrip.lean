import Mathlib.Algebra.Order.BigOperators.Group.List
import AcosChat.Message.Decoding

/-! Decoding undoes encoding, over the whole wire format. -/
namespace AcosChat

open Bytes

/-- What `pack_message` writes behind the header is delimited into the payloads. -/
theorem delimits_wireBody (payloads : List Block)
    (signed : ∀ payload ∈ payloads, payload.length < 2147483648) :
    Delimits (wireBody payloads) payloads false := by
  induction payloads with
  | nil => exact .finished
  | cons payload payloads ih =>
    rw [wireBody, List.flatMap_cons]
    exact .token payload _ payloads false (signed payload (by simp))
      (ih fun p member => signed p (by simp [member]))

theorem payload_le_bodyLength (tokens : List Token) :
    ∀ t ∈ tokens, 4 + t.payload.length ≤ bodyLength tokens := by
  intro t member
  exact List.le_sum_of_mem (List.mem_map.mpr ⟨t, member, rfl⟩)

theorem announcedLength_wireHeader (msgType : UInt8) (length : Nat) (after : Block)
    (signed : length < 2147483648) :
    announcedLength (wireHeader msgType length ++ after) = some (length : Int) := by
  have read := load_append [msgType] (beBytes 4 length) after 1 rfl
  have swapped := swapBytes_ofLeBytes (beBytes 4 length)
  rw [length_beBytes] at read swapped
  rw [ofBeBytes_beBytes 4 length (by omega)] at swapped
  rw [announcedLength, wireHeader, ← List.singleton_append, read, Option.map_some, swapped,
    asInt32_of_lt length signed]

/-- `unpack_message_1` on a header and a delimited body in one block. -/
theorem unpackMessage1_delimited (msgType : UInt8) (body : Block) (payloads : List Block)
    (signed : body.length < 2147483648) (cut : Delimits body payloads false) :
    unpackMessage1 (wireHeader msgType body.length ++ body) =
      .done (some ⟨msgType, payloads.map fun payload => .pStr (pascalBlock payload)⟩) := by
  have five := length_wireHeader msgType body.length
  obtain ⟨last, ran, tokens, kept⟩ := unpack_delimited cut (wireHeader msgType body.length) []
    (msgHeaderSize + body.length) (by rw [five]) (2 * body.length + 3) (by omega)
  have typeByte : last.mem.head? = some msgType := by
    rw [five] at kept
    have front := congrArg List.head? kept
    rw [List.head?_take] at front
    simpa [wireHeader, msgHeaderSize] using front
  rw [five] at ran
  have loop : unpackLoop (wireHeader msgType body.length ++ body) msgHeaderSize body.length =
      .done ⟨false, last⟩ := by
    rw [unpackLoop, Int.toNat_natCast]
    exact ran
  simp only [unpackMessage1, announcedLength_wireHeader msgType body.length body signed, loop,
    unpackResult, typeByte, tokens, List.nil_append, List.map_map]
  rfl

/-- Every message whose encoded body stays below 2^31 bytes is packed into a buffer that
`unpack_message_1` turns back into the same type and one pascal string for each token,
in order. The first loop of `pack_message` computes the very size at which its second
loop stops, and the header announces that size less the header's own. -/
theorem unpackMessage1_packMessage (msg : Message) (wf : ∀ t ∈ msg.tokens, t.WellFormed)
    (small : bodyLength msg.tokens < 2147483648) :
    ∃ size headed buffer,
      packSize msgHeaderSize msg.tokens = some size ∧
      packHeader (List.replicate size 0) msg.msgType size = some headed ∧
      packTokens headed msgHeaderSize msg.tokens = some (buffer, size) ∧
      packMessage msg = some buffer ∧
      buffer.length = size ∧
      announcedLength buffer = some ((size : Int) - msgHeaderSize) ∧
      unpackMessage1 buffer = .done (some ⟨msg.msgType,
        msg.tokens.map fun t => .pStr (pascalBlock t.payload)⟩) := by
  have lengths := payload_le_bodyLength msg.tokens
  have size := packSize_eq msg.tokens wf msgHeaderSize (by simp only [msgHeaderSize]; omega)
  have header := packHeader_eq msg.msgType (bodyLength msg.tokens) (by omega)
  -- every length field is below the length of the body, and so not negative when it is read
  have cut : Delimits (wireBody (msg.tokens.map Token.payload)) (msg.tokens.map Token.payload) false := by
    apply delimits_wireBody
    intro payload member
    obtain ⟨t, here, rfl⟩ := List.mem_map.mp member
    have inside := lengths t here
    omega
  have bodySize := length_wireBody msg.tokens
  have unpacked := unpackMessage1_delimited msg.msgType _ _ (by rw [bodySize]; exact small) cut
  rw [bodySize, List.map_map] at unpacked
  refine ⟨_, _, _, size, header, packTokens_after_header msg wf (by omega),
    packMessage_eq msg wf small, ?_, ?_, unpacked⟩
  · rw [List.length_append, length_wireHeader, bodySize]
  · rw [announcedLength_wireHeader _ _ _ small]
    congr 1
    omega

/-- A message with a token of each kind. -/
theorem unpackMessage1_packMessage_mixed :
    ∃ size headed buffer,
      packSize msgHeaderSize [.cStr [104, 105, 0], .pStr [3, 0, 0, 0, 1, 0, 2], .int32 5, .int64 6, .none] =
        some size ∧
      packHeader (List.replicate size 0) 114 size = some headed ∧
      packTokens headed msgHeaderSize
        [.cStr [104, 105, 0], .pStr [3, 0, 0, 0, 1, 0, 2], .int32 5, .int64 6, .none] =
        some (buffer, size) ∧
      packMessage ⟨114, [.cStr [104, 105, 0], .pStr [3, 0, 0, 0, 1, 0, 2], .int32 5, .int64 6, .none]⟩ =
        some buffer ∧
      buffer.length = size ∧
      announcedLength buffer = some ((size : Int) - msgHeaderSize) ∧
      unpackMessage1 buffer = .done (some ⟨114, [.pStr [2, 0, 0, 0, 104, 105],
        .pStr [3, 0, 0, 0, 1, 0, 2], .pStr [4, 0, 0, 0, 0, 0, 0, 5],
        .pStr [8, 0, 0, 0, 0, 0, 0, 0, 0, 0, 0, 6], .pStr [0, 0, 0, 0]]⟩) :=
  unpackMessage1_packMessage
    ⟨114, [.cStr [104, 105, 0], .pStr [3, 0, 0, 0, 1, 0, 2], .int32 5, .int64 6, .none]⟩
    (by
      intro t member
      simp only [List.mem_cons, List.not_mem_nil, or_false] at member
      rcases member with rfl | rfl | rfl | rfl | rfl
      · simp [Token.WellFormed]
      · exact ⟨[1, 0, 2], [], rfl, by decide⟩
      all_goals trivial)
    (by decide)

end AcosChat

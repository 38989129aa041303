import AcosChat.Message.Model

/-!
# What `pack_message` writes

A token is encoded as the length of its payload in network order and the payload. The
first loop of `pack_message` computes the size of these encodings, the second writes
them one behind the other into a buffer of that size.
-/
namespace AcosChat

open Bytes

/-- A well-formed `pascal_string_t` in memory: the length in host order and the bytes. -/
def pascalBlock (payload : Block) : Block := leBytes 4 payload.length ++ payload

/-- The encoding of one token. -/
def wireToken (payload : Block) : Block := beBytes 4 payload.length ++ payload

def wireBody (payloads : List Block) : Block := payloads.flatMap wireToken

/-- The five header bytes of a frame whose body has `length` bytes. -/
def wireHeader (msgType : UInt8) (length : Nat) : Block := msgType :: beBytes 4 length

/-- The bytes a token stands for: those of the string, those of the integer in network
order, or none. -/
def Token.payload : Token → Block
  | .cStr mem => mem.takeWhile (· ≠ 0)
  | .pStr mem => (mem.drop 4).take (ofLeBytes (mem.take 4))
  | .int32 value => beBytes 4 value.toNat
  | .int64 value => beBytes 8 value.toNat
  | .none => []

/-- A C string ends with a NUL, a pascal string has the non-negative length it states. -/
def Token.WellFormed : Token → Prop
  | .cStr mem => 0 ∈ mem
  | .pStr mem => ∃ payload after, mem = pascalBlock payload ++ after ∧ payload.length < 2147483648
  | .int32 _ | .int64 _ | .none => True

/-- The sum over the tokens of 4 + payload length. -/
def bodyLength (tokens : List Token) : Nat := (tokens.map fun t => 4 + t.payload.length).sum

@[simp] theorem length_pascalBlock (payload : Block) :
    (pascalBlock payload).length = 4 + payload.length := by
  simp only [pascalBlock, List.length_append, length_leBytes]

@[simp] theorem length_wireToken (payload : Block) :
    (wireToken payload).length = 4 + payload.length := by
  simp only [wireToken, List.length_append, length_beBytes]

theorem length_wireBody (tokens : List Token) :
    (wireBody (tokens.map Token.payload)).length = bodyLength tokens := by
  induction tokens with
  | nil => rfl
  | cons t tokens ih =>
    simp only [wireBody, bodyLength, List.map_cons, List.flatMap_cons, List.length_append,
      length_wireToken, List.sum_cons] at ih ⊢
    rw [ih]

/-! ### One token -/

theorem strlen_eq (mem : Block) (terminated : 0 ∈ mem) :
    strlen mem = some (mem.takeWhile (· ≠ 0)).length := by
  induction mem with
  | nil => cases terminated
  | cons byte mem ih =>
    by_cases nul : byte = 0
    · simp [strlen, nul]
    · have later : 0 ∈ mem := (List.mem_cons.mp terminated).resolve_left (Ne.symm nul)
      simp [strlen, nul, ih later]

theorem pascalLength_append (before payload after : Block) (small : payload.length < 4294967296)
    (str : Int) (here : str = before.length) :
    pascalLength (before ++ pascalBlock payload ++ after) str = some payload.length := by
  have read := load_append before (leBytes 4 payload.length) (payload ++ after) str here
  rw [length_leBytes] at read
  rw [pascalLength, pascalBlock, ← List.append_assoc, List.append_assoc, read, Option.map_some,
    ofLeBytes_leBytes 4 _ small]

theorem Token.payload_pStr (payload after : Block) (small : payload.length < 4294967296) :
    (Token.pStr (pascalBlock payload ++ after)).payload = payload := by
  have field : (pascalBlock payload ++ after).take 4 = leBytes 4 payload.length := by
    rw [pascalBlock, List.append_assoc]
    exact List.take_left' (length_leBytes 4 _)
  have data : (pascalBlock payload ++ after).drop 4 = payload ++ after := by
    rw [pascalBlock, List.append_assoc]
    exact List.drop_left' (length_leBytes 4 _)
  simp only [Token.payload, field, data, ofLeBytes_leBytes 4 _ small, List.take_left]

theorem tokenSize_eq (t : Token) (wf : t.WellFormed) : tokenSize t = some t.payload.length := by
  cases t with
  | cStr mem => exact strlen_eq mem wf
  | pStr mem =>
    obtain ⟨payload, after, rfl, small⟩ := wf
    have read := pascalLength_append [] payload after (by omega) 0 rfl
    rw [Token.payload_pStr payload after (by omega)]
    simpa only [tokenSize, List.nil_append] using read
  | int32 value => simp only [tokenSize, Token.payload, length_beBytes]
  | int64 value => simp only [tokenSize, Token.payload, length_beBytes]
  | none => rfl

theorem tokenBytes_eq (t : Token) (wf : t.WellFormed) (small : t.payload.length < 4294967296) :
    tokenBytes t = some (t.payload.length, t.payload) := by
  cases t with
  | cStr mem =>
    have prefixRead := load_append [] (mem.takeWhile (· ≠ 0)) (mem.dropWhile (· ≠ 0)) 0 rfl
    rw [List.nil_append, List.takeWhile_append_dropWhile] at prefixRead
    simp only [Token.payload] at small ⊢
    simp only [tokenBytes, strlen_eq mem wf, Option.bind_eq_bind, Option.bind_some,
      Nat.mod_eq_of_lt small, prefixRead]
  | pStr mem =>
    obtain ⟨payload, after, rfl, bound⟩ := wf
    rw [Token.payload_pStr payload after (by omega)] at small ⊢
    have length := pascalLength_append [] payload after small 0 rfl
    have data := load_append (leBytes 4 payload.length) payload after 4
      (by rw [length_leBytes]; rfl)
    rw [List.nil_append] at length
    rw [show leBytes 4 payload.length ++ payload = pascalBlock payload from rfl] at data
    simp only [tokenBytes, length, Option.bind_eq_bind, Option.bind_some, data]
  | int32 value => simp only [tokenBytes, Token.payload, leBytes_swapBytes, length_beBytes]
  | int64 value => simp only [tokenBytes, Token.payload, leBytes_swapBytes, length_beBytes]
  | none => rfl

theorem strndup_eq (mem : Block) (n : Nat) (inside : n ≤ mem.length) :
    strndup mem n = some ((mem.take n).takeWhile (· ≠ 0)) := by
  induction n generalizing mem with
  | zero => simp [strndup]
  | succ n ih =>
    cases mem with
    | nil => simp at inside
    | cons byte mem =>
      have rest := ih mem (by simpa using inside)
      by_cases nul : byte = 0
      · simp [strndup, nul]
      · simp [strndup, nul, rest]

/-- `p_str_to_c_str` of a well-formed pascal string: its bytes up to the first NUL. -/
theorem pStrToCStr_pascalBlock (payload : Block) (signed : payload.length < 2147483648) :
    pStrToCStr (pascalBlock payload) = some (payload.takeWhile (· ≠ 0)) := by
  have length := pascalLength_append [] payload [] (by omega) 0 rfl
  rw [List.nil_append, List.append_nil] at length
  have data : (pascalBlock payload).drop 4 = payload := List.drop_left' (length_leBytes 4 _)
  have size : sizeOfInt (asInt32 payload.length) = payload.length := by
    rw [asInt32_of_lt _ signed]
    unfold sizeOfInt
    omega
  simp only [pStrToCStr, length, Option.bind_eq_bind, Option.bind_some, data, size,
    strndup_eq payload payload.length (by omega), List.take_length]

/-! ### The two loops -/

/-- The first loop adds up the body length; nothing wraps while the sum is a `uint32_t`. -/
theorem packSize_eq (tokens : List Token) (wf : ∀ t ∈ tokens, t.WellFormed) (size : Nat)
    (small : size + bodyLength tokens < 4294967296) :
    packSize size tokens = some (size + bodyLength tokens) := by
  induction tokens generalizing size with
  | nil => rfl
  | cons t tokens ih =>
    have split : bodyLength (t :: tokens) = 4 + t.payload.length + bodyLength tokens := by
      simp only [bodyLength, List.map_cons, List.sum_cons]
    rw [split] at small ⊢
    simp only [packSize, tokenSize_eq t (wf t (by simp)), Option.bind_eq_bind, Option.bind_some]
    rw [Nat.mod_eq_of_lt (by omega), ih (fun t h => wf t (by simp [h])) _ (by omega)]
    congr 1
    omega

/-- One round writes the encoding of its token over as many bytes of the buffer. -/
theorem packToken_eq (before old after : Block) (t : Token) (wf : t.WellFormed)
    (small : t.payload.length < 4294967296) (room : old.length = 4 + t.payload.length) :
    packToken (before ++ old ++ after) before.length t =
      some (before ++ wireToken t.payload ++ after, before.length + 4 + t.payload.length) := by
  obtain ⟨field, data, rfl, fieldLength⟩ : ∃ field data, old = field ++ data ∧ field.length = 4 :=
    ⟨old.take 4, old.drop 4, (List.take_append_drop 4 old).symm, by
      rw [List.length_take]; omega⟩
  have dataLength : data.length = t.payload.length := by
    rw [List.length_append] at room; omega
  have first := store_append before field (leBytes 4 t.payload.length) (data ++ after)
    before.length rfl (by rw [fieldLength, length_leBytes])
  have second := store_append (before ++ leBytes 4 t.payload.length) data t.payload after
    (before.length + 4 : Nat) (by simp) dataLength
  have third := store_append before (leBytes 4 t.payload.length)
    (leBytes 4 (swapBytes 4 t.payload.length)) (t.payload ++ after) before.length rfl (by simp)
  rw [leBytes_swapBytes] at third
  simp only [List.append_assoc] at first second third ⊢
  simp only [packToken, tokenBytes_eq t wf small, Option.bind_eq_bind, Option.bind_some, first,
    second, leBytes_swapBytes, third, wireToken, List.append_assoc]

/-- The second loop fills exactly the room that the first loop computed. -/
theorem packTokens_eq (tokens : List Token) (wf : ∀ t ∈ tokens, t.WellFormed)
    (small : bodyLength tokens < 4294967296) (before room : Block)
    (exact : room.length = bodyLength tokens) :
    packTokens (before ++ room) before.length tokens =
      some (before ++ wireBody (tokens.map Token.payload), before.length + bodyLength tokens) := by
  induction tokens generalizing before room with
  | nil =>
    have empty : room = [] := List.length_eq_zero_iff.mp exact
    subst empty
    rfl
  | cons t tokens ih =>
    have split : bodyLength (t :: tokens) = 4 + t.payload.length + bodyLength tokens := by
      simp only [bodyLength, List.map_cons, List.sum_cons]
    rw [split] at small exact
    obtain ⟨old, rest, rfl, oldLength⟩ :
        ∃ old rest, room = old ++ rest ∧ old.length = 4 + t.payload.length :=
      ⟨room.take (4 + t.payload.length), room.drop (4 + t.payload.length),
        (List.take_append_drop _ room).symm, by rw [List.length_take]; omega⟩
    rw [List.length_append] at exact
    have round := packToken_eq before old rest t (wf t (by simp)) (by omega) oldLength
    have rounds := ih (fun t h => wf t (by simp [h])) (by omega)
      (before ++ wireToken t.payload) rest (by omega)
    have moved : (before ++ wireToken t.payload).length = before.length + 4 + t.payload.length := by
      simp only [List.length_append, length_wireToken]
      omega
    rw [moved] at rounds
    rw [packTokens, ← List.append_assoc, round, Option.bind_eq_bind, Option.bind_some]
    apply rounds.trans
    simp only [wireBody, List.map_cons, List.flatMap_cons, List.append_assoc, split,
      Nat.add_assoc]

theorem length_wireHeader (msgType : UInt8) (length : Nat) :
    (wireHeader msgType length).length = msgHeaderSize := by
  simp only [wireHeader, List.length_cons, length_beBytes, msgHeaderSize]

theorem packHeader_eq (msgType : UInt8) (length : Nat) (small : length < 4294967296) :
    packHeader (List.replicate (msgHeaderSize + length) 0) msgType (msgHeaderSize + length) =
      some (wireHeader msgType length ++ List.replicate length 0) := by
  have announced : (msgHeaderSize + length + 4294967296 - msgHeaderSize) % 4294967296 = length := by
    simp only [msgHeaderSize]
    omega
  have blank : List.replicate (msgHeaderSize + length) (0 : UInt8) =
      [] ++ [0] ++ ([0, 0, 0, 0] ++ List.replicate length 0) := by
    rw [show msgHeaderSize = 5 from rfl, List.replicate_add]
    rfl
  have typeByte := store_append [] [0] [msgType] ([0, 0, 0, 0] ++ List.replicate length 0) 0 rfl rfl
  have lengthField := store_append [msgType] [0, 0, 0, 0] (leBytes 4 (swapBytes 4 length))
    (List.replicate length 0) 1 rfl (by rw [length_leBytes]; rfl)
  rw [packHeader, announced, blank, typeByte]
  simp only [Option.bind_eq_bind, Option.bind_some, List.nil_append] at lengthField ⊢
  rw [← List.append_assoc, lengthField, leBytes_swapBytes]
  rfl

/-- After the header is written the second loop ends at the size of the buffer. -/
theorem packTokens_after_header (msg : Message) (wf : ∀ t ∈ msg.tokens, t.WellFormed)
    (small : bodyLength msg.tokens < 4294967296) :
    packTokens (wireHeader msg.msgType (bodyLength msg.tokens) ++
        List.replicate (bodyLength msg.tokens) 0) msgHeaderSize msg.tokens =
      some (wireHeader msg.msgType (bodyLength msg.tokens) ++
        wireBody (msg.tokens.map Token.payload), msgHeaderSize + bodyLength msg.tokens) := by
  have body := packTokens_eq msg.tokens wf small
    (wireHeader msg.msgType (bodyLength msg.tokens)) (List.replicate (bodyLength msg.tokens) 0)
    List.length_replicate
  rwa [length_wireHeader] at body

/-- `pack_message` produces the header and the encodings of the tokens, in a buffer of
exactly their size. -/
theorem packMessage_eq (msg : Message) (wf : ∀ t ∈ msg.tokens, t.WellFormed)
    (small : bodyLength msg.tokens < 2147483648) :
    packMessage msg = some (wireHeader msg.msgType (bodyLength msg.tokens) ++
      wireBody (msg.tokens.map Token.payload)) := by
  have size := packSize_eq msg.tokens wf msgHeaderSize (by simp only [msgHeaderSize]; omega)
  have header := packHeader_eq msg.msgType (bodyLength msg.tokens) (by omega)
  have body := packTokens_after_header msg wf (by omega)
  simp only [packMessage, size, Option.bind_eq_bind, Option.bind_some, header, body]

end AcosChat

import AcosChat.Lib.Bytes
import AcosChat.Lib.Loop
import AcosChat.Defines

/-!
# Messages and their wire format

`common/message.c` and `common/pascal_string.c`. A pointer is a block and an offset
into it; a computation in `Option` is `none` where the C code reads or writes outside
a block. The null pointer is the empty block, no byte of which can be read. The host
is little-endian, so `htonl` and `ntohl` reverse the bytes of a word.
-/
namespace AcosChat

open Bytes

/-- `strlen`: the bytes before the first NUL; it runs off a block that has none. -/
def strlen : Block → Option Nat
  | [] => none
  | byte :: mem => if byte = 0 then some 0 else (strlen mem).map (· + 1)

/-- The `length` field of the `pascal_string_t` at an offset, as a raw 32-bit word. -/
def pascalLength (mem : Block) (str : Int) : Option Nat :=
  (load mem str 4).map ofLeBytes

/-- `pstrdup`: the size of the copy is computed in `uint32_t`. -/
def pstrdup (mem : Block) (str : Int) : Option Block := do
  let length ← pascalLength mem str
  load mem str ((4 + length) % 4294967296)

/-- `strndup`: copies at most `n` bytes and stops at a NUL. -/
def strndup : Block → Nat → Option Block
  | _, 0 => some []
  | [], _ + 1 => none
  | byte :: mem, n + 1 => if byte = 0 then some [] else (strndup mem n).map (byte :: ·)

/-- The conversion of a signed `int` to `size_t`. -/
def sizeOfInt (n : Int) : Nat := (n % 18446744073709551616).toNat

/-- `p_str_to_c_str` -/
def pStrToCStr (pStr : Block) : Option Block := do
  let length ← pascalLength pStr 0
  strndup (pStr.drop 4) (sizeOfInt (asInt32 length))

/-- `message_token_t`: a tag and what the union holds under it. -/
inductive Token where
  | cStr (mem : Block)
  | pStr (mem : Block)
  | int32 (value : UInt32)
  | int64 (value : UInt64)
  | none
deriving DecidableEq, Repr

structure Message where
  msgType : UInt8
  tokens : List Token
deriving DecidableEq, Repr

/-! ### Packing -/

/-- What the first loop of `pack_message` adds for the payload of a token. -/
def tokenSize : Token → Option Nat
  | .cStr mem => strlen mem
  | .int64 _ => some 8
  | .int32 _ => some 4
  | .pStr mem => pascalLength mem 0
  | .none => some 0

/-- The first loop of `pack_message`; `size` is a `uint32_t`. -/
def packSize : Nat → List Token → Option Nat
  | size, [] => some size
  | size, token :: tokens => do
    let payload ← tokenSize token
    packSize ((size + 4 + payload) % 4294967296) tokens

/-- What the second loop stores into `*len_ptr` and then copies to `it`. -/
def tokenBytes : Token → Option (Nat × Block)
  | .cStr mem => do
    let length ← strlen mem
    let bytes ← load mem 0 (length % 4294967296)
    some (length % 4294967296, bytes)
  | .int64 value => some (8, leBytes 8 (swapBytes 8 value.toNat))
  | .int32 value => some (4, leBytes 4 (swapBytes 4 value.toNat))
  | .pStr mem => do
    let length ← pascalLength mem 0
    let bytes ← load mem 4 length
    some (length, bytes)
  | .none => some (0, [])

/-- One round of the second loop: `*len_ptr`, the payload, and `*len_ptr` once more in
network order. Returns the buffer and the new `it`. -/
def packToken (buffer : Block) (lenPtr : Nat) (token : Token) : Option (Block × Nat) := do
  let (length, bytes) ← tokenBytes token
  let buffer ← store buffer lenPtr (leBytes 4 length)
  -- memcpy(it, .., *len_ptr), while *len_ptr is in host order
  let buffer ← store buffer (lenPtr + 4 : Nat) bytes
  -- *len_ptr = htonl(*len_ptr)
  let buffer ← store buffer lenPtr (leBytes 4 (swapBytes 4 length))
  some (buffer, lenPtr + 4 + length)

/-- The second loop of `pack_message`. -/
def packTokens : Block → Nat → List Token → Option (Block × Nat)
  | buffer, it, [] => some (buffer, it)
  | buffer, it, token :: tokens => do
    let (buffer, it) ← packToken buffer it token
    packTokens buffer it tokens

/-- The type byte and the announced length, written before the second loop. -/
def packHeader (buffer : Block) (msgType : UInt8) (size : Nat) : Option Block := do
  let buffer ← store buffer 0 [msgType]
  store buffer 1 (leBytes 4 (swapBytes 4 ((size + 4294967296 - msgHeaderSize) % 4294967296)))

/-- `pack_message`. Zeros stand for the unspecified bytes that `malloc` returns. -/
def packMessage (msg : Message) : Option Block := do
  let size ← packSize msgHeaderSize msg.tokens
  let buffer ← packHeader (List.replicate size 0) msg.msgType size
  let (buffer, _) ← packTokens buffer msgHeaderSize msg.tokens
  some buffer

/-! ### Unpacking -/

/-- `ntohl(*(int *)(header + 1))` -/
def announcedLength (header : Block) : Option Int :=
  (load header 1 4).map fun word => asInt32 (swapBytes 4 (ofLeBytes word))

/-- The variables of the loop of `unpack_message_2`: the body, which the loop itself
rewrites, the cursor and the tokens pushed so far. -/
structure UnpackState where
  mem : Block
  iter : Int
  tokens : List Block
deriving DecidableEq, Repr

/-- How the loop ends: `overrun` when a token reaches past the end of the body. -/
structure UnpackEnd where
  overrun : Bool
  last : UnpackState
deriving DecidableEq, Repr

/-- One round of the loop of `unpack_message_2`. -/
def unpackStep (bodyEnd : Int) (s : UnpackState) : Loop.Step UnpackState UnpackEnd :=
  if s.iter < bodyEnd then
    match load s.mem s.iter 4 with
    | none => .fault
    | some word =>
      -- str->length = ntohl(str->length), in place
      let length := swapBytes 4 (ofLeBytes word)
      match store s.mem s.iter (leBytes 4 length) with
      | none => .fault
      | some mem =>
        let next := s.iter + 4 + asInt32 length
        -- The check comes after the length has been read and rewritten.
        if next > bodyEnd then .done ⟨true, ⟨mem, s.iter, s.tokens⟩⟩
        else match pstrdup mem s.iter with
          | none => .fault
          | some dup => .next ⟨mem, next, s.tokens ++ [dup]⟩
  else .done ⟨false, s⟩

/-- The loop of `unpack_message_2` over a body of `msglen` bytes at `body`. The budget is
one that no run exhausts (`unpackLoop_ends`). -/
def unpackLoop (mem : Block) (body msglen : Int) : Loop.Outcome UnpackEnd :=
  Loop.run (unpackStep (body + msglen)) (2 * msglen.toNat + 3) ⟨mem, body, []⟩

/-- What `unpack_message_2` returns after its loop; `none` is the null pointer. -/
def unpackResult (msgType : Option UInt8) : Loop.Outcome UnpackEnd → Loop.Outcome (Option Message)
  -- The tokens copied so far are freed.
  | .done ⟨true, _⟩ => .done none
  | .done ⟨false, last⟩ =>
    match msgType with
    | none => .fault
    | some msgType => .done (some ⟨msgType, last.tokens.map Token.pStr⟩)
  | .fault => .fault
  | .running => .running

/-- `unpack_message_2(header, body)`, the two in separate blocks. -/
def unpackMessage2 (header body : Block) : Loop.Outcome (Option Message) :=
  match announcedLength header with
  | none => .fault
  | some msglen => unpackResult header.head? (unpackLoop body 0 msglen)

/-- `unpack_message_1(data)`: header and body are one block, so `header[0]` is read from
the block that the loop has rewritten. -/
def unpackMessage1 (data : Block) : Loop.Outcome (Option Message) :=
  match announcedLength data with
  | none => .fault
  | some msglen =>
    match unpackLoop data msgHeaderSize msglen with
    -- The type byte is read after the loop, which may have written over it.
    | .done ⟨overrun, last⟩ => unpackResult last.mem.head? (.done ⟨overrun, last⟩)
    | .fault => .fault
    | .running => .running

end AcosChat

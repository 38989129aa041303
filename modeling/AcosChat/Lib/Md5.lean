import AcosChat.Lib.Bytes

/-!
# MD5

The message digest of RFC 1321, for messages of whole bytes. The operations of the four
rounds are written out as the RFC lists them, so that they can be read beside it.
-/
namespace Md5

open Bytes

abbrev Word := BitVec 32

/-! ### The message -/

/-- How many zero bytes follow the byte `0x80`. -/
def zeros (length : Nat) : Nat := (119 - length % 64) % 64

/-- The message with its padding bits and its length in bits, low-order byte first. -/
def padded (message : Block) : Block :=
  message ++ [0x80] ++ List.replicate (zeros message.length) 0 ++ leBytes 8 (8 * message.length)

/-- The zeros bring the message to 448 bits modulo 512. -/
theorem zeros_congr (length : Nat) : (length + 1 + zeros length) % 64 = 56 := by
  unfold zeros
  omega

/-- The zeros are as few as that takes. -/
theorem zeros_least (length count : Nat) (congr : (length + 1 + count) % 64 = 56) :
    zeros length ≤ count := by
  unfold zeros
  omega

@[simp] theorem length_padded (message : Block) :
    (padded message).length = message.length + 1 + zeros message.length + 8 := by
  simp only [padded, List.length_append, List.length_replicate, length_leBytes, List.length_cons,
    List.length_nil]

theorem length_padded_mod (message : Block) : (padded message).length % 64 = 0 := by
  have congr := zeros_congr message.length
  rw [length_padded]
  omega

/-- Word `j` of a message, low-order byte first. -/
def word (bytes : Block) (j : Nat) : Word :=
  BitVec.ofNat 32 (ofLeBytes ((bytes.drop (4 * j)).take 4))

/-- The words of a block of 16 words are those of the message from there on. -/
theorem word_drop (bytes : Block) (i j : Nat) : word (bytes.drop (64 * i)) j = word bytes (16 * i + j) := by
  have position : 64 * i + 4 * j = 4 * (16 * i + j) := by omega
  rw [word, List.drop_drop, position, word]

/-! ### The four rounds -/

structure Registers where
  A : Word
  B : Word
  C : Word
  D : Word
deriving DecidableEq, Repr

def initial : Registers :=
  ⟨0x67452301#32, 0xefcdab89#32, 0x98badcfe#32, 0x10325476#32⟩

def F (x y z : Word) : Word := (x &&& y) ||| (~~~x &&& z)
def G (x y z : Word) : Word := (x &&& z) ||| (y &&& ~~~z)
def H (x y z : Word) : Word := x ^^^ y ^^^ z
def I (x y z : Word) : Word := y ^^^ (x ||| ~~~z)

/-- `T[1]` to `T[64]`: the integer part of `4294967296 * abs(sin(i))`. -/
def table : List Word := [
    0xd76aa478#32, 0xe8c7b756#32, 0x242070db#32, 0xc1bdceee#32,
    0xf57c0faf#32, 0x4787c62a#32, 0xa8304613#32, 0xfd469501#32,
    0x698098d8#32, 0x8b44f7af#32, 0xffff5bb1#32, 0x895cd7be#32,
    0x6b901122#32, 0xfd987193#32, 0xa679438e#32, 0x49b40821#32,
    0xf61e2562#32, 0xc040b340#32, 0x265e5a51#32, 0xe9b6c7aa#32,
    0xd62f105d#32, 0x02441453#32, 0xd8a1e681#32, 0xe7d3fbc8#32,
    0x21e1cde6#32, 0xc33707d6#32, 0xf4d50d87#32, 0x455a14ed#32,
    0xa9e3e905#32, 0xfcefa3f8#32, 0x676f02d9#32, 0x8d2a4c8a#32,
    0xfffa3942#32, 0x8771f681#32, 0x6d9d6122#32, 0xfde5380c#32,
    0xa4beea44#32, 0x4bdecfa9#32, 0xf6bb4b60#32, 0xbebfbc70#32,
    0x289b7ec6#32, 0xeaa127fa#32, 0xd4ef3085#32, 0x04881d05#32,
    0xd9d4d039#32, 0xe6db99e5#32, 0x1fa27cf8#32, 0xc4ac5665#32,
    0xf4292244#32, 0x432aff97#32, 0xab9423a7#32, 0xfc93a039#32,
    0x655b59c3#32, 0x8f0ccc92#32, 0xffeff47d#32, 0x85845dd1#32,
    0x6fa87e4f#32, 0xfe2ce6e0#32, 0xa3014314#32, 0x4e0811a1#32,
    0xf7537e82#32, 0xbd3af235#32, 0x2ad7d2bb#32, 0xeb86d391#32]

/-- The register that an operation writes comes first, the arguments of its function next. -/
inductive Order where
  | abcd
  | dabc
  | cdab
  | bcda
deriving DecidableEq, Repr

/-- `[abcd k s i]` in the notation of the RFC. -/
structure Operation where
  order : Order
  k : Nat
  s : Nat
  i : Nat
deriving DecidableEq, Repr

def round1 : List Operation := [
    ⟨.abcd, 0, 7, 1⟩, ⟨.dabc, 1, 12, 2⟩, ⟨.cdab, 2, 17, 3⟩, ⟨.bcda, 3, 22, 4⟩,
    ⟨.abcd, 4, 7, 5⟩, ⟨.dabc, 5, 12, 6⟩, ⟨.cdab, 6, 17, 7⟩, ⟨.bcda, 7, 22, 8⟩,
    ⟨.abcd, 8, 7, 9⟩, ⟨.dabc, 9, 12, 10⟩, ⟨.cdab, 10, 17, 11⟩, ⟨.bcda, 11, 22, 12⟩,
    ⟨.abcd, 12, 7, 13⟩, ⟨.dabc, 13, 12, 14⟩, ⟨.cdab, 14, 17, 15⟩, ⟨.bcda, 15, 22, 16⟩]

def round2 : List Operation := [
    ⟨.abcd, 1, 5, 17⟩, ⟨.dabc, 6, 9, 18⟩, ⟨.cdab, 11, 14, 19⟩, ⟨.bcda, 0, 20, 20⟩,
    ⟨.abcd, 5, 5, 21⟩, ⟨.dabc, 10, 9, 22⟩, ⟨.cdab, 15, 14, 23⟩, ⟨.bcda, 4, 20, 24⟩,
    ⟨.abcd, 9, 5, 25⟩, ⟨.dabc, 14, 9, 26⟩, ⟨.cdab, 3, 14, 27⟩, ⟨.bcda, 8, 20, 28⟩,
    ⟨.abcd, 13, 5, 29⟩, ⟨.dabc, 2, 9, 30⟩, ⟨.cdab, 7, 14, 31⟩, ⟨.bcda, 12, 20, 32⟩]

def round3 : List Operation := [
    ⟨.abcd, 5, 4, 33⟩, ⟨.dabc, 8, 11, 34⟩, ⟨.cdab, 11, 16, 35⟩, ⟨.bcda, 14, 23, 36⟩,
    ⟨.abcd, 1, 4, 37⟩, ⟨.dabc, 4, 11, 38⟩, ⟨.cdab, 7, 16, 39⟩, ⟨.bcda, 10, 23, 40⟩,
    ⟨.abcd, 13, 4, 41⟩, ⟨.dabc, 0, 11, 42⟩, ⟨.cdab, 3, 16, 43⟩, ⟨.bcda, 6, 23, 44⟩,
    ⟨.abcd, 9, 4, 45⟩, ⟨.dabc, 12, 11, 46⟩, ⟨.cdab, 15, 16, 47⟩, ⟨.bcda, 2, 23, 48⟩]

def round4 : List Operation := [
    ⟨.abcd, 0, 6, 49⟩, ⟨.dabc, 7, 10, 50⟩, ⟨.cdab, 14, 15, 51⟩, ⟨.bcda, 5, 21, 52⟩,
    ⟨.abcd, 12, 6, 53⟩, ⟨.dabc, 3, 10, 54⟩, ⟨.cdab, 10, 15, 55⟩, ⟨.bcda, 1, 21, 56⟩,
    ⟨.abcd, 8, 6, 57⟩, ⟨.dabc, 15, 10, 58⟩, ⟨.cdab, 6, 15, 59⟩, ⟨.bcda, 13, 21, 60⟩,
    ⟨.abcd, 4, 6, 61⟩, ⟨.dabc, 11, 10, 62⟩, ⟨.cdab, 2, 15, 63⟩, ⟨.bcda, 9, 21, 64⟩]

/-- `a + f(b,c,d) + X[k] + T[i]`, rotated by `s`, plus `b`. -/
def sum (f : Word → Word → Word → Word) (X : Nat → Word) (op : Operation) (a b c d : Word) : Word :=
  b + (a + f b c d + X op.k + table.getD (op.i - 1) 0).rotateLeft op.s

/-- One operation on the block whose words are `X`. -/
def operate (f : Word → Word → Word → Word) (X : Nat → Word) (r : Registers) (op : Operation) :
    Registers :=
  match op.order with
  | .abcd => { r with A := sum f X op r.A r.B r.C r.D }
  | .dabc => { r with D := sum f X op r.D r.A r.B r.C }
  | .cdab => { r with C := sum f X op r.C r.D r.A r.B }
  | .bcda => { r with B := sum f X op r.B r.C r.D r.A }

def rounds (X : Nat → Word) (r : Registers) : Registers :=
  round4.foldl (operate I X) (round3.foldl (operate H X)
    (round2.foldl (operate G X) (round1.foldl (operate F X) r)))

/-- The four rounds on one block, and the increment of each register by its old value. -/
def compress (X : Nat → Word) (r : Registers) : Registers :=
  let r' := rounds X r
  ⟨r'.A + r.A, r'.B + r.B, r'.C + r.C, r'.D + r.D⟩

/-! ### The digest -/

/-- The registers after the first `count` blocks of 16 words. -/
def chained (bytes : Block) (count : Nat) : Registers :=
  (List.range count).foldl (fun r i => compress (fun j => word bytes (16 * i + j)) r) initial

theorem chained_succ (bytes : Block) (count : Nat) : chained bytes (count + 1) =
    compress (fun j => word bytes (16 * count + j)) (chained bytes count) := by
  simp only [chained, List.range_succ, List.foldl_append, List.foldl_cons, List.foldl_nil]

def output (r : Registers) : Block :=
  leBytes 4 r.A.toNat ++ leBytes 4 r.B.toNat ++ leBytes 4 r.C.toNat ++ leBytes 4 r.D.toNat

def digest (message : Block) : Block :=
  output (chained (padded message) ((padded message).length / 64))

@[simp] theorem length_output (r : Registers) : (output r).length = 16 := by
  simp only [output, List.length_append, length_leBytes]

/-- The digest of the empty message, as the RFC's test suite gives it. -/
example : digest [] = [0xd4, 0x1d, 0x8c, 0xd9, 0x8f, 0x00, 0xb2, 0x04, 0xe9, 0x80, 0x09, 0x98,
    0xec, 0xf8, 0x42, 0x7e] := by
  decide +kernel

/-- The upper-case hexadecimal digit of a number below 16, in ASCII. -/
def hexDigit (n : Nat) : UInt8 := UInt8.ofNat (if n < 10 then 0x30 + n else 0x41 + (n - 10))

def hex (bytes : Block) : Block :=
  bytes.flatMap fun byte => [hexDigit (byte.toNat / 16), hexDigit (byte.toNat % 16)]

theorem hex_append (bytes bytes' : Block) : hex (bytes ++ bytes') = hex bytes ++ hex bytes' :=
  List.flatMap_append

@[simp] theorem length_hex (bytes : Block) : (hex bytes).length = 2 * bytes.length := by
  induction bytes with
  | nil => rfl
  | cons byte bytes ih =>
    have one : hex (byte :: bytes) = hex [byte] ++ hex bytes := hex_append [byte] bytes
    rw [one, List.length_append, ih, List.length_cons, Nat.mul_succ, Nat.add_comm]
    rfl

end Md5

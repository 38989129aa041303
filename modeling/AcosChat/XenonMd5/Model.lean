import AcosChat.Lib.Md5
import AcosChat.Message.Model

/-!
# `xenon_md5`

`lib/xenon_md5/src/xenon_md5.c`. A computation is `none` where the C code reads or writes
outside a block or overflows an `int`. `malloc` succeeds, and the bytes that it returns are
undetermined. A `u32` that is stored through a pointer is stored by a little-endian host.
-/
namespace AcosChat

open Bytes
open Md5 (Word)

/-- The result of signed arithmetic, which must not overflow. -/
def inInt (value : Int) : Option Int :=
  if -2147483648 ≤ value ∧ value ≤ 2147483647 then some value else none

/-! ### The tables -/

/-- The static arrays `T` and `S`. -/
structure Tables where
  T : List Word
  S : List Word
deriving DecidableEq, Repr

/-- The assignments `S[0] = 7` to `S[51] = 21`. -/
def setShifts (S : List Word) : List Word :=
  [(0, 7), (1, 12), (2, 17), (3, 22), (16, 5), (17, 9), (18, 14), (19, 20), (32, 4), (33, 11),
    (34, 16), (35, 23), (48, 6), (49, 10), (50, 15), (51, 21)].foldl
      (fun S assigned => S.set assigned.1 assigned.2) S

/-- A shift that has not been set is that of four steps before. -/
def fillShifts (S : List Word) : Option (List Word) :=
  (List.range 64).foldlM (fun S i => do
    if (← S[i]?) = 0 then
      if i < 4 then none else return S.set i (← S[i - 4]?)
    else return S) S

/-- `init_xenonmd5`; `sine i` is `(u32)((1ull << 32) * fabs(sin((double)(i + 1))))`. -/
def initXenonmd5 (sine : Nat → Word) : Option Tables := do
  let zeroed : Tables := ⟨List.replicate 64 0, List.replicate 64 0⟩
  let tables := (List.range 64).foldl
    (fun tables i => { T := tables.T.set i (sine i), S := tables.S.set i 0 }) zeroed
  return { tables with S := ← fillShifts (setShifts tables.S) }

/-! ### One step -/

def funcF (x y z : Word) : Word := (x &&& y) ||| (~~~x &&& z)
def funcG (x y z : Word) : Word := (x &&& z) ||| (~~~z &&& y)
def funcH (x y z : Word) : Word := x ^^^ y ^^^ z
def funcI (x y z : Word) : Word := y ^^^ (~~~z ||| x)

def funcs : List (Word → Word → Word → Word) := [funcF, funcG, funcH, funcI]

/-- The bits of the `int` `shift` are those of a word. -/
def rotateLeft (n shift : Word) : Word :=
  (n <<< (shift &&& 0x1f)) ||| (n >>> (-shift &&& 0x1f))

def fromLE (arr : Block) (offset : Nat) : Option Word :=
  [3, 2, 1, 0].foldlM (fun ans i => do
    return (ans <<< 8) ||| BitVec.ofNat 32 (← arr[offset + i]?).toNat) 0

/-- The value that `md5round` stores in `*a`. -/
def md5round (tables : Tables) (a b c d : Word) (k : Nat) (s : Word) (i : Nat) (block : Block) :
    Option Word := do
  return b + rotateLeft
    (a + (← funcs[i >>> 4]?) b c d + (← fromLE block (4 * k)) + (← tables.T[i]?)) s

def getKFromI (i : Nat) : Nat :=
  if i < 16 then i &&& 0xf
  else if i < 32 then (5 * i + 1) &&& 0xf
  else if i < 48 then (3 * i + 5) &&& 0xf
  else (7 * i) &&& 0xf

/-! ### `md5sum` -/

/-- `64 * n >= length + 9` -/
def messageSizeOf (length : Int) : Option Int := do
  let blocks ← inInt ((← inInt (length + 8)) >>> (6 : Nat) + 1)
  if blocks < 0 then none else inInt (blocks * 64)

/-- The buffer `message` when the message, its padding and its length are written, and
`messageSize`. -/
def paddedMessage (alloc : Allocator) (str : Block) : Option (Block × Int) := do
  let length := asInt32 ((← strlen str) % 4294967296)
  let messageSize ← messageSizeOf length
  let message := alloc.fresh (sizeOfInt messageSize)
  let message ← fill (fun i => str[i]?) 0 length.toNat message
  let message ← store message length [0x80]
  let message ← fill (fun _ => some 0) (length + 1) (messageSize - (length + 1)).toNat message
  let msgBitLen : BitVec 64 := BitVec.ofInt 64 length <<< 3
  let message ← fill
    (fun i => some (UInt8.ofBitVec ((msgBitLen >>> (8 * i) &&& 0xff).setWidth 8)))
    (messageSize - 8) 8 message
  return (message, messageSize)

/-- One pass of the loop over `i`, with the registers moved on by `t`. -/
def roundStep (tables : Tables) (block : Block) (r : Md5.Registers) (i : Nat) : Option Md5.Registers := do
  let a ← md5round tables r.A r.B r.C r.D (getKFromI i) (← tables.S[i]?) i block
  let t := r.D
  return { A := t, B := a, C := r.B, D := r.C }

def roundLoop (tables : Tables) (block : Block) (r : Md5.Registers) : Option Md5.Registers :=
  (List.range 64).foldlM (roundStep tables block) r

/-- One pass of the loop over `off`: `block` is `message + off`. -/
def blockStep (tables : Tables) (message : Block) (r : Md5.Registers) (off : Nat) : Option Md5.Registers := do
  let r' ← roundLoop tables (message.drop off) r
  return { A := r'.A + r.A, B := r'.B + r.B, C := r'.C + r.C, D := r'.D + r.D }

/-- The values of `off`: from 0 in steps of 64 while it is less than the size. -/
def offsets (messageSize : Int) : List Nat := List.range' 0 ((messageSize + 63) / 64).toNat 64

def md5sum (tables : Tables) (alloc : Allocator) (str : Block) : Option Block := do
  let (message, messageSize) ← paddedMessage alloc str
  let start : Md5.Registers := { A := 0x67452301, B := 0xEFCDAB89, C := 0x98BADCFE, D := 0x10325476 }
  let r ← (offsets messageSize).foldlM (blockStep tables message) start
  let ans ← store (alloc.fresh 16) 0 (leBytes 4 r.A.toNat)
  let ans ← store ans 4 (leBytes 4 r.B.toNat)
  let ans ← store ans 8 (leBytes 4 r.C.toNat)
  store ans 12 (leBytes 4 r.D.toNat)

/-! ### `md5hex` -/

/-- `DIGITS`, with the NUL that ends the literal. -/
def hexDigits : Block := "0123456789ABCDEF".toList.map Char.toUInt8 ++ [0]

def hexStep (sum : Block) (msg : Block) (i : Nat) : Option Block := do
  let byte ← sum[i]?
  let msg ← store msg (2 * i + 1) [← hexDigits[(byte &&& 0x0f).toNat]?]
  store msg (2 * i) [← hexDigits[(byte >>> 4 &&& 0x0f).toNat]?]

def md5hex (tables : Tables) (alloc : Allocator) (str : Block) : Option Block := do
  let msg ← store (alloc.fresh 33) 32 [0]
  let sum ← md5sum tables alloc str
  (List.range 16).foldlM (hexStep sum) msg

end AcosChat

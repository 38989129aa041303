import AcosChat.Lib.Bytes

/-!
# `ts_vector`

`lib/ts_vector/src/ts_vector.c`: elements of one size, behind each other in one block.
Sizes are 64-bit words, so their sums and products wrap. A write outside the block is
`none`. `LOCK` and `UNLOCK` make each function one step. The `malloc` of the vector
succeeds; a `realloc` returns the null pointer, or a block that begins as the old one.
-/
namespace AcosChat

open Bytes

/-- `ts_vector_t` -/
structure TsVector where
  data : Block
  elemSize : UInt64
  size : UInt64
  capacity : UInt64

/-- `INITIAL_CAPACITY` -/
def initialCapacity : UInt64 := 8

/-- `ts_vector_init` -/
def tsVectorInit (elemSize : UInt64) (malloc : Allocator) : TsVector where
  elemSize := elemSize
  size := 0
  capacity := initialCapacity
  data := malloc.fresh (initialCapacity * elemSize).toNat

/-- What `realloc` makes of a block, unless it fails; new bytes are undetermined. -/
def realloc (block : Block) (bytes : UInt64) (outcome : Option Allocator) : Option Block :=
  outcome.map fun malloc => block.take bytes.toNat ++ malloc.fresh (bytes.toNat - block.length)

/-- `grow_up` -/
def growUp (v : TsVector) (outcome : Option Allocator) : TsVector :=
  match realloc v.data (v.capacity * v.elemSize * 2) outcome with
  | none => v
  | some ptr => { v with data := ptr, capacity := v.capacity * 2 }

/-- `ts_vector_push_back`, with what `realloc` would return; `val` is the memory at the pointer. -/
def tsVectorPushBack (v : TsVector) (val : Block) (outcome : Option Allocator) : Option TsVector := do
  let v := if v.size = v.capacity then growUp v outcome else v
  let elem ← load val 0 v.elemSize.toNat
  let data ← store v.data (v.elemSize * v.size).toNat elem
  return { v with data := data, size := v.size + 1 }

/-- `ts_vector_clear` -/
def tsVectorClear (v : TsVector) : TsVector := { v with size := 0 }

end AcosChat

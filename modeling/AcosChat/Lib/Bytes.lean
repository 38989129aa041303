import Mathlib.Data.Nat.Basic
import Mathlib.Data.List.Basic
import Mathlib.Tactic.Ring

/-!
# Byte blocks

A block is the list of bytes of one allocation. Reads and writes name an integer
offset and a width, and fail unless every byte they touch lies inside the block, so
a computation that succeeds is a computation without an access out of bounds.
Words are naturals: `leBytes` and `beBytes` are their fixed-width encodings.
-/
namespace Bytes

abbrev Block := List UInt8

/-- What `malloc` returns: a block of the size asked for. -/
structure Allocator where
  fresh : Nat → Block
  length_fresh : ∀ size, (fresh size).length = size

def zeroedMemory : Allocator where
  fresh size := List.replicate size 0
  length_fresh _ := List.length_replicate

/-! ### Fixed-width words -/

/-- The `width` low bytes of a word, least significant first. -/
def leBytes : Nat → Nat → Block
  | 0, _ => []
  | width + 1, word => UInt8.ofNat (word % 256) :: leBytes width (word / 256)

def ofLeBytes : Block → Nat
  | [] => 0
  | byte :: bytes => byte.toNat + 256 * ofLeBytes bytes

/-- The `width` low bytes of a word, most significant first: network order. -/
def beBytes (width word : Nat) : Block := (leBytes width word).reverse

def ofBeBytes (bytes : Block) : Nat := ofLeBytes bytes.reverse

@[simp] theorem length_leBytes (width word : Nat) : (leBytes width word).length = width := by
  induction width generalizing word with
  | zero => rfl
  | succ width ih => simp only [leBytes, List.length_cons, ih]

@[simp] theorem length_beBytes (width word : Nat) : (beBytes width word).length = width := by
  simp only [beBytes, List.length_reverse, length_leBytes]

theorem getElem_leBytes (width word i : Nat) (inside : i < (leBytes width word).length) :
    (leBytes width word)[i] = UInt8.ofNat (word / 256 ^ i % 256) := by
  induction width generalizing word i with
  | zero => simp only [length_leBytes, Nat.not_lt_zero] at inside
  | succ width ih =>
    cases i with
    | zero => simp only [leBytes, List.getElem_cons_zero, pow_zero, Nat.div_one]
    | succ i =>
      have rest := ih (word / 256) i (by simpa only [length_leBytes, Nat.add_lt_add_iff_right] using inside)
      simp only [leBytes, List.getElem_cons_succ, rest, Nat.div_div_eq_div_mul, pow_succ']

theorem ofLeBytes_lt (bytes : Block) : ofLeBytes bytes < 256 ^ bytes.length := by
  induction bytes with
  | nil => simp [ofLeBytes]
  | cons byte bytes ih =>
    have bound : byte.toNat < 256 := byte.toNat_lt
    simp only [ofLeBytes, List.length_cons, pow_succ]
    omega

theorem ofLeBytes_leBytes (width word : Nat) (small : word < 256 ^ width) :
    ofLeBytes (leBytes width word) = word := by
  induction width generalizing word with
  | zero => simp only [pow_zero, Nat.lt_one_iff] at small; simp [leBytes, ofLeBytes, small]
  | succ width ih =>
    have rest : word / 256 < 256 ^ width := by
      rw [pow_succ] at small
      exact Nat.div_lt_of_lt_mul (by omega)
    have low : (UInt8.ofNat (word % 256)).toNat = word % 256 := by
      simp [UInt8.toNat_ofNat']
    simp only [leBytes, ofLeBytes, ih _ rest, low]
    omega

theorem leBytes_ofLeBytes (bytes : Block) : leBytes bytes.length (ofLeBytes bytes) = bytes := by
  induction bytes with
  | nil => rfl
  | cons byte bytes ih =>
    have bound : byte.toNat < 256 := byte.toNat_lt
    have low : (byte.toNat + 256 * ofLeBytes bytes) % 256 = byte.toNat := by omega
    have high : (byte.toNat + 256 * ofLeBytes bytes) / 256 = ofLeBytes bytes := by omega
    simp only [List.length_cons, leBytes, ofLeBytes, low, high, ih, UInt8.ofNat_toNat]

theorem ofBeBytes_beBytes (width word : Nat) (small : word < 256 ^ width) :
    ofBeBytes (beBytes width word) = word := by
  simp only [ofBeBytes, beBytes, List.reverse_reverse, ofLeBytes_leBytes width word small]

theorem beBytes_ofBeBytes (bytes : Block) : beBytes bytes.length (ofBeBytes bytes) = bytes := by
  have same := leBytes_ofLeBytes bytes.reverse
  rw [List.length_reverse] at same
  rw [beBytes, ofBeBytes, same, List.reverse_reverse]

theorem ofBeBytes_lt (bytes : Block) : ofBeBytes bytes < 256 ^ bytes.length := by
  simpa only [ofBeBytes, List.length_reverse] using ofLeBytes_lt bytes.reverse

/-- Reversal of the byte order of a word: between a little-endian host and the network. -/
def swapBytes (width word : Nat) : Nat := ofBeBytes (leBytes width word)

theorem swapBytes_lt (width word : Nat) : swapBytes width word < 256 ^ width := by
  simpa only [swapBytes, length_leBytes] using ofBeBytes_lt (leBytes width word)

/-- A swapped word, stored by a little-endian host, is the word in network order. -/
theorem leBytes_swapBytes (width word : Nat) :
    leBytes width (swapBytes width word) = beBytes width word := by
  have same := leBytes_ofLeBytes (leBytes width word).reverse
  rw [List.length_reverse, length_leBytes] at same
  rw [swapBytes, ofBeBytes, same, beBytes]

/-- A word in network order, loaded by a little-endian host and swapped, is the word. -/
theorem swapBytes_ofLeBytes (bytes : Block) :
    swapBytes bytes.length (ofLeBytes bytes) = ofBeBytes bytes := by
  rw [swapBytes, leBytes_ofLeBytes]

/-! ### Two's complement -/

/-- The value of a 32-bit word read as a signed integer. -/
def asInt32 (word : Nat) : Int :=
  if word < 2147483648 then word else (word : Int) - 4294967296

theorem asInt32_of_lt (word : Nat) (small : word < 2147483648) : asInt32 word = word := by
  simp only [asInt32, small, ite_true]

theorem asInt32_lt (word : Nat) (word32 : word < 4294967296) : asInt32 word < 2147483648 := by
  unfold asInt32
  split <;> omega

/-! ### Checked access -/

/-- Read `width` bytes at `offset`; `none` if any of them lies outside the block. -/
def load (block : Block) (offset : Int) (width : Nat) : Option Block :=
  if 0 ≤ offset ∧ offset + width ≤ block.length then
    some ((block.drop offset.toNat).take width)
  else none

/-- Overwrite the bytes at `offset`; `none` if any of them lies outside the block. -/
def store (block : Block) (offset : Int) (bytes : Block) : Option Block :=
  if 0 ≤ offset ∧ offset + bytes.length ≤ block.length then
    some (block.take offset.toNat ++ bytes ++ block.drop (offset.toNat + bytes.length))
  else none

theorem load_append (before bytes after : Block) (offset : Int) (here : offset = before.length) :
    load (before ++ bytes ++ after) offset bytes.length = some bytes := by
  subst here
  have inside : (0 : Int) ≤ before.length ∧
      (before.length : Int) + bytes.length ≤ (before ++ bytes ++ after).length := by
    simp only [List.length_append]
    omega
  rw [load, if_pos inside, Int.toNat_natCast, List.append_assoc, List.drop_left, List.take_left]

theorem store_append (before old bytes after : Block) (offset : Int)
    (here : offset = before.length) (same : old.length = bytes.length) :
    store (before ++ old ++ after) offset bytes = some (before ++ bytes ++ after) := by
  subst here
  have inside : (0 : Int) ≤ before.length ∧
      (before.length : Int) + bytes.length ≤ (before ++ old ++ after).length := by
    simp only [List.length_append]
    omega
  have tail : (before ++ old ++ after).drop (before.length + bytes.length) = after := by
    rw [← same, ← List.length_append, List.drop_left]
  have front : (before ++ old ++ after).take before.length = before := by
    rw [List.append_assoc, List.take_left]
  rw [store, if_pos inside, Int.toNat_natCast, tail, front]

/-- A write behind `before` takes the front of what follows. -/
theorem store_next (before after bytes : Block) {offset : Int} (here : offset = before.length)
    (room : bytes.length ≤ after.length) :
    store (before ++ after) offset bytes = some (before ++ bytes ++ after.drop bytes.length) := by
  have wrote := store_append before (after.take bytes.length) bytes (after.drop bytes.length) offset
    here (List.length_take_of_le room)
  rwa [List.append_assoc before, List.take_append_drop] at wrote

theorem load_eq_none_iff (block : Block) (offset : Int) (width : Nat) :
    load block offset width = none ↔ ¬(0 ≤ offset ∧ offset + width ≤ block.length) := by
  unfold load
  split <;> simp_all

/-- A successful read splits the block around the bytes read. -/
theorem load_split (block bytes : Block) (offset : Int) (width : Nat)
    (read : load block offset width = some bytes) :
    bytes.length = width ∧ ∃ before after, block = before ++ bytes ++ after ∧
      offset = before.length := by
  unfold load at read
  split at read
  next inside =>
    cases read
    refine ⟨by simp only [List.length_take, List.length_drop]; omega, block.take offset.toNat,
      block.drop (offset.toNat + width), ?_, ?_⟩
    · rw [← List.drop_drop, List.append_assoc, List.take_append_drop, List.take_append_drop]
    · simp only [List.length_take]
      omega
  · cases read

theorem length_store (block bytes stored : Block) (offset : Int)
    (wrote : store block offset bytes = some stored) : stored.length = block.length := by
  unfold store at wrote
  split at wrote
  · cases wrote
    simp only [List.length_append, List.length_take, List.length_drop]
    omega
  · cases wrote

/-! ### Byte loops -/

/-- `for (i = 0; i < count; ++i) block[start + i] = byte(i)` -/
def fill (byte : Nat → Option UInt8) (start : Int) (count : Nat) (block : Block) : Option Block :=
  (List.range count).foldlM (fun block i => do store block (start + i) [← byte i]) block

/-- A loop that computes `bytes` writes them in place of the bytes that were there. -/
theorem fill_append {byte : Nat → Option UInt8} (before old bytes after : Block) {start : Int}
    {count : Nat} (here : start = before.length) (counted : count = bytes.length)
    (room : old.length = bytes.length)
    (computes : ∀ i, (inside : i < bytes.length) → byte i = some bytes[i]) :
    fill byte start count (before ++ old ++ after) = some (before ++ bytes ++ after) := by
  subst here counted
  have passes : ∀ n ≤ bytes.length, fill byte before.length n (before ++ old ++ after) =
      some (before ++ bytes.take n ++ old.drop n ++ after) := by
    intro n bound
    induction n with
    | zero =>
      simp only [fill, List.range_zero, List.foldlM_nil, List.take_zero, List.append_nil,
        List.drop_zero]
      rfl
    | succ n ih =>
      have prior := ih (by omega)
      have inside : n < bytes.length := by omega
      have insideOld : n < old.length := by omega
      have stored := store_append (before ++ bytes.take n) [old[n]] [bytes[n]]
        (old.drop (n + 1) ++ after) (before.length + n)
        (by simp only [List.length_append, List.length_take, Nat.min_eq_left inside.le]; omega) rfl
      rw [fill] at prior ⊢
      rw [List.range_succ, List.foldlM_append, prior]
      rw [List.drop_eq_getElem_cons insideOld, List.take_succ_eq_append_getElem inside]
      simp only [List.append_assoc, List.cons_append, List.nil_append] at stored ⊢
      simp only [Option.bind_eq_bind, Option.bind_some, List.foldlM_cons, computes n inside, stored,
        List.foldlM_nil, Option.pure_def]
  have all := passes bytes.length le_rfl
  rwa [List.take_length, ← room, List.drop_length, List.append_nil, room] at all

end Bytes

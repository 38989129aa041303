import AcosChat.XenonMd5.Model
import AcosChat.Message.Encoding

/-!
# The padded message

The buffer that `md5sum` fills is the padded message of the RFC, for every string whose
padded size is an `int`.
-/
namespace AcosChat

open Bytes

theorem inInt_of_le {value : Int} (low : -2147483648 ≤ value) (high : value ≤ 2147483647) :
    inInt value = some value := by
  rw [inInt, if_pos ⟨low, high⟩]

theorem strlen_append (str rest : Block) (nulFree : 0 ∉ str) :
    strlen (str ++ 0 :: rest) = some str.length := by
  have terminated : 0 ∈ str ++ 0 :: rest := List.mem_append_right str List.mem_cons_self
  have before : ∀ byte ∈ str, decide (byte ≠ 0) = true := fun byte member =>
    decide_eq_true fun zero => nulFree (zero ▸ member)
  rw [strlen_eq _ terminated, List.takeWhile_append_of_pos before,
    List.takeWhile_cons_of_neg (by decide), List.append_nil]

/-- The size is the next multiple of 64 with room for the byte `0x80` and the length. -/
theorem messageSizeOf_eq {length : Nat} (bound : length ≤ 2147483575) :
    messageSizeOf length = some ((length + 1 + Md5.zeros length + 8 : Nat) : Int) := by
  have sum : inInt ((length : Int) + 8) = some ((length : Int) + 8) :=
    inInt_of_le (by omega) (by omega)
  have shifted : ((length : Int) + 8) >>> (6 : Nat) = ((length : Int) + 8) / 64 := by
    rw [Int.shiftRight_eq_div_pow]
    norm_num
  have blocks : inInt (((length : Int) + 8) / 64 + 1) = some (((length : Int) + 8) / 64 + 1) :=
    inInt_of_le (by omega) (by omega)
  have multiple : (((length : Int) + 8) / 64 + 1) * 64 =
      ((length + 1 + Md5.zeros length + 8 : Nat) : Int) := by
    unfold Md5.zeros
    omega
  have size : inInt ((length + 1 + Md5.zeros length + 8 : Nat) : Int) =
      some ((length + 1 + Md5.zeros length + 8 : Nat) : Int) :=
    inInt_of_le (by omega) (by omega)
  have positive : ¬((length : Int) + 8) / 64 + 1 < 0 := by omega
  rw [messageSizeOf, sum, Option.bind_eq_bind, Option.bind_some, shifted, blocks,
    Option.bind_some, if_neg positive, multiple, size]

/-- The eight bytes that the last loop writes are the length in bits. -/
theorem bitLength_byte {length i : Nat} (bound : length ≤ 2147483575)
    (inside : i < (leBytes 8 (8 * length)).length) :
    UInt8.ofBitVec (((BitVec.ofInt 64 length <<< 3) >>> (8 * i) &&& 0xff).setWidth 8) =
      (leBytes 8 (8 * length))[i] := by
  have bits : BitVec.ofInt 64 length <<< 3 = BitVec.ofNat 64 (8 * length) := by
    apply BitVec.eq_of_toNat_eq
    simp only [BitVec.ofInt_natCast, BitVec.toNat_shiftLeft, BitVec.toNat_ofNat, Nat.shiftLeft_eq]
    omega
  have low (n : Nat) : n &&& BitVec.toNat (255 : BitVec 64) = n % 256 :=
    Nat.and_two_pow_sub_one_eq_mod n 8
  have power : 2 ^ (8 * i) = 256 ^ i := pow_mul 2 8 i
  rw [bits, getElem_leBytes]
  apply UInt8.toNat_inj.mp
  simp only [UInt8.toNat_ofBitVec, BitVec.toNat_setWidth, BitVec.toNat_and, BitVec.toNat_ushiftRight,
    BitVec.toNat_ofNat, UInt8.toNat_ofNat', Nat.shiftRight_eq_div_pow, power, Nat.reducePow, low]
  have exact64 : 8 * length % 18446744073709551616 = 8 * length := by omega
  rw [exact64]

/-- A block falls into consecutive parts of any sizes that add up to its own. -/
theorem exists_parts (block : Block) {a b c : Nat} (sizes : block.length = a + b + c) :
    ∃ x y z : Block, block = x ++ y ++ z ∧ x.length = a ∧ y.length = b ∧ z.length = c := by
  refine ⟨block.take a, (block.drop a).take b, (block.drop a).drop b, ?_, ?_, ?_, ?_⟩
  · simp only [List.append_assoc, List.take_append_drop]
  all_goals
    simp only [List.length_take, List.length_drop]
    omega

theorem paddedMessage_eq (alloc : Allocator) {str : Block} (rest : Block) (nulFree : 0 ∉ str)
    (bound : str.length ≤ 2147483575) :
    paddedMessage alloc (str ++ 0 :: rest) =
      some (Md5.padded str, ((Md5.padded str).length : Int)) := by
  have length : asInt32 (str.length % 4294967296) = str.length := by
    rw [Nat.mod_eq_of_lt (by omega)]
    exact asInt32_of_lt _ (by omega)
  have fits : Md5.zeros str.length < 64 := Nat.mod_lt _ (by omega)
  have size : sizeOfInt ((str.length + 1 + Md5.zeros str.length + 8 : Nat) : Int) =
      str.length + 1 + (Md5.zeros str.length + 8) := by
    unfold sizeOfInt
    omega
  obtain ⟨room, last, gap, fresh, roomLength, lastLength, gapLength⟩ :=
    exists_parts _ (alloc.length_fresh (str.length + 1 + (Md5.zeros str.length + 8)))
  -- the string takes the front of the buffer, and the stores after it the rest
  have copied : fill (fun i => (str ++ 0 :: rest)[i]?) 0 str.length (room ++ last ++ gap) =
      some (str ++ last ++ gap) := by
    have reads (i : Nat) (inside : i < str.length) : (str ++ 0 :: rest)[i]? = some str[i] := by
      rw [List.getElem?_append_left inside, List.getElem?_eq_getElem inside]
    have start : (0 : Int) = ([] : Block).length := rfl
    have wrote := fill_append [] room str (last ++ gap) start rfl roomLength reads
    simpa only [List.nil_append, ← List.append_assoc] using wrote
  have marked : store (str ++ last ++ gap) str.length [0x80] = some (str ++ [0x80] ++ gap) :=
    store_append str last [0x80] gap str.length rfl lastLength
  have zeroed : fill (fun _ => some 0) (str.length + 1) (Md5.zeros str.length + 8)
      (str ++ [0x80] ++ gap) =
      some (str ++ [0x80] ++ List.replicate (Md5.zeros str.length + 8) 0) := by
    have start : (str.length : Int) + 1 = (str ++ [0x80]).length := by
      rw [List.length_append, List.length_singleton, Nat.cast_add, Nat.cast_one]
    have wrote := fill_append (str ++ [0x80]) gap (List.replicate (Md5.zeros str.length + 8) 0) []
      start List.length_replicate.symm (gapLength.trans List.length_replicate.symm)
      fun i inside => congrArg some (List.getElem_replicate inside).symm
    simpa only [List.append_nil] using wrote
  -- the length overwrites the last eight zeros
  have counted : fill (fun i => some (UInt8.ofBitVec
        (((BitVec.ofInt 64 str.length <<< 3) >>> (8 * i) &&& 0xff).setWidth 8)))
      (((str.length + 1 + Md5.zeros str.length + 8 : Nat) : Int) - 8) 8
      (str ++ [0x80] ++ List.replicate (Md5.zeros str.length + 8) 0) = some (Md5.padded str) := by
    have start : ((str.length + 1 + Md5.zeros str.length + 8 : Nat) : Int) - 8 =
        (str ++ [0x80] ++ List.replicate (Md5.zeros str.length) 0).length := by
      simp only [List.length_append, List.length_replicate, List.length_cons, List.length_nil]
      omega
    have wrote := fill_append (str ++ [0x80] ++ List.replicate (Md5.zeros str.length) 0)
      (List.replicate 8 0) (leBytes 8 (8 * str.length)) [] start (length_leBytes 8 _).symm
      (List.length_replicate.trans (length_leBytes 8 _).symm)
      fun i inside => congrArg some (bitLength_byte bound inside)
    simpa only [Md5.padded, List.append_nil, List.replicate_add, ← List.append_assoc] using wrote
  have gapCount : (((str.length + 1 + Md5.zeros str.length + 8 : Nat) : Int) -
      (str.length + 1)).toNat = Md5.zeros str.length + 8 := by
    omega
  rw [paddedMessage, strlen_append str rest nulFree]
  simp only [Option.bind_eq_bind, Option.bind_some, length, messageSizeOf_eq bound, size, fresh,
    Int.toNat_natCast, copied, marked, gapCount, zeroed, counted, Md5.length_padded, Option.pure_def]

end AcosChat

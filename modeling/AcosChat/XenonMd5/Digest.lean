import AcosChat.XenonMd5.Padding

/-!
# The digest

The loop over rotating registers is the four rounds of the RFC, on every block; with the
padded message and the chaining over its blocks, `md5sum` is MD5.
-/
namespace AcosChat

open Bytes
open Md5 (Word Operation Order)

/-! ### Words -/

theorem rotateLeft_eq (n shift : Word) : rotateLeft n shift = n.rotateLeft shift.toNat := by
  have masked (word : Word) : (word &&& 0x1f).toNat = word.toNat % 32 := by
    rw [BitVec.toNat_and]
    exact Nat.and_two_pow_sub_one_eq_mod _ 5
  have negated : (-shift).toNat % 32 = (32 - shift.toNat % 32) % 32 := by
    have bound := shift.isLt
    rw [BitVec.toNat_neg]
    omega
  rw [rotateLeft, BitVec.rotateLeft_def, BitVec.shiftLeft_eq', BitVec.ushiftRight_eq', masked, masked,
    negated]
  by_cases zero : shift.toNat % 32 = 0
  · -- a word shifted right by its whole width is zero, one not shifted at all is itself
    rw [zero, BitVec.ushiftRight_eq_zero (Nat.sub_zero 32).ge, Nat.sub_zero, Nat.mod_self,
      BitVec.shiftLeft_zero, BitVec.ushiftRight_zero, BitVec.or_self, BitVec.or_zero]
  · rw [Nat.mod_eq_of_lt (a := 32 - shift.toNat % 32) (by omega)]

/-- A byte shifted in from the right. -/
theorem shift_or_byte (n : Nat) (byte : UInt8) :
    (BitVec.ofNat 32 n <<< 8) ||| BitVec.ofNat 32 byte.toNat =
      BitVec.ofNat 32 (byte.toNat + 256 * n) := by
  have bound := byte.toNat_lt
  have high : n * 256 % 4294967296 = (n % 16777216) <<< 8 := by
    rw [Nat.shiftLeft_eq]
    omega
  apply BitVec.eq_of_toNat_eq
  simp only [BitVec.toNat_or, BitVec.toNat_shiftLeft, BitVec.toNat_ofNat, Nat.shiftLeft_eq,
    Nat.reducePow, Nat.mod_mul_mod]
  rw [Nat.mod_eq_of_lt (a := byte.toNat) (by omega), high,
    ← Nat.shiftLeft_add_eq_or_of_lt (by omega), Nat.shiftLeft_eq]
  omega

theorem fromLE_eq {arr : Block} {k : Nat} (inside : 4 * k + 4 ≤ arr.length) :
    fromLE arr (4 * k) = some (Md5.word arr k) := by
  obtain ⟨b0, b1, b2, b3, after, rest⟩ : ∃ b0 b1 b2 b3 after, arr.drop (4 * k) = b0 :: b1 :: b2 :: b3 :: after := by
    have room : 4 ≤ (arr.drop (4 * k)).length := by
      rw [List.length_drop]
      omega
    match arr.drop (4 * k), room with
    | b0 :: b1 :: b2 :: b3 :: after, _ => exact ⟨b0, b1, b2, b3, after, rfl⟩
  have read (i : Nat) : arr[4 * k + i]? = (b0 :: b1 :: b2 :: b3 :: after)[i]? := by
    rw [← rest, List.getElem?_drop]
  have zero : (0 : Word) = BitVec.ofNat 32 0 := rfl
  simp only [fromLE, List.foldlM_cons, List.foldlM_nil, read, List.getElem?_cons_succ,
    List.getElem?_cons_zero, Option.bind_eq_bind, Option.bind_some, Option.pure_def, zero, shift_or_byte,
    Md5.word, rest, List.take_succ_cons, List.take_zero, ofLeBytes]

theorem getKFromI_lt (i : Nat) : getKFromI i < 16 := by
  have low (n : Nat) : n &&& 0xf < 16 := Nat.and_lt_two_pow n (n := 4) (by decide)
  unfold getKFromI
  split_ifs
  all_goals exact low _

/-! ### The tables -/

/-- The tables of the RFC: its sines, and the shifts of its 64 operations. -/
def rfcTables : Tables where
  T := Md5.table
  S := (Md5.round1 ++ Md5.round2 ++ Md5.round3 ++ Md5.round4).map fun op => BitVec.ofNat 32 op.s

theorem set_foldl (sine : Nat → Word) (tables : Tables) (n : Nat) :
    (List.range n).foldl
      (fun tables i => ({ T := tables.T.set i (sine i), S := tables.S.set i 0 } : Tables)) tables =
    { T := (List.range n).foldl (fun T i => T.set i (sine i)) tables.T,
      S := (List.range n).foldl (fun S i => S.set i 0) tables.S } := by
  induction n with
  | zero => rfl
  | succ n ih => simp only [List.range_succ, List.foldl_append, ih, List.foldl_cons, List.foldl_nil]

/-- The loop `for (i = 0; i < n; ++i) T[i] = sine(i)`. -/
theorem foldl_set (sine : Nat → Word) (T : List Word) {n : Nat} (room : n ≤ T.length) :
    (List.range n).foldl (fun T i => T.set i (sine i)) T = (List.range n).map sine ++ T.drop n := by
  induction n with
  | zero => rfl
  | succ n ih =>
    have position : ((List.range n).map sine).length = n := by
      rw [List.length_map, List.length_range]
    rw [List.range_succ, List.foldl_append, ih (by omega), List.map_append,
      List.drop_eq_getElem_cons (by omega)]
    simp only [List.foldl_cons, List.foldl_nil, List.map_cons, List.map_nil, List.append_assoc,
      List.singleton_append]
    rw [List.set_append_right _ _ (by omega), position, Nat.sub_self, List.set_cons_zero]

theorem initXenonmd5_eq {sine : Nat → Word} (sines : ∀ i < 64, sine i = Md5.table.getD i 0) :
    initXenonmd5 sine = some rfcTables := by
  have sineTable : (List.range 64).map sine = Md5.table := by
    have entries := List.map_congr_left (l := List.range 64) fun i member =>
      sines i (List.mem_range.mp member)
    rw [entries]
    decide
  have T : (List.range 64).foldl (fun T i => T.set i (sine i)) (List.replicate 64 0) = Md5.table := by
    rw [foldl_set sine _ (by rw [List.length_replicate]), List.drop_replicate, Nat.sub_self,
      List.replicate_zero, List.append_nil, sineTable]
  have S : fillShifts (setShifts ((List.range 64).foldl (fun S i => S.set i 0)
      (List.replicate 64 0))) = some rfcTables.S := by
    decide
  simp only [initXenonmd5, set_foldl, T, S, Option.bind_eq_bind, Option.bind_some, Option.pure_def]
  rfl

/-! ### The rounds -/

/-- The order of the operation after one of the given order. -/
def nextOrder : Order → Order
  | .abcd => .dabc
  | .dabc => .cdab
  | .cdab => .bcda
  | .bcda => .abcd

/-- The order of the operation of pass `i`, counted from 0. -/
def orderAt : Nat → Order
  | 0 => .abcd
  | i + 1 => nextOrder (orderAt i)

/-- The registers of the RFC as the loop holds them before an operation of the given order. -/
def turned (order : Order) (r : Md5.Registers) : Md5.Registers :=
  match order with
  | .abcd => r
  | .dabc => ⟨r.D, r.A, r.B, r.C⟩
  | .cdab => ⟨r.C, r.D, r.A, r.B⟩
  | .bcda => ⟨r.B, r.C, r.D, r.A⟩

/-- The operation that pass `i` of the loop performs. -/
def operationAt (i : Nat) : Operation :=
  ⟨orderAt i, getKFromI i, (rfcTables.S.getD i 0).toNat, i + 1⟩

theorem round1_eq : Md5.round1 = (List.range' 0 16).map operationAt := by decide
theorem round2_eq : Md5.round2 = (List.range' 16 16).map operationAt := by decide
theorem round3_eq : Md5.round3 = (List.range' 32 16).map operationAt := by decide
theorem round4_eq : Md5.round4 = (List.range' 48 16).map operationAt := by decide

theorem getElem?_eq_getD {words : List Word} {i : Nat} (inside : i < words.length) :
    words[i]? = some (words.getD i 0) := by
  rw [List.getD_eq_getElem?_getD, List.getElem?_eq_getElem inside, Option.getD_some]

theorem md5round_eq {f : Word → Word → Word → Word} {block : Block} {i : Nat} (a b c d : Word)
    (pass : i < 64) (function : funcs[i >>> 4]? = some f) (inside : 64 ≤ block.length) :
    md5round rfcTables a b c d (getKFromI i) (rfcTables.S.getD i 0) i block =
      some (Md5.sum f (Md5.word block) (operationAt i) a b c d) := by
  have k := getKFromI_lt i
  have read : fromLE block (4 * getKFromI i) = some (Md5.word block (getKFromI i)) :=
    fromLE_eq (by omega)
  have sine : rfcTables.T[i]? = some (Md5.table.getD i 0) := getElem?_eq_getD pass
  simp only [md5round, function, read, sine, Option.bind_eq_bind, Option.bind_some, Option.pure_def,
    rotateLeft_eq, Md5.sum, operationAt, Nat.add_sub_cancel]

/-- One pass of the loop is one operation, on registers turned by one place more. -/
theorem roundStep_turned {f : Word → Word → Word → Word} {block : Block} {i : Nat} (r : Md5.Registers)
    (pass : i < 64) (function : funcs[i >>> 4]? = some f) (inside : 64 ≤ block.length) :
    roundStep rfcTables block (turned (orderAt i) r) i =
      some (turned (orderAt (i + 1)) (Md5.operate f (Md5.word block) r (operationAt i))) := by
  have shift : rfcTables.S[i]? = some (rfcTables.S.getD i 0) := getElem?_eq_getD pass
  have order : (operationAt i).order = orderAt i := rfl
  simp only [roundStep, shift, md5round_eq _ _ _ _ pass function inside, Option.bind_eq_bind,
    Option.bind_some, Option.pure_def, Md5.operate, order, orderAt]
  cases orderAt i with
  | abcd => rfl
  | dabc => rfl
  | cdab => rfl
  | bcda => rfl

theorem roundStep_foldlM {f : Word → Word → Word → Word} {block : Block} (inside : 64 ≤ block.length)
    {start count : Nat} (passes : start + count ≤ 64)
    (function : ∀ i, start ≤ i → i < start + count → funcs[i >>> 4]? = some f) (r : Md5.Registers) :
    (List.range' start count).foldlM (roundStep rfcTables block) (turned (orderAt start) r) =
      some (turned (orderAt (start + count))
        (((List.range' start count).map operationAt).foldl (Md5.operate f (Md5.word block)) r)) := by
  induction count with
  | zero => rfl
  | succ count ih =>
    have prior := ih (by omega) fun i low high => function i low (by omega)
    have last := roundStep_turned
      (((List.range' start count).map operationAt).foldl (Md5.operate f (Md5.word block)) r)
      (i := start + count) (by omega) (function _ (by omega) (by omega)) inside
    rw [List.range'_concat, List.foldlM_append, prior, List.map_append, List.foldl_append]
    simpa only [Nat.one_mul, Option.bind_eq_bind, Option.bind_some, Option.pure_def,
      Option.bind_fun_some, List.foldlM_cons, List.foldlM_nil,
      List.map_cons, List.map_nil, List.foldl_cons, List.foldl_nil, ← Nat.add_assoc] using last

/-- After four passes the registers are back in their places. -/
theorem orderAt_four (n : Nat) : orderAt (4 * n) = .abcd := by
  induction n with
  | zero => rfl
  | succ n ih => simp only [Nat.mul_succ, orderAt, ih, nextOrder]

/-- Sixteen passes are one round. -/
theorem round_foldlM {f : Word → Word → Word → Word} {block : Block} (inside : 64 ≤ block.length)
    {q : Nat} (function : funcs[q]? = some f) (r : Md5.Registers) :
    (List.range' (16 * q) 16).foldlM (roundStep rfcTables block) r =
      some (((List.range' (16 * q) 16).map operationAt).foldl (Md5.operate f (Md5.word block)) r) := by
  have four : q < 4 := (List.getElem?_eq_some_iff.mp function).1
  have same (i : Nat) (low : 16 * q ≤ i) (high : i < 16 * q + 16) : funcs[i >>> 4]? = some f := by
    have shifted : i >>> 4 = q := by
      rw [Nat.shiftRight_eq_div_pow]
      omega
    rw [shifted, function]
  have start : orderAt (16 * q) = .abcd := by
    rw [← orderAt_four (4 * q), ← Nat.mul_assoc]
  have stop : orderAt (16 * q + 16) = .abcd := by
    rw [← orderAt_four (4 * q + 4), Nat.mul_add, ← Nat.mul_assoc]
  have passes := roundStep_foldlM inside (by omega) same r
  rwa [start, stop] at passes

/-- The loop over `i` is the four rounds. -/
theorem roundLoop_eq {block : Block} (inside : 64 ≤ block.length) (r : Md5.Registers) :
    roundLoop rfcTables block r = some (Md5.rounds (Md5.word block) r) := by
  have second : funcG = Md5.G := by
    funext x y z
    rw [funcG, Md5.G, BitVec.and_comm y]
  have fourth : funcI = Md5.I := by
    funext x y z
    rw [funcI, Md5.I, BitVec.or_comm x]
  have passes : List.range 64 = List.range' (16 * 0) 16 ++ List.range' (16 * 1) 16 ++
      List.range' (16 * 2) 16 ++ List.range' (16 * 3) 16 := by
    decide
  simp only [roundLoop, passes, List.foldlM_append, Option.bind_eq_bind]
  rw [round_foldlM (f := Md5.F) inside rfl, Option.bind_some,
    round_foldlM (f := funcG) inside rfl, Option.bind_some,
    round_foldlM (f := Md5.H) inside rfl, Option.bind_some,
    round_foldlM (f := funcI) inside rfl, second, fourth]
  rw [Md5.rounds, round1_eq, round2_eq, round3_eq, round4_eq]

/-! ### `md5sum` -/

theorem blockStep_eq {message : Block} {i : Nat} (inside : 64 * i + 64 ≤ message.length)
    (r : Md5.Registers) : blockStep rfcTables message r (64 * i) =
      some (Md5.compress (fun j => Md5.word message (16 * i + j)) r) := by
  have room : 64 ≤ (message.drop (64 * i)).length := by
    rw [List.length_drop]
    omega
  have words : Md5.word (message.drop (64 * i)) = fun j => Md5.word message (16 * i + j) := by
    funext j
    exact Md5.word_drop message i j
  rw [blockStep, roundLoop_eq room, words]
  rfl

/-- The loop over `off` chains the blocks. -/
theorem blocks_foldlM {message : Block} {count : Nat} (inside : 64 * count ≤ message.length) :
    (List.range' 0 count 64).foldlM (blockStep rfcTables message) Md5.initial =
      some (Md5.chained message count) := by
  induction count with
  | zero => rfl
  | succ count ih =>
    have last := blockStep_eq (i := count) (by omega) (Md5.chained message count)
    rw [List.range'_concat, List.foldlM_append, ih (by omega), Nat.zero_add, Md5.chained_succ]
    simp only [Option.bind_eq_bind, Option.bind_some, List.foldlM_cons, List.foldlM_nil, last,
      Option.pure_def]

/-- The four words fill the 16 bytes of the answer. -/
theorem store_words (alloc : Allocator) (r : Md5.Registers) : (do
    let ans ← store (alloc.fresh 16) 0 (leBytes 4 r.A.toNat)
    let ans ← store ans 4 (leBytes 4 r.B.toNat)
    let ans ← store ans 8 (leBytes 4 r.C.toNat)
    store ans 12 (leBytes 4 r.D.toNat)) = some (Md5.output r) := by
  have size := alloc.length_fresh 16
  -- a word behind those that are written leaves the rest of the block as it was
  have next (written : Block) (word : Nat) (offset : Int) (here : offset = written.length)
      (left : written.length ≤ 12) :
      store (written ++ (alloc.fresh 16).drop written.length) offset (leBytes 4 word) =
        some (written ++ leBytes 4 word ++
          (alloc.fresh 16).drop (written ++ leBytes 4 word).length) := by
    have room : (leBytes 4 word).length ≤ ((alloc.fresh 16).drop written.length).length := by
      rw [length_leBytes, List.length_drop]
      omega
    rw [store_next _ _ _ here room, List.drop_drop, List.length_append]
  have first := next [] r.A.toNat 0 rfl (by simp)
  have second := next ([] ++ leBytes 4 r.A.toNat) r.B.toNat 4 (by simp) (by simp)
  have third := next ([] ++ leBytes 4 r.A.toNat ++ leBytes 4 r.B.toNat) r.C.toNat 8 (by simp) (by simp)
  have fourth := next ([] ++ leBytes 4 r.A.toNat ++ leBytes 4 r.B.toNat ++ leBytes 4 r.C.toNat)
    r.D.toNat 12 (by simp) (by simp)
  have full : (alloc.fresh 16).drop (Md5.output r).length = [] := by
    rw [Md5.length_output, List.drop_eq_nil_of_le size.le]
  simp only [List.nil_append, List.length_nil, List.drop_zero] at first second third fourth
  rw [← Md5.output, full, List.append_nil] at fourth
  simp only [Option.bind_eq_bind, first, second, third, fourth, Option.bind_some]

theorem md5sum_eq (alloc : Allocator) {str : Block} (rest : Block) (nulFree : 0 ∉ str)
    (bound : str.length ≤ 2147483575) :
    md5sum rfcTables alloc (str ++ 0 :: rest) = some (Md5.digest str) := by
  have multiple := Md5.length_padded_mod str
  have passes : offsets ((Md5.padded str).length : Int) =
      List.range' 0 ((Md5.padded str).length / 64) 64 := by
    unfold offsets
    congr 1
    omega
  have chained : (offsets ((Md5.padded str).length : Int)).foldlM
      (blockStep rfcTables (Md5.padded str)) Md5.initial =
      some (Md5.chained (Md5.padded str) ((Md5.padded str).length / 64)) := by
    rw [passes]
    exact blocks_foldlM (by omega)
  have start : Md5.initial = ⟨0x67452301, 0xEFCDAB89, 0x98BADCFE, 0x10325476⟩ := rfl
  rw [start] at chained
  rw [md5sum, paddedMessage_eq alloc rest nulFree bound, Option.bind_eq_bind, Option.bind_some]
  simp only [chained]
  exact store_words alloc _

/-! ### `md5hex` -/

theorem hexDigits_lookup {n : Nat} (digit : n < 16) : hexDigits[n]? = some (Md5.hexDigit n) := by
  have all : ∀ n < 16, hexDigits[n]? = some (Md5.hexDigit n) := by decide
  exact all n digit

theorem hexDigits_nibble (byte : UInt8) :
    hexDigits[(byte &&& 0x0f).toNat]? = some (Md5.hexDigit (byte.toNat % 16)) := by
  have nibble : (byte &&& 0x0f).toNat = byte.toNat % 16 := by
    rw [UInt8.toNat_and]
    exact Nat.and_two_pow_sub_one_eq_mod _ 4
  rw [nibble]
  exact hexDigits_lookup (Nat.mod_lt _ (by decide))

theorem highNibble (byte : UInt8) : (byte >>> 4).toNat % 16 = byte.toNat / 16 := by
  have bound := byte.toNat_lt
  have shifted : (byte >>> 4).toNat = byte.toNat / 16 := by
    rw [UInt8.toNat_shiftRight]
    exact Nat.shiftRight_eq_div_pow _ 4
  rw [shifted]
  omega

/-- One pass writes the two digits of one byte. -/
theorem hexStep_eq {sum : Block} {byte : UInt8} (before : Block) (x y : UInt8) (after : Block) {i : Nat}
    (read : sum[i]? = some byte) (here : before.length = 2 * i) :
    hexStep sum (before ++ x :: y :: after) i = some (before ++ Md5.hex [byte] ++ after) := by
  have second : store (before ++ x :: y :: after) (2 * i + 1) [Md5.hexDigit (byte.toNat % 16)] =
      some (before ++ x :: Md5.hexDigit (byte.toNat % 16) :: after) := by
    have wrote := store_append (before ++ [x]) [y] [Md5.hexDigit (byte.toNat % 16)] after
      (2 * i + 1) (by rw [List.length_append, here]; rfl) rfl
    simpa only [List.append_assoc, List.cons_append, List.nil_append] using wrote
  have first : store (before ++ x :: Md5.hexDigit (byte.toNat % 16) :: after) (2 * i)
      [Md5.hexDigit (byte.toNat / 16)] = some (before ++ Md5.hex [byte] ++ after) := by
    have wrote := store_append before [x] [Md5.hexDigit (byte.toNat / 16)]
      (Md5.hexDigit (byte.toNat % 16) :: after) (2 * i) (by rw [here]; rfl) rfl
    simpa only [Md5.hex, List.flatMap_cons, List.flatMap_nil, List.append_assoc, List.cons_append,
      List.nil_append] using wrote
  simp only [hexStep, read, hexDigits_nibble, highNibble, second, first, Option.bind_eq_bind,
    Option.bind_some]

theorem hex_foldlM {sum msg : Block} {n : Nat} (inside : n ≤ sum.length)
    (room : 2 * sum.length ≤ msg.length) :
    (List.range n).foldlM (hexStep sum) msg =
      some (Md5.hex (sum.take n) ++ msg.drop (2 * n)) := by
  induction n with
  | zero => rfl
  | succ n ih =>
    have position : (Md5.hex (sum.take n)).length = 2 * n := by
      rw [Md5.length_hex, List.length_take, Nat.min_eq_left (by omega)]
    have read : sum[n]? = some sum[n] := List.getElem?_eq_getElem inside
    have rest : msg.drop (2 * n) = msg[2 * n] :: msg[2 * n + 1] :: msg.drop (2 * (n + 1)) := by
      rw [List.drop_eq_getElem_cons (by omega), List.drop_eq_getElem_cons (by omega)]
      rfl
    have last := hexStep_eq _ msg[2 * n] msg[2 * n + 1] (msg.drop (2 * (n + 1))) read position
    rw [List.range_succ, List.foldlM_append, ih (by omega), rest,
      List.take_succ_eq_append_getElem inside, Md5.hex_append]
    simp only [Option.bind_eq_bind, Option.bind_some, List.foldlM_cons, List.foldlM_nil, last,
      Option.pure_def]

theorem md5hex_eq (alloc : Allocator) {str : Block} (rest : Block) (nulFree : 0 ∉ str)
    (bound : str.length ≤ 2147483575) :
    md5hex rfcTables alloc (str ++ 0 :: rest) = some (Md5.hex (Md5.digest str) ++ [0]) := by
  have size := alloc.length_fresh 33
  have sixteen : (Md5.digest str).length = 16 := Md5.length_output _
  -- the terminator is written first, and the digits do not reach it
  have terminated : store (alloc.fresh 33) 32 [0] = some ((alloc.fresh 33).take 32 ++ [0]) := by
    have place : (32 : Int) = ((alloc.fresh 33).take 32).length := by
      rw [List.length_take, size]
      rfl
    have wrote := store_next ((alloc.fresh 33).take 32) ((alloc.fresh 33).drop 32) [0] place
      (by rw [List.length_drop, size]; decide)
    have last : ((alloc.fresh 33).drop 32).drop 1 = [] := by
      rw [List.drop_drop, List.drop_eq_nil_of_le size.le]
    rw [List.take_append_drop] at wrote
    simpa only [List.length_singleton, last, List.append_nil] using wrote
  have length : ((alloc.fresh 33).take 32).length = 32 := by
    rw [List.length_take, size]
    rfl
  have digits : (List.range 16).foldlM (hexStep (Md5.digest str)) ((alloc.fresh 33).take 32 ++ [0]) =
      some (Md5.hex (Md5.digest str) ++ [0]) := by
    have room : 2 * (Md5.digest str).length ≤ ((alloc.fresh 33).take 32 ++ [0]).length := by
      rw [List.length_append, length, sixteen]
      decide
    rw [hex_foldlM sixteen.ge room, List.drop_left' length, List.take_of_length_le sixteen.le]
  rw [md5hex, terminated, md5sum_eq alloc rest nulFree bound]
  exact digits

/-- `md5sum` and `md5hex` are MD5: the tables that the start-up fills are those of the RFC if
its sines are, the buffer is the padded message, and the loop over the registers is the four
rounds on every block. -/
theorem md5sum_implements_md5 (sine : Nat → Word) (sines : ∀ i < 64, sine i = Md5.table.getD i 0)
    (alloc : Allocator) (str rest : Block) (nulFree : 0 ∉ str) (bound : str.length ≤ 2147483575) :
    ∃ tables, initXenonmd5 sine = some tables ∧
      paddedMessage alloc (str ++ 0 :: rest) =
        some (Md5.padded str, ((Md5.padded str).length : Int)) ∧
      (Md5.padded str).length % 64 = 0 ∧
      (∀ block : Block, block.length = 64 → ∀ r, roundLoop tables block r =
        some (Md5.rounds (Md5.word block) r)) ∧
      md5sum tables alloc (str ++ 0 :: rest) = some (Md5.digest str) ∧
      (Md5.digest str).length = 16 ∧
      md5hex tables alloc (str ++ 0 :: rest) = some (Md5.hex (Md5.digest str) ++ [0]) :=
  ⟨rfcTables, initXenonmd5_eq sines, paddedMessage_eq alloc rest nulFree bound,
    Md5.length_padded_mod str, fun _ length r => roundLoop_eq length.ge r,
    md5sum_eq alloc rest nulFree bound, Md5.length_output _, md5hex_eq alloc rest nulFree bound⟩

/-- The letters and the digits, a message of the RFC's test suite that takes two blocks. -/
def lettersDigits : Block :=
  (List.range' 65 26 ++ List.range' 97 26 ++ List.range' 48 10).map UInt8.ofNat

/-- `D174AB98D277D9F5A5611C2C9F419D9F`, as the test suite gives it. -/
theorem md5sum_implements_md5_lettersDigits : ∃ tables,
    initXenonmd5 (fun i => Md5.table.getD i 0) = some tables ∧
      md5hex tables zeroedMemory (lettersDigits ++ [0]) =
        some [0x44, 0x31, 0x37, 0x34, 0x41, 0x42, 0x39, 0x38, 0x44, 0x32, 0x37, 0x37, 0x44, 0x39, 0x46, 0x35,
          0x41, 0x35, 0x36, 0x31, 0x31, 0x43, 0x32, 0x43, 0x39, 0x46, 0x34, 0x31, 0x39, 0x44, 0x39, 0x46, 0] := by
  obtain ⟨tables, filled, _, _, _, _, _, hex⟩ := md5sum_implements_md5 (fun i => Md5.table.getD i 0)
    (fun _ _ => rfl) zeroedMemory lettersDigits [] (by decide) (by decide)
  have digits : Md5.hex (Md5.digest lettersDigits) =
      [0x44, 0x31, 0x37, 0x34, 0x41, 0x42, 0x39, 0x38, 0x44, 0x32, 0x37, 0x37, 0x44, 0x39, 0x46, 0x35,
        0x41, 0x35, 0x36, 0x31, 0x31, 0x43, 0x32, 0x43, 0x39, 0x46, 0x34, 0x31, 0x39, 0x44, 0x39, 0x46] := by
    decide +kernel
  rw [digits] at hex
  exact ⟨tables, filled, hex⟩

end AcosChat

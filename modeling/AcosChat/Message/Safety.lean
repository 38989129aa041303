import AcosChat.Message.RoundTrip

/-!
# Decoding untrusted bytes

Every access of the model is checked against its block, so `unpack_message_2` stays
inside the body exactly where the model does not fault. A truncated length field is
read past the end. After a negative length the cursor moves back into the field that
the in-place `ntohl` has just rewritten, where it finds a negative length again, until
a copy or a read leaves the block. So the loop returns exactly on delimited bodies.
-/
namespace AcosChat

open Bytes

/-- A copied token whose length field lies between 0 and n - 4 and counts its bytes. -/
def SafeToken (n : Nat) (token : Block) : Prop :=
  ∃ payload, token = pascalBlock payload ∧ 4 + payload.length ≤ n

/-- `unpack_message_2` returns, touches no byte outside the body, and copies only safe
tokens, also those it frees again before it returns the null pointer. -/
def DecodesSafely (header body : Block) : Prop :=
  (∃ result, unpackMessage2 header body = .done result) ∧
  ∃ overrun last, unpackLoop body 0 body.length = .done ⟨overrun, last⟩ ∧
    ∀ token ∈ last.tokens, SafeToken body.length token

/-! ### Negative lengths -/

/-- The cursor stands at a byte with the sign bit set, inside a body of the block's size. -/
def AtNegative (s : UnpackState) : Prop :=
  ∃ front byte back, s.mem = front ++ byte :: back ∧ s.iter = front.length ∧ 128 ≤ byte.toNat

/-- A length with the sign bit is one of the last four, or its copy does not fit a block. -/
private theorem negative_copy {mem dup : Block} {iter : Int} {length : Nat}
    (word32 : length < 4294967296) (negative : 2147483648 ≤ length) (block : mem.length < 2147483648)
    (field : pascalLength mem iter = some length) (copied : pstrdup mem iter = some dup) :
    ∃ back < 4, length = 4294967292 + back := by
  obtain ⟨size, front, after, rfl, _⟩ := load_split _ _ _ _ (pstrdup_eq field copied)
  simp only [List.length_append] at block
  by_cases last : 4294967292 ≤ length
  · exact ⟨length - 4294967292, by omega, by omega⟩
  · omega

private theorem signed_field (byte : UInt8) (word : Block) (three : word.length = 3)
    (negative : 128 ≤ byte.toNat) :
    2147483648 ≤ ofBeBytes (byte :: word) ∧ ofBeBytes (byte :: word) < 4294967296 := by
  constructor
  · rcases word with _ | ⟨a, _ | ⟨b, _ | ⟨c, _ | _⟩⟩⟩ <;> simp at three
    simp only [ofBeBytes, List.reverse_cons, List.reverse_nil, List.nil_append, List.cons_append,
      ofLeBytes]
    omega
  · have bound := ofBeBytes_lt (byte :: word)
    rw [List.length_cons, three] at bound
    simpa using bound

/-- Behind a length that moves the cursor by less than its own field, the cursor stands at
a byte of that field with the sign bit set. -/
private theorem atNegative_after (front after : Block) (tokens : List Block) (back : Nat)
    (near : back < 4) :
    AtNegative ⟨front ++ leBytes 4 (4294967292 + back) ++ after, (front.length : Int) + back,
      tokens⟩ := by
  have cut : ∃ before byte rest, leBytes 4 (4294967292 + back) = before ++ byte :: rest ∧
      before.length = back ∧ 128 ≤ byte.toNat := by
    have four : back = 0 ∨ back = 1 ∨ back = 2 ∨ back = 3 := by omega
    rcases four with rfl | rfl | rfl | rfl
    · exact ⟨[], 252, [255, 255, 255], by decide, rfl, by decide⟩
    · exact ⟨[253], 255, [255, 255], by decide, rfl, by decide⟩
    · exact ⟨[254, 255], 255, [255], by decide, rfl, by decide⟩
    · exact ⟨[255, 255, 255], 255, [], by decide, rfl, by decide⟩
  obtain ⟨before, byte, rest, field, position, negative⟩ := cut
  refine ⟨front ++ before, byte, rest ++ after, ?_, ?_, negative⟩
  · simp only [field, List.append_assoc, List.cons_append]
  · simp only [List.length_append, position, Int.natCast_add]

/-- A negative length is followed by a fault or by another negative length. -/
theorem unpackStep_negative {n : Nat} {s : UnpackState} (small : n < 2147483648)
    (whole : s.mem.length = n) (negative : AtNegative s) :
    unpackStep n s = .fault ∨
    ∃ s', unpackStep n s = .next s' ∧ s'.mem.length = n ∧ AtNegative s' := by
  obtain ⟨mem, iter, tokens⟩ := s
  obtain ⟨front, byte, back, rfl, rfl, signed⟩ := negative
  simp only [List.length_append, List.length_cons] at whole
  have more : (front.length : Int) < n := by omega
  -- The length field may reach past the block.
  by_cases truncated : back.length < 3
  · have noField : load (front ++ byte :: back) front.length 4 = none := by
      rw [load_eq_none_iff]
      simp only [List.length_append, List.length_cons]
      omega
    left
    simp only [unpackStep, more, ite_true, noField]
  obtain ⟨word, after, rfl, three⟩ : ∃ word after, back = word ++ after ∧ word.length = 3 :=
    ⟨back.take 3, back.drop 3, (List.take_append_drop 3 back).symm, by
      rw [List.length_take]; omega⟩
  simp only [List.length_append] at whole
  obtain ⟨sign, word32⟩ := signed_field byte word three signed
  have field : byte :: word = beBytes 4 (ofBeBytes (byte :: word)) := by
    have same := beBytes_ofBeBytes (byte :: word)
    rw [List.length_cons, three] at same
    exact same.symm
  generalize ofBeBytes (byte :: word) = length at sign word32 field
  have shape : front ++ byte :: (word ++ after) = front ++ beBytes 4 length ++ after := by
    rw [← field, List.append_assoc, List.cons_append]
  obtain ⟨read, swapped, wrote⟩ := field_access front after length word32
  -- A negative length passes the check against the end of the body.
  have inside : ¬((front.length : Int) + 4 + asInt32 length > n) := by
    unfold asInt32
    split <;> omega
  simp only [shape, unpackStep, more, ite_true, read, swapped, wrote, if_neg inside]
  cases copied : pstrdup (front ++ leBytes 4 length ++ after) front.length with
  | none => exact Or.inl rfl
  | some dup =>
    right
    have stated : pascalLength (front ++ leBytes 4 length ++ after) front.length = some length := by
      have reread := load_append front (leBytes 4 length) after front.length rfl
      rw [length_leBytes] at reread
      rw [pascalLength, reread, Option.map_some, ofLeBytes_leBytes 4 length word32]
    have size : (front ++ leBytes 4 length ++ after).length = n := by
      simp only [List.length_append, length_leBytes]
      omega
    -- Only the four largest lengths can be copied, and the cursor hardly moves.
    obtain ⟨back, near, rfl⟩ := negative_copy word32 sign (by omega) stated copied
    refine ⟨_, rfl, size, ?_⟩
    have cursor : (front.length : Int) + 4 + asInt32 (4294967292 + back) = front.length + back := by
      unfold asInt32
      split <;> omega
    rw [cursor]
    exact atNegative_after front after _ back near

/-- From a negative length the loop never returns. -/
theorem negative_never_returns (n : Nat) (small : n < 2147483648) (budget : Nat) (s : UnpackState)
    (whole : s.mem.length = n) (negative : AtNegative s) (result : UnpackEnd) :
    Loop.run (unpackStep n) budget s ≠ .done result := by
  induction budget generalizing s with
  | zero => simp [Loop.run]
  | succ budget ih =>
    rcases unpackStep_negative small whole negative with stuck | ⟨s', round, same, again⟩
    · rw [Loop.run_fault stuck]
      simp
    · rw [Loop.run_next round]
      exact ih s' same again

/-! ### What a run that returns has read -/

/-- The converse of `unpack_delimited`: a run that returns has cut the suffix it was
started on, and has pushed its payloads. -/
theorem delimited_of_run (n : Nat) (small : n < 2147483648) (budget : Nat) (before rest : Block)
    (tokens : List Block) (result : UnpackEnd) (whole : before.length + rest.length = n)
    (ran : Loop.run (unpackStep n) budget ⟨before ++ rest, before.length, tokens⟩ = .done result) :
    ∃ payloads, Delimits rest payloads result.overrun ∧
      result.last.tokens = tokens ++ payloads.map pascalBlock := by
  induction budget generalizing before rest tokens with
  | zero => cases ran
  | succ budget ih =>
    by_cases finished : rest = []
    · subst finished
      simp only [List.length_nil] at whole
      have stop : unpackStep n ⟨before ++ [], before.length, tokens⟩ =
          .done ⟨false, ⟨before ++ [], before.length, tokens⟩⟩ := by
        rw [unpackStep, if_neg (by dsimp only; omega)]
      rw [Loop.run_done stop] at ran
      cases ran
      exact ⟨[], .finished, by simp⟩
    have more : (before.length : Int) < n := by
      have := List.length_pos_of_ne_nil finished
      omega
    by_cases truncated : rest.length < 4
    · -- the length field itself reaches past the end of the body
      have noField : load (before ++ rest) before.length 4 = none := by
        rw [load_eq_none_iff]
        simp only [List.length_append]
        omega
      have stuck : unpackStep n ⟨before ++ rest, before.length, tokens⟩ = .fault := by
        simp only [unpackStep, more, ite_true, noField]
      rw [Loop.run_fault stuck] at ran
      cases ran
    obtain ⟨byte, word, after, rfl, three⟩ : ∃ byte word after,
        rest = byte :: (word ++ after) ∧ word.length = 3 := by
      obtain ⟨byte, back, rfl⟩ := List.exists_cons_of_ne_nil finished
      simp only [List.length_cons] at truncated
      exact ⟨byte, back.take 3, back.drop 3, by rw [List.take_append_drop], by
        rw [List.length_take]; omega⟩
    simp only [List.length_cons, List.length_append] at whole
    -- From a negative length the loop does not return.
    by_cases negative : 128 ≤ byte.toNat
    · have absurdRun := negative_never_returns n small (budget + 1)
        ⟨before ++ byte :: (word ++ after), before.length, tokens⟩
        (by simp only [List.length_append, List.length_cons]; omega)
        ⟨before, byte, word ++ after, rfl, rfl, negative⟩ result
      exact absurd ran absurdRun
    obtain ⟨length, field, signed⟩ : ∃ length, byte :: word = beBytes 4 length ∧
        length < 2147483648 := by
      refine ⟨ofBeBytes (byte :: word), ?_, ?_⟩
      · have same := beBytes_ofBeBytes (byte :: word)
        rw [List.length_cons, three] at same
        exact same.symm
      · rcases word with _ | ⟨a, _ | ⟨b, _ | ⟨c, _ | _⟩⟩⟩ <;> simp at three
        have boundA := a.toNat_lt
        have boundB := b.toNat_lt
        have boundC := c.toNat_lt
        simp only [ofBeBytes, List.reverse_cons, List.reverse_nil, List.nil_append,
          List.cons_append, ofLeBytes]
        omega
    rw [← List.cons_append, field] at ran ⊢
    by_cases beyond : after.length < length
    · have stop := unpackStep_overrun before after length n tokens signed more (by omega)
      rw [← List.append_assoc, Loop.run_done stop] at ran
      cases ran
      exact ⟨[], .overrun length after signed beyond, by simp⟩
    · -- The round takes the first payload off, and the rest is a shorter suffix.
      obtain ⟨payload, after, rfl, size⟩ : ∃ payload after', after = payload ++ after' ∧
          payload.length = length :=
        ⟨after.take length, after.drop length, (List.take_append_drop _ _).symm, by
          rw [List.length_take]; omega⟩
      subst size
      simp only [List.length_append] at whole
      have round := unpackStep_token before payload after n tokens signed (by omega)
      have cursor : (before.length : Int) + 4 + payload.length =
          (before ++ pascalBlock payload).length := by
        simp only [List.length_append, length_pascalBlock]
        omega
      rw [cursor] at round
      have shape : beBytes 4 payload.length ++ (payload ++ after) = wireToken payload ++ after := by
        rw [wireToken, List.append_assoc]
      rw [shape] at ran ⊢
      rw [← List.append_assoc, Loop.run_next round] at ran
      obtain ⟨payloads, cut, pushed⟩ := ih (before ++ pascalBlock payload) after _
        (by simp only [List.length_append, length_pascalBlock]; omega) ran
      exact ⟨payload :: payloads, .token payload after payloads _ signed cut, by simpa using pushed⟩

/-- The loop returns exactly on the delimited bodies, with the payloads as its tokens. -/
theorem unpackLoop_iff (body : Block) (overrun : Bool) (tokens : List Block)
    (small : body.length < 2147483648) :
    (∃ last, unpackLoop body 0 body.length = .done ⟨overrun, last⟩ ∧ last.tokens = tokens) ↔
    ∃ payloads, Delimits body payloads overrun ∧ tokens = payloads.map pascalBlock := by
  simp only [unpackLoop, Int.toNat_natCast, Int.zero_add]
  constructor
  · rintro ⟨last, ran, rfl⟩
    exact delimited_of_run body.length small _ [] body [] ⟨overrun, last⟩ (by simp) ran
  · rintro ⟨payloads, cut, rfl⟩
    obtain ⟨last, ran, copied, _⟩ := unpack_delimited cut [] [] body.length (by simp)
      (2 * body.length + 3) (by omega)
    exact ⟨last, ran, copied⟩

/-- `unpack_message_2` returns a message exactly for a body that is cut into complete
tokens, and these are the tokens of the message. -/
theorem unpackMessage2_iff (msgType : UInt8) (body : Block) (msg : Message)
    (small : body.length < 2147483648) :
    unpackMessage2 (wireHeader msgType body.length) body = .done (some msg) ↔
    ∃ payloads, Delimits body payloads false ∧
      msg = ⟨msgType, payloads.map fun payload => .pStr (pascalBlock payload)⟩ := by
  have announced := announcedLength_wireHeader msgType body.length [] small
  rw [List.append_nil] at announced
  have typeByte : (wireHeader msgType body.length).head? = some msgType := rfl
  simp only [unpackMessage2, announced, typeByte]
  constructor
  · intro returned
    cases ran : unpackLoop body 0 body.length with
    | done result =>
      obtain ⟨overrun, last⟩ := result
      rw [ran] at returned
      cases overrun with
      | true => simp [unpackResult] at returned
      | false =>
        obtain ⟨payloads, cut, tokens⟩ :=
          (unpackLoop_iff body false last.tokens small).mp ⟨last, ran, rfl⟩
        refine ⟨payloads, cut, ?_⟩
        simp only [unpackResult, Loop.Outcome.done.injEq, Option.some.injEq] at returned
        rw [← returned, tokens, List.map_map]
        rfl
    | fault => simp [ran, unpackResult] at returned
    | running => simp [ran, unpackResult] at returned
  · rintro ⟨payloads, cut, rfl⟩
    obtain ⟨last, ran, tokens⟩ :=
      (unpackLoop_iff body false (payloads.map pascalBlock) small).mpr ⟨payloads, cut, rfl⟩
    simp only [ran, unpackResult, tokens, List.map_map]
    rfl

/-! ### Safety -/

theorem announcedLength_lt {header : Block} {n : Int} (announced : announcedLength header = some n) :
    n < 2147483648 := by
  obtain ⟨word, read, rfl⟩ := Option.map_eq_some_iff.mp announced
  exact asInt32_lt _ (by simpa using swapBytes_lt 4 _)

/-- Decoding is safe and ends exactly on the delimited bodies: at every position the loop
reaches, four bytes remain and state a non-negative length. -/
theorem decodesSafely_iff (header body : Block) (five : header.length = msgHeaderSize)
    (announced : announcedLength header = some (body.length : Int)) :
    DecodesSafely header body ↔ ∃ payloads overrun, Delimits body payloads overrun := by
  have small : body.length < 2147483648 := by
    have bound := announcedLength_lt announced
    omega
  obtain ⟨msgType, rest, rfl⟩ : ∃ msgType rest, header = msgType :: rest :=
    List.exists_cons_of_length_eq_add_one five
  constructor
  · rintro ⟨_, overrun, last, ran, _⟩
    obtain ⟨payloads, cut, _⟩ := (unpackLoop_iff body overrun last.tokens small).mp ⟨last, ran, rfl⟩
    exact ⟨payloads, overrun, cut⟩
  · rintro ⟨payloads, overrun, cut⟩
    obtain ⟨last, ran, copied⟩ :=
      (unpackLoop_iff body overrun (payloads.map pascalBlock) small).mpr ⟨payloads, cut, rfl⟩
    refine ⟨?_, overrun, last, ran, ?_⟩
    · cases overrun <;> simp [unpackMessage2, announced, ran, unpackResult]
    · intro token member
      rw [copied] at member
      obtain ⟨payload, here, rfl⟩ := List.mem_map.mp member
      exact ⟨payload, rfl, cut.payload_le payload here⟩

theorem decodesSafely_iff_token :
    DecodesSafely [114, 0, 0, 0, 5] [0, 0, 0, 1, 65] ↔
      ∃ payloads overrun, Delimits [0, 0, 0, 1, 65] payloads overrun :=
  decodesSafely_iff [114, 0, 0, 0, 5] [0, 0, 0, 1, 65] rfl (by decide)

/-- A body of one byte: the length field is read past its end. -/
theorem not_decodesSafely_truncated :
    [114, 0, 0, 0, 1].length = msgHeaderSize ∧
    announcedLength [114, 0, 0, 0, 1] = some (([0] : Block).length : Int) ∧
    ¬DecodesSafely [114, 0, 0, 0, 1] [0] := by
  refine ⟨rfl, by decide, ?_⟩
  rintro ⟨⟨result, returned⟩, _⟩
  have fault : unpackMessage2 [114, 0, 0, 0, 1] [0] = .fault := by decide
  rw [fault] at returned
  cases returned

end AcosChat

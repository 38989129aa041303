import AcosChat.Message.Safety

/-!
# What the decoder accepts

`unpack_message_2` returns a message just for the bodies that `pack_message` writes. The
loop can only stand inside a length field that it has swapped after a negative length,
and from there it does not return, so a body that is accepted has been read as it was.
-/
namespace AcosChat

open Bytes

/-- At this point of the loop a declared length is non-negative and reaches past the end. -/
def Overruns (bodyEnd : Int) (s : UnpackState) : Prop :=
  s.iter < bodyEnd ∧ ∃ word, load s.mem s.iter 4 = some word ∧
    0 ≤ asInt32 (swapBytes 4 (ofLeBytes word)) ∧
    bodyEnd < s.iter + 4 + asInt32 (swapBytes 4 (ofLeBytes word))

/-! ### Bodies -/

theorem Delimits.eq_wireBody {body : Block} {payloads : List Block} (cut : Delimits body payloads false) :
    body = wireBody payloads ∧ ∀ payload ∈ payloads, payload.length < 2147483648 := by
  generalize complete : false = overrun at cut
  induction cut with
  | finished => exact ⟨rfl, by simp⟩
  | overrun => cases complete
  | token payload rest payloads overrun signed _ ih =>
    obtain ⟨rfl, small⟩ := ih complete
    refine ⟨rfl, ?_⟩
    intro p member
    rcases List.mem_cons.mp member with rfl | later
    · exact signed
    · exact small p later

theorem delimits_false_iff (body : Block) (payloads : List Block) :
    Delimits body payloads false ↔
      body = wireBody payloads ∧ ∀ payload ∈ payloads, payload.length < 2147483648 := by
  constructor
  · exact Delimits.eq_wireBody
  · rintro ⟨rfl, signed⟩
    exact delimits_wireBody payloads signed

/-- Five bytes that announce a length that is not negative are the header of such a frame. -/
theorem header_eq_wireHeader {header : Block} {length : Nat} (five : header.length = msgHeaderSize)
    (announced : announcedLength header = some (length : Int)) :
    ∃ msgType, header = wireHeader msgType length := by
  obtain ⟨msgType, field, rfl⟩ : ∃ msgType field, header = msgType :: field :=
    List.exists_cons_of_length_eq_add_one five
  have four : field.length = 4 := by simpa [msgHeaderSize] using five
  have read := load_append [msgType] field [] 1 rfl
  rw [List.append_nil, four, List.singleton_append] at read
  rw [announcedLength, read, Option.map_some, Option.some.injEq] at announced
  have swapped := swapBytes_ofLeBytes field
  have back := beBytes_ofBeBytes field
  have bound := ofBeBytes_lt field
  rw [four] at swapped back bound
  rw [swapped] at announced
  have same : ofBeBytes field = length := by
    unfold asInt32 at announced
    split at announced <;> omega
  exact ⟨msgType, by rw [wireHeader, ← same, back]⟩

/-! ### One step -/

/-- The loop takes the error exit where a length that is not negative reaches past the end. -/
theorem unpackStep_overrun_iff {n : Nat} {s : UnpackState} (whole : s.mem.length = n) :
    (∃ last, unpackStep n s = .done ⟨true, last⟩) ↔ Overruns n s := by
  unfold unpackStep Overruns
  by_cases more : s.iter < n
  · simp only [more, ite_true, true_and]
    cases read : load s.mem s.iter 4 with
    | none => simp
    | some word =>
      obtain ⟨four, front, back, around, here⟩ := load_split _ _ _ _ read
      have total := congrArg List.length around
      simp only [List.length_append] at total
      have wrote := store_append front word (leBytes 4 (swapBytes 4 (ofLeBytes word))) back s.iter
        here (by rw [four, length_leBytes])
      rw [← around] at wrote
      simp only [wrote, Option.some.injEq, exists_eq_left']
      by_cases beyond : s.iter + 4 + asInt32 (swapBytes 4 (ofLeBytes word)) > n
      · simp only [if_pos beyond]
        -- The length field is inside, so the length that overruns is positive.
        exact iff_of_true ⟨_, rfl⟩ ⟨by omega, beyond⟩
      · simp only [if_neg beyond]
        refine iff_of_false ?_ fun overruns => beyond overruns.2
        rintro ⟨last, taken⟩
        split at taken <;> cases taken
  · simp [more]

theorem Passes.length_mem {bodyEnd : Int} {start s : UnpackState}
    (passes : Loop.Passes (unpackStep bodyEnd) start s) : s.mem.length = start.mem.length := by
  induction passes with
  | start => rfl
  | next _ taken ih =>
    obtain ⟨_, word, mem, dup, _, wrote, _, rfl⟩ := unpackStep_next taken
    rw [← ih, ← length_store _ _ _ _ wrote]

/-! ### The image of the encoder -/

/-- Over a body of the announced length, and unless the loop leaves the body: the null pointer is
returned just where a declared length overruns the end; a message is returned just where the
body is the encoding of its tokens; and to pack the message gives the frame back. -/
theorem unpackMessage2_image (header body : Block) (five : header.length = msgHeaderSize)
    (announced : announcedLength header = some (body.length : Int))
    (inside : unpackMessage2 header body ≠ .fault) :
    (unpackMessage2 header body = .done none ↔
      ∃ s, Loop.Passes (unpackStep body.length) ⟨body, 0, []⟩ s ∧ Overruns body.length s) ∧
    (∀ msg, unpackMessage2 header body = .done (some msg) ↔
      header.head? = some msg.msgType ∧ ∃ payloads, body = wireBody payloads ∧
        (∀ payload ∈ payloads, payload.length < 2147483648) ∧
        msg.tokens = payloads.map fun payload => .pStr (pascalBlock payload)) ∧
    ∀ msg, unpackMessage2 header body = .done (some msg) → packMessage msg = some (header ++ body) := by
  have small : body.length < 2147483648 := by
    have bound := announcedLength_lt announced
    omega
  obtain ⟨msgType, rfl⟩ := header_eq_wireHeader five announced
  have accepts (msg : Message) : unpackMessage2 (wireHeader msgType body.length) body = .done (some msg) ↔
      (wireHeader msgType body.length).head? = some msg.msgType ∧ ∃ payloads, body = wireBody payloads ∧
        (∀ payload ∈ payloads, payload.length < 2147483648) ∧
        msg.tokens = payloads.map fun payload => .pStr (pascalBlock payload) := by
    rw [unpackMessage2_iff msgType body msg small]
    simp only [delimits_false_iff, wireHeader, List.head?_cons, Option.some.injEq]
    constructor
    · rintro ⟨payloads, ⟨whole, signed⟩, rfl⟩
      exact ⟨rfl, payloads, whole, signed, rfl⟩
    · rintro ⟨rfl, payloads, whole, signed, tokens⟩
      exact ⟨payloads, ⟨whole, signed⟩, by rw [← tokens]⟩
  refine ⟨?_, accepts, ?_⟩
  · have ends := unpackLoop_ends body 0 body.length small
    have typeByte : (wireHeader msgType body.length).head? = some msgType := rfl
    simp only [unpackMessage2, announced, typeByte]
    constructor
    · intro returned
      cases ran : unpackLoop body 0 body.length with
      | done result =>
        obtain ⟨overrun, last⟩ := result
        rw [ran] at returned
        cases overrun with
        | true =>
          unfold unpackLoop at ran
          rw [Int.zero_add] at ran
          obtain ⟨s, passes, returns⟩ := Loop.passes_of_run ran
          exact ⟨s, passes, (unpackStep_overrun_iff (Passes.length_mem passes)).mp ⟨last, returns⟩⟩
        | false => simp [unpackResult] at returned
      | fault => simp [ran, unpackResult] at returned
      | running => exact absurd ran ends
    · rintro ⟨s, passes, overruns⟩
      obtain ⟨last, returns⟩ := (unpackStep_overrun_iff (Passes.length_mem passes)).mpr overruns
      have ran : unpackLoop body 0 body.length = .done ⟨true, last⟩ := by
        unfold unpackLoop at ends ⊢
        rw [Int.zero_add] at ends ⊢
        exact Loop.run_eq_done passes returns ends
      rw [ran]
      rfl
  · rintro ⟨type, tokens⟩ returned
    obtain ⟨typeByte, payloads, whole, signed, rfl⟩ := (accepts ⟨type, tokens⟩).mp returned
    cases typeByte
    dsimp only
    -- The payload of a copied token is the one that was read.
    have payloadOf : ∀ payload ∈ payloads, (Token.pStr (pascalBlock payload)).payload = payload := by
      intro payload member
      have same := Token.payload_pStr payload [] (by have := signed payload member; omega)
      rwa [List.append_nil] at same
    have same : (payloads.map fun payload => Token.pStr (pascalBlock payload)).map Token.payload = payloads := by
      rw [List.map_map]
      exact (List.map_congr_left payloadOf).trans (List.map_id _)
    have size := length_wireBody (payloads.map fun payload => Token.pStr (pascalBlock payload))
    rw [same, ← whole] at size
    rw [packMessage_eq _ _ (by rw [← size]; exact small), same, ← size, ← whole]
    intro t member
    obtain ⟨payload, there, rfl⟩ := List.mem_map.mp member
    exact ⟨payload, [], by rw [List.append_nil], signed payload there⟩

/-- A frame with one token. -/
theorem unpackMessage2_image_token :
    packMessage ⟨114, [.pStr [1, 0, 0, 0, 65]]⟩ = some ([114, 0, 0, 0, 5] ++ [0, 0, 0, 1, 65]) :=
  (unpackMessage2_image [114, 0, 0, 0, 5] [0, 0, 0, 1, 65] rfl (by decide) (by decide)).2.2 _ (by decide)

end AcosChat

import AcosChat.Message.Encoding

/-!
# What `unpack_message_2` reads

`Delimits` says how a body is cut into tokens: the cursor of the loop stands at the
start of a suffix of the body that it has not rewritten yet, and every round either
takes one complete token off that suffix or ends. The loop returns, having copied
only well-formed tokens, exactly on the bodies that can be cut this way.
-/
namespace AcosChat

open Bytes

/-- A body cut into complete tokens, each with a non-negative length, until nothing is
left or until a non-negative length reaches past the end. -/
inductive Delimits : Block → List Block → Bool → Prop
  | finished : Delimits [] [] false
  | overrun (length : Nat) (rest : Block) (signed : length < 2147483648)
      (beyond : rest.length < length) : Delimits (beBytes 4 length ++ rest) [] true
  | token (payload rest : Block) (payloads : List Block) (overrun : Bool)
      (signed : payload.length < 2147483648) (tail : Delimits rest payloads overrun) :
      Delimits (wireToken payload ++ rest) (payload :: payloads) overrun

/-- The payloads of the complete tokens lie inside the body. -/
theorem Delimits.payload_le {body : Block} {payloads : List Block} {overrun : Bool}
    (cut : Delimits body payloads overrun) :
    ∀ payload ∈ payloads, 4 + payload.length ≤ body.length := by
  induction cut with
  | finished => simp
  | overrun => simp
  | token payload rest payloads overrun _ _ ih =>
    intro p member
    simp only [List.length_append, length_wireToken]
    rcases List.mem_cons.mp member with rfl | later
    · omega
    · have bound := ih p later
      omega

/-! ### One round of the loop -/

/-- The read of the length field and the in-place `ntohl`, over an untouched field. -/
theorem field_access (before after : Block) (length : Nat) (word32 : length < 4294967296) :
    load (before ++ beBytes 4 length ++ after) before.length 4 = some (beBytes 4 length) ∧
    swapBytes 4 (ofLeBytes (beBytes 4 length)) = length ∧
    store (before ++ beBytes 4 length ++ after) before.length (leBytes 4 length) =
      some (before ++ leBytes 4 length ++ after) := by
  have read := load_append before (beBytes 4 length) after before.length rfl
  have swapped := swapBytes_ofLeBytes (beBytes 4 length)
  rw [length_beBytes] at read swapped
  rw [ofBeBytes_beBytes 4 length word32] at swapped
  exact ⟨read, swapped, store_append before (beBytes 4 length) (leBytes 4 length) after
    before.length rfl (by simp)⟩

/-- `pstrdup` of a complete token copies the token. -/
theorem pstrdup_token (before payload after : Block) (signed : payload.length < 2147483648) :
    pstrdup (before ++ pascalBlock payload ++ after) before.length = some (pascalBlock payload) := by
  have field := pascalLength_append before payload after (by omega) before.length rfl
  have copy := load_append before (pascalBlock payload) after before.length rfl
  have size : (4 + payload.length) % 4294967296 = (pascalBlock payload).length := by
    rw [length_pascalBlock]
    omega
  simp only [pstrdup, field, Option.bind_eq_bind, Option.bind_some, size, copy]

theorem unpackStep_token (before payload after : Block) (bodyEnd : Int) (tokens : List Block)
    (signed : payload.length < 2147483648)
    (inside : (before.length : Int) + 4 + payload.length ≤ bodyEnd) :
    unpackStep bodyEnd ⟨before ++ wireToken payload ++ after, before.length, tokens⟩ =
      .next ⟨before ++ pascalBlock payload ++ after, before.length + 4 + payload.length,
        tokens ++ [pascalBlock payload]⟩ := by
  obtain ⟨read, swapped, wrote⟩ := field_access before (payload ++ after) payload.length (by omega)
  have copied := pstrdup_token before payload after signed
  have here : (before.length : Int) < bodyEnd := by omega
  simp only [wireToken, pascalBlock, List.append_assoc] at read swapped wrote copied ⊢
  simp only [unpackStep, here, ite_true, read, swapped, wrote, asInt32_of_lt _ signed]
  rw [if_neg (by omega), copied]

theorem unpackStep_overrun (before after : Block) (length : Nat) (bodyEnd : Int)
    (tokens : List Block) (signed : length < 2147483648) (here : (before.length : Int) < bodyEnd)
    (beyond : bodyEnd < (before.length : Int) + 4 + length) :
    unpackStep bodyEnd ⟨before ++ beBytes 4 length ++ after, before.length, tokens⟩ =
      .done ⟨true, ⟨before ++ leBytes 4 length ++ after, before.length, tokens⟩⟩ := by
  obtain ⟨read, swapped, wrote⟩ := field_access before after length (by omega)
  simp only [unpackStep, here, ite_true, read, swapped, wrote, asInt32_of_lt _ signed]
  rw [if_pos (by omega)]

/-! ### Bodies that can be cut -/

/-- The loop takes the tokens off a delimited suffix, one in each round. -/
theorem unpack_delimited {rest : Block} {payloads : List Block} {overrun : Bool}
    (cut : Delimits rest payloads overrun) (before : Block) (tokens : List Block) (bodyEnd : Int)
    (here : bodyEnd = before.length + rest.length) (budget : Nat) (enough : rest.length < budget) :
    ∃ last, Loop.run (unpackStep bodyEnd) budget ⟨before ++ rest, before.length, tokens⟩ =
        .done ⟨overrun, last⟩ ∧
      last.tokens = tokens ++ payloads.map pascalBlock ∧ last.mem.take before.length = before := by
  induction cut generalizing before tokens budget with
  | finished =>
    obtain ⟨budget, rfl⟩ : ∃ b, budget = b + 1 := ⟨budget - 1, by omega⟩
    have stop : unpackStep bodyEnd ⟨before ++ [], before.length, tokens⟩ =
        .done ⟨false, ⟨before ++ [], before.length, tokens⟩⟩ := by
      rw [unpackStep, if_neg (by simp [here])]
    exact ⟨_, Loop.run_done stop budget, by simp, by simp⟩
  | overrun length rest signed beyond =>
    obtain ⟨budget, rfl⟩ : ∃ b, budget = b + 1 := ⟨budget - 1, by omega⟩
    simp only [List.length_append, length_beBytes] at here
    have stop := unpackStep_overrun before rest length bodyEnd tokens signed (by omega) (by omega)
    rw [← List.append_assoc]
    exact ⟨_, Loop.run_done stop budget, by simp, by simp [List.append_assoc]⟩
  | token payload rest payloads overrun signed _ ih =>
    obtain ⟨budget, rfl⟩ : ∃ b, budget = b + 1 := ⟨budget - 1, by omega⟩
    simp only [List.length_append, length_wireToken] at here enough
    have round := unpackStep_token before payload rest bodyEnd tokens signed (by omega)
    have cursor : (before.length : Int) + 4 + payload.length =
        (before ++ pascalBlock payload).length := by
      simp only [List.length_append, length_pascalBlock]
      omega
    rw [cursor] at round
    obtain ⟨last, ran, copied, kept⟩ := ih (before ++ pascalBlock payload)
      (tokens ++ [pascalBlock payload]) (by simp; omega) budget (by omega)
    refine ⟨last, ?_, by simpa using copied, ?_⟩
    · rw [← List.append_assoc, Loop.run_next round]
      exact ran
    -- What lies before the suffix is not written.
    · have front := congrArg (List.take before.length) kept
      rw [List.take_take, List.take_left] at front
      simpa using front

/-! ### Every run ends -/

theorem unpackStep_next {bodyEnd : Int} {s s' : UnpackState}
    (taken : unpackStep bodyEnd s = .next s') :
    s.iter < bodyEnd ∧ ∃ word mem dup, load s.mem s.iter 4 = some word ∧
      store s.mem s.iter (leBytes 4 (swapBytes 4 (ofLeBytes word))) = some mem ∧
      pstrdup mem s.iter = some dup ∧
      s' = ⟨mem, s.iter + 4 + asInt32 (swapBytes 4 (ofLeBytes word)), s.tokens ++ [dup]⟩ := by
  unfold unpackStep at taken
  split at taken
  next more =>
    refine ⟨more, ?_⟩
    split at taken
    · cases taken
    next word read =>
      dsimp only at taken
      split at taken
      · cases taken
      next mem wrote =>
        split at taken
        · cases taken
        · split at taken
          · cases taken
          next dup copied =>
            cases taken
            exact ⟨word, mem, dup, read, wrote, copied, rfl⟩
  · cases taken

/-- The length read back after the in-place `ntohl` is the length that was stored. -/
private theorem store_then_length {mem mem' : Block} {iter : Int} {length : Nat}
    (word32 : length < 4294967296) (wrote : store mem iter (leBytes 4 length) = some mem') :
    load mem' iter 4 = some (leBytes 4 length) ∧ pascalLength mem' iter = some length := by
  unfold store at wrote
  split at wrote
  next inside =>
    cases wrote
    have position : iter = (mem.take iter.toNat).length := by
      simp only [List.length_take]
      simp only [length_leBytes] at inside
      omega
    have read := load_append (mem.take iter.toNat) (leBytes 4 length)
      (mem.drop (iter.toNat + (leBytes 4 length).length)) iter position
    rw [length_leBytes] at read
    exact ⟨by simpa using read, by
      simp only [pascalLength]
      rw [show (leBytes 4 length).length = 4 from length_leBytes 4 length, read, Option.map_some,
        ofLeBytes_leBytes 4 length word32]⟩
  · cases wrote

theorem pstrdup_eq {mem dup : Block} {str : Int} {length : Nat}
    (field : pascalLength mem str = some length) (copied : pstrdup mem str = some dup) :
    load mem str ((4 + length) % 4294967296) = some dup := by
  simpa only [pstrdup, field, Option.bind_eq_bind, Option.bind_some] using copied

/-- A round that goes on moves the cursor forward, or leaves it at a length field in
which the host now reads -4, the only negative length that is neither copied past the
block nor passed. -/
private theorem unpackStep_progress {bodyEnd : Int} {s s' : UnpackState}
    (block : s.mem.length < 2147483648) (taken : unpackStep bodyEnd s = .next s') :
    s'.mem.length = s.mem.length ∧
    (s.iter < s'.iter ∨ s'.iter = s.iter ∧ load s'.mem s'.iter 4 = some (leBytes 4 4294967292)) := by
  obtain ⟨_, word, mem, dup, _, wrote, copied, rfl⟩ := unpackStep_next taken
  have same := length_store _ _ _ _ wrote
  have word32 : swapBytes 4 (ofLeBytes word) < 4294967296 := by
    simpa using swapBytes_lt 4 (ofLeBytes word)
  obtain ⟨reread, field⟩ := store_then_length word32 wrote
  have copy := load_split _ _ _ _ (pstrdup_eq field copied)
  obtain ⟨size, front, back, around, _⟩ := copy
  have fits : (4 + swapBytes 4 (ofLeBytes word)) % 4294967296 ≤ mem.length := by
    rw [around, ← size]
    simp only [List.length_append]
    omega
  refine ⟨same, ?_⟩
  generalize swapBytes 4 (ofLeBytes word) = length at word32 reread fits
  by_cases stuck : length = 4294967292
  · subst stuck
    have stays : s.iter + 4 + asInt32 4294967292 = s.iter := by
      rw [show asInt32 4294967292 = -4 from rfl]
      omega
    simp only [stays]
    exact Or.inr ⟨trivial, reread⟩
  · left
    simp only [asInt32]
    split <;> omega

/-- From a length field in which the host reads -4 the next round faults: swapped once
more, it states a length that `pstrdup` cannot copy. -/
private theorem unpackStep_stuck {bodyEnd : Int} {s s' : UnpackState}
    (block : s.mem.length < 2147483648) (stuck : load s.mem s.iter 4 = some (leBytes 4 4294967292)) :
    unpackStep bodyEnd s ≠ .next s' := by
  intro taken
  obtain ⟨_, word, mem, dup, read, wrote, copied, _⟩ := unpackStep_next taken
  cases stuck.symm.trans read
  have swapped : swapBytes 4 (ofLeBytes (leBytes 4 4294967292)) = 4244635647 := by decide
  rw [swapped] at wrote
  obtain ⟨_, field⟩ := store_then_length (by decide) wrote
  obtain ⟨size, front, back, around, _⟩ := load_split _ _ _ _ (pstrdup_eq field copied)
  have same := length_store _ _ _ _ wrote
  have total := congrArg List.length around
  simp only [List.length_append] at total
  omega

private theorem unpack_budget (bodyEnd : Int) (budget : Nat) (s : UnpackState)
    (block : s.mem.length < 2147483648)
    (enough : 2 * (bodyEnd - s.iter).toNat + 2 < budget ∨
      0 < budget ∧ load s.mem s.iter 4 = some (leBytes 4 4294967292)) :
    Loop.run (unpackStep bodyEnd) budget s ≠ .running := by
  induction budget generalizing s with
  | zero => omega
  | succ budget ih =>
    cases taken : unpackStep bodyEnd s with
    | next s' =>
      rcases enough with enough | ⟨_, stuck⟩
      · obtain ⟨same, moved⟩ := unpackStep_progress block taken
        have more := (unpackStep_next taken).1
        rw [Loop.run_next taken]
        apply ih s' (by omega)
        rcases moved with forward | ⟨_, stuck⟩
        · left; omega
        · exact Or.inr ⟨by omega, stuck⟩
      · exact absurd taken (unpackStep_stuck block stuck)
    | done result => rw [Loop.run_done taken]; simp
    | fault => rw [Loop.run_fault taken]; simp

/-- The loop of `unpack_message_2` never runs forever: on every block it returns or
touches a byte outside the block. -/
theorem unpackLoop_ends (mem : Block) (body msglen : Int) (block : mem.length < 2147483648) :
    unpackLoop mem body msglen ≠ .running := by
  apply unpack_budget _ _ _ block
  left
  simp only []
  omega

end AcosChat

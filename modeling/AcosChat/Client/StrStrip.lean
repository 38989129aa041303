import AcosChat.Lib.Squeeze
import AcosChat.Message.Encoding

/-!
# `str_strip`

`client/misc.c`: one pass that drops a blank that repeats the byte before it, and a loop that
takes spaces off the end. A computation is `none` where the C code reads or writes outside a
block. `char` is signed, so a byte from 128 on compares as a negative number.
-/
namespace AcosChat

open Bytes Squeeze

/-- The local variables of the first loop; `bufIt` is an offset into `buf`. -/
structure StripState where
  buf : Block
  bufIt : Nat
  prev : UInt8

/-- `prev <= ' '` -/
def atMostSpace (prev : UInt8) : Bool := prev.toInt8 ≤ 32

/-- The body of the first loop. -/
def stripStep (it : UInt8) (s : StripState) : Option StripState := do
  let copy := ¬(it = s.prev ∧ atMostSpace s.prev)
  if copy then return { buf := ← store s.buf s.bufIt [it], bufIt := s.bufIt + 1, prev := it }
  else return { s with prev := it }

/-- The first loop, up to the NUL. -/
def stripLoop : Block → StripState → Option StripState
  | [], _ => none
  | it :: str, s => if it = 0 then some s else stripStep it s >>= stripLoop str

/-- The second loop: it goes down to `buf`, as long as it finds spaces. -/
def trimLoop : Nat → Block → Option Block
  | 0, buf => some buf
  | bufIt + 1, buf => do
    if (← buf[bufIt + 1]?) = 32 then trimLoop bufIt (← store buf (bufIt + 1 : Nat) [0])
    else return buf

/-- The result is the block at `buf`. Where nothing has been copied, `--buf_it` leaves it in front of
`buf`, and the second loop ends at once, as it does at `buf`. -/
def strStrip (str : Block) : Option Block := do
  let buf := List.replicate ((← strlen str) + 1) 0
  let s ← stripLoop str ⟨buf, 0, 10⟩
  trimLoop (s.bufIt - 1) s.buf

/-- The string in a block. -/
def cString (mem : Block) : Block := mem.takeWhile (· ≠ 0)

/-! ### The string that it returns -/

/-- What is behind the first byte loses its spaces at the end. -/
def trimmed : Block → Block
  | [] => []
  | first :: rest => first :: rest.rdropWhile (· = 32)

def stripped (s : Block) : Block := trimmed (squeeze atMostSpace 10 s)

theorem cString_append {s : Block} (nulFree : 0 ∉ s) (rest : Block) : cString (s ++ 0 :: rest) = s := by
  have before : ∀ byte ∈ s, decide (byte ≠ 0) = true := by
    intro byte member
    exact decide_eq_true fun zero => nulFree (zero ▸ member)
  rw [cString, List.takeWhile_append_of_pos before]
  simp

/-- A block with a NUL is a string, the NUL and what is behind it. -/
theorem eq_cString_append {mem : Block} (terminated : 0 ∈ mem) :
    0 ∉ cString mem ∧ ∃ rest, mem = cString mem ++ 0 :: rest := by
  induction mem with
  | nil => cases terminated
  | cons byte mem ih =>
    by_cases nul : byte = 0
    · subst nul
      exact ⟨by simp [cString], mem, by simp [cString]⟩
    · obtain ⟨nulFree, rest, split⟩ := ih ((List.mem_cons.mp terminated).resolve_left (Ne.symm nul))
      have head : cString (byte :: mem) = byte :: cString mem := by simp [cString, nul]
      rw [head]
      refine ⟨?_, rest, by rw [List.cons_append, ← split]⟩
      intro member
      rcases List.mem_cons.mp member with zero | member
      · exact nul zero.symm
      · exact nulFree member

/-- The first loop writes what it keeps, in order, into the zeroed buffer. -/
theorem stripLoop_append (s rest out : Block) (room : Nat) (prev : UInt8) (nulFree : 0 ∉ s)
    (enough : s.length ≤ room) :
    ∃ prev', stripLoop (s ++ 0 :: rest) ⟨out ++ List.replicate room 0, out.length, prev⟩ =
      some ⟨out ++ squeeze atMostSpace prev s ++
          List.replicate (room - (squeeze atMostSpace prev s).length) 0,
        (out ++ squeeze atMostSpace prev s).length, prev'⟩ := by
  induction s generalizing out room prev with
  | nil => exact ⟨prev, by simp [stripLoop]⟩
  | cons it s ih =>
    rw [List.length_cons] at enough
    have later : 0 ∉ s := fun member => nulFree (List.mem_cons_of_mem _ member)
    have inside : it ≠ 0 := by
      rintro rfl
      exact nulFree List.mem_cons_self
    rcases drop_or_keep atMostSpace prev it with ⟨rfl, dropped⟩ | keeps
    · -- nothing is written, and `prev` is the same byte
      obtain ⟨prev', ran⟩ := ih out room it later (by omega)
      refine ⟨prev', ?_⟩
      rw [squeeze_cons_drop dropped, ← ran]
      simp [stripLoop, inside, stripStep, dropped]
    · obtain ⟨prev', ran⟩ := ih (out ++ [it]) (room - 1) it later (by omega)
      refine ⟨prev', ?_⟩
      have wrote := store_next out (List.replicate room 0) [it] rfl
        (by rw [List.length_singleton, List.length_replicate]; omega)
      rw [List.length_singleton, List.drop_replicate] at wrote
      have copied : ¬(it = prev ∧ atMostSpace prev = true) := by
        rintro ⟨same, held⟩
        rw [keeps same] at held
        cases held
      have step : stripStep it ⟨out ++ List.replicate room 0, out.length, prev⟩ =
          some ⟨out ++ [it] ++ List.replicate (room - 1) 0, out.length + 1, it⟩ := by
        simp only [stripStep, if_pos copied, wrote, Option.bind_eq_bind, Option.bind_some,
          Option.pure_def]
      rw [List.length_append, List.length_singleton] at ran
      rw [List.cons_append, stripLoop, if_neg inside, step, Option.bind_eq_bind, Option.bind_some, ran,
        squeeze_cons_keep keeps]
      simp only [List.append_assoc, List.cons_append, List.nil_append, List.length_cons]
      rw [Nat.sub_sub, Nat.add_comm 1]

/-- The second loop overwrites the spaces at the end, but not the first byte. -/
theorem trimLoop_append (first : UInt8) (rest : Block) (room : Nat) :
    ∃ room', trimLoop rest.length (first :: rest ++ List.replicate (room + 1) 0) =
      some (first :: rest.rdropWhile (· = 32) ++ List.replicate (room' + 1) 0) := by
  induction rest using List.reverseRecOn generalizing room with
  | nil => exact ⟨room, rfl⟩
  | append_singleton rest byte ih =>
    have here : (first :: (rest ++ [byte]) ++ List.replicate (room + 1) 0)[rest.length + 1]? = some byte := by
      simp
    rw [List.length_append, List.length_singleton, trimLoop, here]
    by_cases space : byte = 32
    · -- the space becomes one more zero at the end
      subst space
      obtain ⟨room', ran⟩ := ih (room + 1)
      refine ⟨room', ?_⟩
      have wrote := store_append (first :: rest) [32] [0] (List.replicate (room + 1) 0)
        (rest.length + 1 : Nat) rfl rfl
      have zeros : first :: rest ++ [0] ++ List.replicate (room + 1) 0 =
          first :: rest ++ List.replicate (room + 1 + 1) 0 := by
        rw [List.append_assoc]
        rfl
      rw [zeros] at wrote
      rw [List.rdropWhile_concat_pos _ _ _ (by simp), ← ran, ← List.cons_append, wrote]
      simp
    · refine ⟨room, ?_⟩
      simp [space]

theorem strStrip_eq {str : Block} (terminated : 0 ∈ str) :
    ∃ room, strStrip str = some (stripped (cString str) ++ List.replicate (room + 1) 0) := by
  obtain ⟨nulFree, rest, split⟩ := eq_cString_append terminated
  have length : strlen str = some (cString str).length := strlen_eq str terminated
  generalize cString str = s at nulFree split length
  subst split
  obtain ⟨prev', ran⟩ := stripLoop_append s rest [] (s.length + 1) 10 nulFree (by omega)
  have short : (squeeze atMostSpace 10 s).length ≤ s.length := (squeeze_sublist 10 s).length_le
  simp only [List.nil_append, List.length_nil] at ran
  simp only [strStrip, length, ran, Option.bind_eq_bind, Option.bind_some, stripped]
  cases kept : squeeze atMostSpace 10 s with
  | nil => exact ⟨s.length, rfl⟩
  | cons first others =>
    rw [kept, List.length_cons] at short
    obtain ⟨room, trimmed⟩ := trimLoop_append first others (s.length - (others.length + 1))
    refine ⟨room, ?_⟩
    rw [List.length_cons, Nat.add_sub_cancel, Nat.succ_sub short]
    exact trimmed

theorem not_mem_stripped {s : Block} (nulFree : 0 ∉ s) : 0 ∉ stripped s := by
  intro member
  have kept : 0 ∈ squeeze atMostSpace 10 s := by
    unfold stripped at member
    cases squeezed : squeeze atMostSpace 10 s with
    | nil =>
      rw [squeezed] at member
      exact member
    | cons first others =>
      rw [squeezed] at member
      rcases List.mem_cons.mp member with here | member
      · exact here ▸ List.mem_cons_self
      · exact List.mem_cons_of_mem _ ((List.rdropWhile_prefix _ _).subset member)
  exact nulFree ((squeeze_sublist 10 s).subset kept)

/-- `str_strip` stays inside its blocks, and its result is the stripped string. -/
theorem strStrip_spec {str : Block} (terminated : 0 ∈ str) :
    ∃ buf, strStrip str = some buf ∧ 0 ∈ buf ∧ cString buf = stripped (cString str) := by
  obtain ⟨room, ran⟩ := strStrip_eq terminated
  have nulFree := (eq_cString_append terminated).1
  refine ⟨_, ran, by simp, ?_⟩
  rw [List.replicate_succ]
  exact cString_append (not_mem_stripped nulFree) _

/-! ### What is kept -/

/-- The bytes that are not blank. -/
def visible (s : Block) : Block := s.filter (32 < ·)

/-- The test for a blank takes the bytes from 128 on for blanks too. -/
theorem atMostSpace_iff (byte : UInt8) : atMostSpace byte = true ↔ byte ≤ 32 ∨ 128 ≤ byte := by
  have value : byte.toInt8.toInt =
      if 2 * byte.toNat < 2 ^ 8 then (byte.toNat : Int) else byte.toNat - 2 ^ 8 :=
    BitVec.toInt_eq_toNat_cond byte.toBitVec
  have space : (32 : Int8).toInt = 32 := rfl
  have small : (32 : UInt8).toNat = 32 := rfl
  have large : (128 : UInt8).toNat = 128 := rfl
  have bound := byte.toNat_lt
  rw [atMostSpace, decide_eq_true_iff, Int8.le_iff_toInt_le, UInt8.le_iff_toNat_le,
    UInt8.le_iff_toNat_le, value, space]
  split <;> omega

theorem visible_trimmed (s : Block) : visible (trimmed s) = visible s := by
  cases s with
  | nil => rfl
  | cons first rest =>
    -- What is cut off the end is all spaces.
    have cut : (rest.rtakeWhile (· = 32)).filter (32 < ·) = [] := by
      apply List.filter_eq_nil_iff.mpr
      intro byte member
      have space := List.mem_rtakeWhile_imp member
      rw [decide_eq_true_iff] at space
      simp [space]
    have whole := List.rdropWhile_append_rtakeWhile (p := (· = 32)) (l := rest)
    have same : visible rest = visible (rest.rdropWhile (· = 32)) := by
      conv_lhs => rw [← whole]
      rw [visible, List.filter_append, cut, List.append_nil, visible]
    simp only [trimmed, visible, List.filter_cons] at same ⊢
    rw [same]

/-- `str_strip` keeps what is not blank if and only if no byte from 128 on is repeated. -/
theorem strStrip_visible_iff {str : Block} (terminated : 0 ∈ str) :
    (∃ buf, strStrip str = some buf ∧ visible (cString buf) = visible (cString str)) ↔
      (cString str).IsChain fun a b => b = a → a < 128 := by
  obtain ⟨buf, ran, _, result⟩ := strStrip_spec terminated
  have whole : (∃ buf, strStrip str = some buf ∧ visible (cString buf) = visible (cString str)) ↔
      visible (squeeze atMostSpace 10 (cString str)) = visible (cString str) := by
    rw [ran, ← visible_trimmed (squeeze atMostSpace 10 (cString str))]
    simp [result, stripped]
  -- A repeated byte that is not blank is kept if it is below 128.
  have pairs : ∀ a b : UInt8, (b = a → decide (32 < b) = true → atMostSpace a = false) ↔
      (b = a → a < 128) := by
    intro a b
    apply imp_congr_right
    rintro rfl
    rw [decide_eq_true_iff, ← Bool.not_eq_true, atMostSpace_iff, not_or, UInt8.not_le, UInt8.not_le]
    constructor
    · intro kept
      by_cases blank : b ≤ 32
      · exact UInt8.lt_of_le_of_lt blank (by decide)
      · exact (kept (UInt8.not_le.mp blank)).2
    · intro low high
      exact ⟨high, low⟩
  rw [whole, visible, visible, filter_squeeze_eq_iff]
  simp only [pairs]
  cases cString str with
  | nil => simp
  | cons first rest =>
    rw [List.isChain_cons_cons]
    exact and_iff_right fun _ => by decide

/-- A character of three bytes, the last two of which are the same. -/
theorem strStrip_drops_visible : ¬∃ buf, strStrip [0xE4, 0x80, 0x80, 0] = some buf ∧
    visible (cString buf) = visible (cString [0xE4, 0x80, 0x80, 0]) := by
  have ran : strStrip [0xE4, 0x80, 0x80, 0] = some [0xE4, 0x80, 0, 0] := by decide
  rintro ⟨buf, same, kept⟩
  rw [ran, Option.some.injEq] at same
  subst same
  revert kept
  decide

theorem strStrip_visible_hello : ∃ buf, strStrip [104, 101, 108, 108, 111, 32, 32, 0] = some buf ∧
    visible (cString buf) = visible (cString [104, 101, 108, 108, 111, 32, 32, 0]) :=
  (strStrip_visible_iff (by decide)).mpr (by decide)

/-! ### The normal form -/

/-- No newline at the start, no blank twice in a row, and no space at the end. -/
structure NormalForm (s : Block) : Prop where
  start : s.head? ≠ some 10
  blanks : s.IsChain fun a b => b = a → 32 < a
  ends : s.getLast? ≠ some 32

/-- `str_strip` runs without an access outside its blocks, and gives the normal form, which does
not depend on spaces behind the string and is not stripped any further. -/
def Normalizes (str : Block) : Prop :=
  ∃ buf, strStrip str = some buf ∧ NormalForm (cString buf) ∧
    (∀ field padding, cString str = field ++ List.replicate padding 32 →
      ∃ buf', strStrip (field ++ [0]) = some buf' ∧ cString buf' = cString buf) ∧
    ((∀ byte ∈ cString str, byte = 32) → cString buf = []) ∧
    ∃ again, strStrip buf = some again ∧ cString again = cString buf

/-- Newlines, if there are any, and spaces behind them. -/
def BlankField (s : Block) : Prop :=
  ∃ newlines spaces, s = List.replicate newlines 10 ++ List.replicate (spaces + 1) 32

theorem blankField_iff (s : Block) : BlankField s ↔ squeeze atMostSpace 10 s = [32] :=
  (squeeze_eq_singleton_iff (by decide) (by decide) (by decide) s).symm

theorem trimmed_prefix (s : Block) : trimmed s <+: s := by
  cases s with
  | nil => exact List.prefix_rfl
  | cons first rest => exact List.cons_prefix_cons.mpr ⟨rfl, List.rdropWhile_prefix _ _⟩

theorem tight_stripped (s : Block) : Tight atMostSpace (10 :: stripped s) := by
  have tight : Tight atMostSpace (10 :: squeeze atMostSpace 10 s) := tight_squeeze 10 s
  obtain ⟨cut, split⟩ := trimmed_prefix (squeeze atMostSpace 10 s)
  rw [← split, ← List.cons_append] at tight
  exact List.IsChain.left_of_append tight

theorem stripped_stripped (s : Block) : stripped (stripped s) = stripped s := by
  rw [stripped, squeeze_of_tight (tight_stripped s), stripped]
  cases squeeze atMostSpace 10 s with
  | nil => rfl
  | cons first rest => rw [trimmed, trimmed, List.rdropWhile_idempotent]

/-- A space at the end is left only where it is all that is left. -/
theorem getLast?_stripped (s : Block) (other : squeeze atMostSpace 10 s ≠ [32]) :
    (stripped s).getLast? ≠ some 32 := by
  have tight : Tight atMostSpace (10 :: squeeze atMostSpace 10 s) := tight_squeeze 10 s
  rw [stripped]
  cases squeezed : squeeze atMostSpace 10 s with
  | nil => simp [trimmed]
  | cons first rest =>
    rw [squeezed] at tight other
    intro last
    rw [trimmed] at last
    by_cases empty : rest.rdropWhile (· = 32) = []
    · rw [empty, List.getLast?_singleton, Option.some.injEq] at last
      subst last
      -- Behind a space there would be another one.
      cases rest with
      | nil => exact other rfl
      | cons second rest =>
        have spaces := List.rdropWhile_eq_nil_iff.mp empty
        have space : second = 32 := by simpa using spaces second List.mem_cons_self
        have pair := (List.isChain_cons_cons.mp (List.isChain_cons_cons.mp tight).2).1
        exact absurd (pair space) (by decide)
    · rw [List.getLast?_cons, List.getLast?_eq_some_getLast empty] at last
      have notSpace := List.rdropWhile_last_not (p := (· = 32)) rest empty
      simp at last notSpace
      exact notSpace last

theorem normalForm_stripped (s : Block) (other : squeeze atMostSpace 10 s ≠ [32]) :
    NormalForm (stripped s) := by
  have tight := tight_stripped s
  refine ⟨?_, ?_, getLast?_stripped s other⟩
  · cases result : stripped s with
    | nil => simp
    | cons first rest =>
      rw [result] at tight
      intro newline
      rw [List.head?_cons, Option.some.injEq] at newline
      exact absurd ((List.isChain_cons_cons.mp tight).1 newline) (by decide)
  · apply List.IsChain.imp _ (List.IsChain.tail tight)
    intro a b kept same
    have above : ¬(a ≤ 32 ∨ 128 ≤ a) := by
      rw [← atMostSpace_iff, kept same]
      decide
    exact UInt8.not_le.mp fun blank => above (.inl blank)

theorem stripped_append_spaces (field : Block) (padding : Nat)
    (other : squeeze atMostSpace 10 (field ++ List.replicate padding 32) ≠ [32]) :
    stripped (field ++ List.replicate padding 32) = stripped field := by
  rcases squeeze_append_replicate 10 (32 : UInt8) field padding (by decide : atMostSpace 32 = true) with
    same | more
  · rw [stripped, stripped, same]
  · rw [more] at other
    rw [stripped, stripped, more]
    cases squeezed : squeeze atMostSpace 10 field with
    | nil =>
      rw [squeezed] at other
      exact absurd rfl other
    | cons first rest =>
      rw [List.cons_append, trimmed, trimmed, List.rdropWhile_concat_pos _ _ _ (by simp)]

/-- `str_strip` yields its normal form if and only if the string is not a field of spaces only,
with or without newlines in front: of such a field one space is left. -/
theorem strStrip_normalizes_iff {str : Block} (terminated : 0 ∈ str) :
    Normalizes str ↔ ¬BlankField (cString str) := by
  obtain ⟨buf, ran, nul, result⟩ := strStrip_spec terminated
  rw [blankField_iff]
  constructor
  · rintro ⟨buf', ran', normal, _⟩ blank
    rw [ran, Option.some.injEq] at ran'
    subst ran'
    rw [result, stripped, blank] at normal
    exact normal.ends rfl
  · intro other
    -- the result is a field too, and stripping it again changes nothing
    obtain ⟨again, ran', _, result'⟩ := strStrip_spec nul
    rw [result, stripped_stripped] at result'
    have padded : ∀ field padding, cString str = field ++ List.replicate padding 32 →
        stripped field = stripped (cString str) := by
      intro field padding split
      rw [split] at other ⊢
      exact (stripped_append_spaces field padding other).symm
    refine ⟨buf, ran, ?_, ?_, ?_, again, ran', result'.trans result.symm⟩
    · rw [result]
      exact normalForm_stripped _ other
    · intro field padding split
      have terminated' : 0 ∈ field ++ [0] := by simp
      obtain ⟨buf', ran'', _, result''⟩ := strStrip_spec terminated'
      have nulFree : 0 ∉ field := fun member =>
        (eq_cString_append terminated).1 (split ▸ List.mem_append_left _ member)
      rw [cString_append nulFree] at result''
      exact ⟨buf', ran'', by rw [result'', padded field padding split, result]⟩
    · intro spaces
      have all := List.eq_replicate_of_mem spaces
      rw [result, ← padded [] _ all]
      rfl

/-- An empty field of the dialog: its buffer is filled up with spaces. -/
theorem not_normalizes_spaces : ¬Normalizes (List.replicate 50 32 ++ [0]) := by
  have ran : strStrip (List.replicate 50 32 ++ [0]) = some (32 :: List.replicate 50 0) := by decide
  rintro ⟨buf, same, normal, _⟩
  rw [ran, Option.some.injEq] at same
  subst same
  exact normal.ends (by decide)

theorem strStrip_normalizes_padded : Normalizes [10, 98, 111, 98, 32, 32, 0] :=
  (strStrip_normalizes_iff (by decide)).mpr fun blank =>
    absurd ((blankField_iff _).mp blank) (by decide)

end AcosChat

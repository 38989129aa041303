import AcosChat.Lib.Run
import AcosChat.TsVector.Model

/-!
# What a vector holds

A run of pushes and clears, in which every `realloc` may fail. `grow_up` leaves a vector that
could not grow as it is, and `ts_vector_push_back` writes behind its end all the same; and a
byte count that wraps gives a block that is too small. Every other run keeps the elements.
-/
namespace AcosChat

open Bytes

/-- A value of the size of an element. -/
abbrev Elem (elemSize : UInt64) := { val : Block // val.length = elemSize.toNat }

inductive VectorCall (elemSize : UInt64) where
  /-- With what `realloc` returns, if the vector is full. -/
  | pushBack (val : Elem elemSize) (outcome : Option Allocator)
  | clear

/-- What has happened to the elements. -/
inductive VectorEvent (elemSize : UInt64) where
  | pushed (val : Elem elemSize)
  | cleared

variable {elemSize : UInt64}

/-- A push succeeds unless the vector is full and does not grow. -/
def TsVector.call (v : TsVector) :
    VectorCall elemSize → Option (List (VectorEvent elemSize) × Option TsVector)
  | .pushBack val outcome => do
    let v' ← tsVectorPushBack v val.val outcome
    let failed := v.size = v.capacity ∧ outcome.isNone
    return (if failed then [] else [.pushed val], some v')
  | .clear => some ([.cleared], some (tsVectorClear v))

/-- The values pushed since the last clear. -/
def sinceClear (trace : List (VectorEvent elemSize)) : List (Elem elemSize) :=
  trace.foldl (fun vals event =>
    match event with
    | .pushed val => vals ++ [val]
    | .cleared => []) []

/-- The bytes of elements behind each other. -/
def bytesOf (vals : List (Elem elemSize)) : Block := (vals.map Subtype.val).flatten

/-- The vector has room for its elements, and they are these. -/
structure Contains (v : TsVector) (vals : List (Elem elemSize)) : Prop where
  within : v.size ≤ v.capacity
  size : v.size.toNat = vals.length
  elems : bytesOf vals <+: v.data

/-- At every point of a sequence of calls, no write has been outside the block, and the vector
contains the values pushed since the last clear. -/
def KeepsElements (malloc : Allocator) (calls : List (VectorCall elemSize)) : Prop :=
  ∀ first, first <+: calls →
    ∃ trace v, Run.replay TsVector.call (tsVectorInit elemSize malloc) first = some (trace, v) ∧
      Contains v (sinceClear trace)

/-- A full vector grows, and no byte count wraps; where the first one has wrapped, the block that
it gave has room for one more element. -/
def Fits (v : TsVector) : VectorCall elemSize → Prop
  | .pushBack _ outcome =>
    if v.size = v.capacity then
      outcome.isSome ∧ 2 * v.capacity.toNat < 2 ^ 64 ∧ 2 * v.capacity.toNat * elemSize.toNat < 2 ^ 64
    else
      8 * elemSize.toNat < 2 ^ 64 ∨
        (v.size.toNat + 1) * elemSize.toNat ≤ 8 * elemSize.toNat % 2 ^ 64
  | .clear => True

/-! ### The elements as bytes -/

@[simp] theorem bytesOf_nil : bytesOf ([] : List (Elem elemSize)) = [] := rfl

theorem bytesOf_append_singleton (vals : List (Elem elemSize)) (val : Elem elemSize) :
    bytesOf (vals ++ [val]) = bytesOf vals ++ val.val := by
  simp [bytesOf]

theorem length_bytesOf (vals : List (Elem elemSize)) :
    (bytesOf vals).length = vals.length * elemSize.toNat := by
  induction vals with
  | nil => simp
  | cons val vals ih =>
    have head := val.property
    simp only [bytesOf, List.map_cons, List.flatten_cons, List.length_append] at ih ⊢
    rw [ih, head, List.length_cons, Nat.succ_mul, Nat.add_comm]

theorem sinceClear_append_pushed (trace : List (VectorEvent elemSize)) (val : Elem elemSize) :
    sinceClear (trace ++ [.pushed val]) = sinceClear trace ++ [val] := by
  simp [sinceClear]

@[simp] theorem sinceClear_append_cleared (trace : List (VectorEvent elemSize)) :
    sinceClear (trace ++ [.cleared]) = [] := by
  simp [sinceClear]

/-! ### One call -/

/-- The block is as large as the source takes it to be, or as the first byte count that wrapped. -/
structure Sized (elemSize : UInt64) (v : TsVector) : Prop where
  same : v.elemSize = elemSize
  positive : 0 < v.capacity.toNat
  exact : 8 * elemSize.toNat < 2 ^ 64 → v.data.length = v.capacity.toNat * elemSize.toNat ∧
    v.capacity.toNat * elemSize.toNat < 2 ^ 64
  wrapped : 2 ^ 64 ≤ 8 * elemSize.toNat →
    v.capacity = 8 ∧ v.data.length = 8 * elemSize.toNat % 2 ^ 64

section Call

variable {v w : TsVector} {vals : List (Elem elemSize)} {outcome : Option Allocator}

theorem Sized.length_lt (sized : Sized elemSize v) : v.data.length < 2 ^ 64 := by
  by_cases small : 8 * elemSize.toNat < 2 ^ 64
  · obtain ⟨length, bound⟩ := sized.exact small
    omega
  · obtain ⟨_, length⟩ := sized.wrapped (Nat.not_lt.mp small)
    omega

/-- Where the next element goes. -/
theorem toNat_offset (same : v.elemSize = elemSize) (small : v.size.toNat * elemSize.toNat < 2 ^ 64) :
    (v.elemSize * v.size).toNat = v.size.toNat * elemSize.toNat := by
  rw [same, UInt64.toNat_mul, Nat.mul_comm, Nat.mod_eq_of_lt small]

theorem load_elem (same : v.elemSize = elemSize) (val : Elem elemSize) :
    load val.val 0 v.elemSize.toNat = some val.val := by
  have whole := load_append [] val.val [] 0 rfl
  rw [List.nil_append, List.append_nil, val.property] at whole
  rw [same]
  exact whole

/-- An element is written behind those that are there, if the block has room for it. -/
theorem pushBack_stores (grown : (if v.size = v.capacity then growUp v outcome else v) = w)
    (same : w.elemSize = elemSize) (size : w.size.toNat = vals.length)
    (elems : bytesOf vals <+: w.data) (bound : w.data.length < 2 ^ 64) (val : Elem elemSize)
    (room : (w.size.toNat + 1) * elemSize.toNat ≤ w.data.length) :
    ∃ data, tsVectorPushBack v val.val outcome = some { w with data := data, size := w.size + 1 } ∧
      bytesOf (vals ++ [val]) <+: data ∧ data.length = w.data.length := by
  obtain ⟨rest, split⟩ := elems
  have front := length_bytesOf vals
  rw [← size] at front
  rw [Nat.add_mul, Nat.one_mul] at room
  have total := congrArg List.length split
  rw [List.length_append, front] at total
  have fits : val.val.length ≤ rest.length := by
    rw [val.property]
    omega
  have offset : ((w.elemSize * w.size).toNat : Int) = (bytesOf vals).length := by
    rw [toNat_offset same (by omega), front]
  have wrote := store_next (bytesOf vals) rest val.val offset fits
  rw [split] at wrote
  refine ⟨_, ?_, ?_, length_store _ _ _ _ wrote⟩
  · simp only [tsVectorPushBack, grown, load_elem same, wrote, Option.bind_eq_bind, Option.bind_some,
      Option.pure_def]
  · rw [bytesOf_append_singleton]
    exact List.prefix_append _ _

/-- Otherwise the write goes outside the block. -/
theorem pushBack_outside (grown : (if v.size = v.capacity then growUp v outcome else v) = w)
    (same : w.elemSize = elemSize) (bound : w.size.toNat * elemSize.toNat < 2 ^ 64)
    (val : Elem elemSize) (short : w.data.length < (w.size.toNat + 1) * elemSize.toNat) :
    tsVectorPushBack v val.val outcome = none := by
  have misses : store w.data (w.elemSize * w.size).toNat val.val = none := by
    rw [store, if_neg]
    rw [toNat_offset same bound, val.property]
    rw [Nat.add_mul, Nat.one_mul] at short
    omega
  simp only [tsVectorPushBack, grown, load_elem same, misses, Option.bind_eq_bind, Option.bind_some,
    Option.bind_none]

/-- The elements that are there are inside the block. -/
theorem Contains.inside (contains : Contains v vals) :
    v.size.toNat * elemSize.toNat ≤ v.data.length := by
  rw [contains.size, ← length_bytesOf]
  exact contains.elems.length_le

/-- A block that is too small from the start never gets full. -/
theorem Contains.small_of_full (contains : Contains v vals) (sized : Sized elemSize v)
    (full : v.size = v.capacity) : 8 * elemSize.toNat < 2 ^ 64 := by
  by_contra large
  obtain ⟨capacity, length⟩ := sized.wrapped (Nat.not_lt.mp large)
  have inside := contains.inside
  rw [full, capacity, length] at inside
  have eight : (8 : UInt64).toNat = 8 := rfl
  rw [eight] at inside
  omega

theorem toNat_succ (small : v.size.toNat + 1 < 2 ^ 64) : (v.size + 1).toNat = v.size.toNat + 1 := by
  rw [UInt64.toNat_add, UInt64.toNat_one, Nat.mod_eq_of_lt small]

/-- A growing that fits doubles the block and keeps what is in it. -/
theorem growUp_doubles (sized : Sized elemSize v) (small : 8 * elemSize.toNat < 2 ^ 64)
    (malloc : Allocator) (twice : 2 * v.capacity.toNat < 2 ^ 64)
    (bytes : 2 * v.capacity.toNat * elemSize.toNat < 2 ^ 64) :
    ∃ more, growUp v (some malloc) = { v with data := v.data ++ more, capacity := v.capacity * 2 } ∧
      (v.capacity * 2).toNat = 2 * v.capacity.toNat ∧
      (v.data ++ more).length = 2 * v.data.length := by
  have length := (sized.exact small).1
  have capacity : (v.capacity * 2).toNat = 2 * v.capacity.toNat := by
    rw [UInt64.toNat_mul, Nat.mul_comm]
    exact Nat.mod_eq_of_lt twice
  -- neither of the two products of words wraps
  have asked : (v.capacity * v.elemSize * 2).toNat = 2 * v.data.length := by
    rw [UInt64.toNat_mul, UInt64.toNat_mul, sized.same, length, Nat.mod_mul_mod, Nat.mul_comm]
    exact Nat.mod_eq_of_lt (by rwa [Nat.mul_assoc] at bytes)
  have old : v.data.take (v.capacity * v.elemSize * 2).toNat = v.data :=
    List.take_of_length_le (by omega)
  refine ⟨malloc.fresh ((v.capacity * v.elemSize * 2).toNat - v.data.length), ?_, capacity, ?_⟩
  · simp only [growUp, realloc, Option.map_some, old]
  · rw [List.length_append, malloc.length_fresh, asked]
    omega

/-- The room that a push needs is there if the call fits, in the vector that may have grown. -/
theorem room_of_fits (sized : Sized elemSize v) (contains : Contains v vals) (val : Elem elemSize)
    (fits : Fits v (.pushBack val outcome)) :
    ∃ w, (if v.size = v.capacity then growUp v outcome else v) = w ∧ Sized elemSize w ∧
      w.size = v.size ∧ v.data <+: w.data ∧ v.size.toNat < w.capacity.toNat ∧
      (v.size.toNat + 1) * elemSize.toNat ≤ w.data.length := by
  have within : v.size.toNat ≤ v.capacity.toNat := contains.within
  by_cases full : v.size = v.capacity
  · rw [Fits, if_pos full] at fits
    obtain ⟨grows, twice, bytes⟩ := fits
    obtain ⟨malloc, rfl⟩ := Option.isSome_iff_exists.mp grows
    have small := contains.small_of_full sized full
    have length := (sized.exact small).1
    have positive := sized.positive
    obtain ⟨more, grown, capacity, grownLength⟩ := growUp_doubles sized small malloc twice bytes
    refine ⟨_, (if_pos full).trans grown, ⟨sized.same, ?_, ?_, ?_⟩, rfl, List.prefix_append _ _, ?_, ?_⟩
    · rw [capacity]
      omega
    · intro _
      rw [grownLength, capacity, length, Nat.mul_assoc]
      exact ⟨rfl, by rwa [Nat.mul_assoc] at bytes⟩
    · intro large
      exact absurd small (Nat.not_lt.mpr large)
    · rw [capacity, full]
      omega
    · rw [grownLength, length, full, Nat.add_mul, Nat.one_mul, Nat.two_mul]
      -- the second half has room for at least one element
      have single : elemSize.toNat ≤ v.capacity.toNat * elemSize.toNat :=
        Nat.le_mul_of_pos_left _ positive
      omega
  · rw [Fits, if_neg full] at fits
    have below : v.size.toNat < v.capacity.toNat := by
      apply Nat.lt_of_le_of_ne within
      intro same
      exact full (UInt64.toNat_inj.mp same)
    refine ⟨v, if_neg full, sized, rfl, List.prefix_rfl, below, ?_⟩
    -- the byte count of `ts_vector_init` may have wrapped, and the block be smaller than eight elements
    by_cases small : 8 * elemSize.toNat < 2 ^ 64
    · rw [(sized.exact small).1]
      exact Nat.mul_le_mul_right _ below
    · rw [(sized.wrapped (Nat.not_lt.mp small)).2]
      exact fits.resolve_left small

/-- A call that fits keeps what the vector contains. -/
theorem call_of_fits {trace : List (VectorEvent elemSize)} (sized : Sized elemSize v)
    (contains : Contains v (sinceClear trace)) (call : VectorCall elemSize) (fits : Fits v call) :
    ∃ did v', v.call call = some (did, some v') ∧ Sized elemSize v' ∧
      Contains v' (sinceClear (trace ++ did)) := by
  cases call with
  | clear =>
    refine ⟨[.cleared], tsVectorClear v, rfl,
      ⟨sized.same, sized.positive, sized.exact, sized.wrapped⟩, ?_⟩
    rw [sinceClear_append_cleared]
    exact ⟨UInt64.zero_le, rfl, List.nil_prefix⟩
  | pushBack val outcome =>
    obtain ⟨w, grown, sizedW, size, keeps, room, fitsBlock⟩ := room_of_fits sized contains val fits
    rw [← size] at fitsBlock room
    obtain ⟨data, ran, elems, length⟩ := pushBack_stores grown sizedW.same
      (size ▸ contains.size) (contains.elems.trans keeps) sizedW.length_lt val fitsBlock
    have succeeded : ¬(v.size = v.capacity ∧ outcome.isNone) := by
      rintro ⟨full, failed⟩
      rw [Fits, if_pos full] at fits
      rw [Option.isNone_iff_eq_none.mp failed] at fits
      cases fits.1
    have next := toNat_succ (v := w) (by have bound := w.capacity.toNat_lt; omega)
    refine ⟨[.pushed val], { w with data := data, size := w.size + 1 }, ?_, ⟨sizedW.same,
      sizedW.positive, ?_, ?_⟩, ?_⟩
    · simp only [TsVector.call, ran, if_neg succeeded, Option.bind_eq_bind, Option.bind_some,
        Option.pure_def]
    · intro small
      exact ⟨length.trans (sizedW.exact small).1, (sizedW.exact small).2⟩
    · intro large
      exact ⟨(sizedW.wrapped large).1, length.trans (sizedW.wrapped large).2⟩
    · rw [sinceClear_append_pushed]
      refine ⟨?_, ?_, elems⟩
      · rw [UInt64.le_iff_toNat_le, next]
        exact room
      · rw [next, size, contains.size, List.length_append, List.length_singleton]

theorem pushBack_eq_some {v' : TsVector} {val : Block} (ran : tsVectorPushBack v val outcome = some v') :
    v'.size = (if v.size = v.capacity then growUp v outcome else v).size + 1 ∧
      v'.capacity = (if v.size = v.capacity then growUp v outcome else v).capacity := by
  simp only [tsVectorPushBack, Option.bind_eq_bind, Option.bind_eq_some_iff, Option.pure_def,
    Option.some.injEq] at ran
  obtain ⟨_, _, _, _, rfl⟩ := ran
  exact ⟨rfl, rfl⟩

/-- A call that does not fit faults or leaves the vector with something else. -/
theorem fits_of_call {trace did : List (VectorEvent elemSize)} {v' : TsVector}
    (sized : Sized elemSize v) (contains : Contains v (sinceClear trace)) (call : VectorCall elemSize)
    (ran : v.call call = some (did, some v')) (after : Contains v' (sinceClear (trace ++ did))) :
    Fits v call := by
  cases call with
  | clear => trivial
  | pushBack val outcome =>
    simp only [TsVector.call, Option.bind_eq_bind, Option.bind_eq_some_iff, Option.pure_def,
      Option.some.injEq, Prod.mk.injEq] at ran
    obtain ⟨v'', pushed, events, rfl⟩ := ran
    obtain ⟨size, capacity⟩ := pushBack_eq_some pushed
    have counted := after.size
    by_cases full : v.size = v.capacity
    · rw [Fits, if_pos full]
      rw [if_pos full] at size capacity
      cases outcome with
      | none =>
        -- The size has grown, and nothing has been pushed.
        have grown : growUp v none = v := rfl
        rw [if_pos ⟨full, rfl⟩] at events
        rw [← events, List.append_nil, ← contains.size, size, grown, UInt64.toNat_add,
          UInt64.toNat_one] at counted
        have bound := v.size.toNat_lt
        omega
      | some malloc =>
        have small := contains.small_of_full sized full
        obtain ⟨length, bytes⟩ := sized.exact small
        rw [if_neg (by simp)] at events
        have grown : (growUp v (some malloc)).size = v.size := rfl
        have doubled : (growUp v (some malloc)).capacity = v.capacity * 2 := rfl
        rw [← events, sinceClear_append_pushed, List.length_append, ← contains.size,
          List.length_singleton, size, grown, UInt64.toNat_add, UInt64.toNat_one] at counted
        have within : (v.size + 1).toNat ≤ (v.capacity * 2).toNat := by
          have le := after.within
          rw [size, capacity, grown, doubled] at le
          exact le
        rw [UInt64.toNat_add, UInt64.toNat_one, counted, full, UInt64.toNat_mul] at within
        have two : (2 : UInt64).toNat = 2 := rfl
        rw [two] at within
        have bound := v.capacity.toNat_lt
        have twice : 2 * v.capacity.toNat < 2 ^ 64 := by omega
        refine ⟨rfl, twice, ?_⟩
        -- A byte count that wraps gives a block that is smaller than the old one.
        by_contra large
        have asked : (v.capacity * v.elemSize * 2).toNat < v.data.length := by
          rw [UInt64.toNat_mul, UInt64.toNat_mul, sized.same, Nat.mod_mul_mod, two, ← length]
          rw [Nat.mul_assoc, ← length] at large
          omega
        have outside := pushBack_outside (if_pos full : _ = growUp v (some malloc)) sized.same
          (by rw [grown, full]; exact bytes) val (by
            have shrunk : (growUp v (some malloc)).data.length =
                (v.capacity * v.elemSize * 2).toNat := by
              simp only [growUp, realloc, Option.map_some, List.length_append, List.length_take,
                malloc.length_fresh]
              omega
            rw [shrunk, grown, full, Nat.add_mul, ← length]
            omega)
        rw [outside] at pushed
        cases pushed
    · rw [Fits, if_neg full]
      by_contra unfit
      obtain ⟨large, short⟩ := not_or.mp unfit
      rw [Nat.not_le, ← (sized.wrapped (Nat.not_lt.mp large)).2] at short
      have inside := contains.inside
      have bound := sized.length_lt
      have outside := pushBack_outside (if_neg full : (if v.size = v.capacity then growUp v outcome
        else v) = v) sized.same (by omega) val short
      rw [outside] at pushed
      cases pushed

end Call

/-! ### Runs -/

theorem init_sized (malloc : Allocator) : Sized elemSize (tsVectorInit elemSize malloc) := by
  have asked : (initialCapacity * elemSize).toNat = 8 * elemSize.toNat % 2 ^ 64 := by
    rw [initialCapacity, UInt64.toNat_mul]
    rfl
  have positive : 0 < initialCapacity.toNat := by decide
  refine ⟨rfl, positive, ?_, ?_⟩
  · intro small
    refine ⟨?_, small⟩
    rw [tsVectorInit, malloc.length_fresh, asked, Nat.mod_eq_of_lt small]
    rfl
  · intro _
    exact ⟨rfl, by rw [tsVectorInit, malloc.length_fresh, asked]⟩

/-- From a vector that contains what has been pushed, the calls keep that up exactly as long as
they fit. -/
theorem replay_contains_iff {v : TsVector} {trace : List (VectorEvent elemSize)}
    (sized : Sized elemSize v) (contains : Contains v (sinceClear trace))
    (calls : List (VectorCall elemSize)) :
    (∀ first, first <+: calls → ∃ later last, Run.replay TsVector.call v first = some (later, last) ∧
      Contains last (sinceClear (trace ++ later))) ↔ Run.Meets TsVector.call Fits v calls := by
  induction calls generalizing v trace with
  | nil =>
    constructor
    · intro _
      trivial
    · intro _ first isPrefix
      rw [List.prefix_nil.mp isPrefix]
      exact ⟨[], v, rfl, by rwa [List.append_nil]⟩
  | cons call calls ih =>
    constructor
    · intro keeps
      -- The call alone shows that it fits, and with the others behind it, that they do.
      obtain ⟨did, v', taken, after⟩ : ∃ did v', v.call call = some (did, some v') ∧
          Contains v' (sinceClear (trace ++ did)) := by
        obtain ⟨later, last, ran, after⟩ := keeps [call] (by simp)
        simp only [Run.replay] at ran
        split at ran
        next did v' taken =>
          cases ran
          rw [List.append_nil] at after
          exact ⟨did, v', taken, after⟩
        next => cases ran
      have fits := fits_of_call sized contains call taken after
      obtain ⟨did', v'', taken', sized', _⟩ := call_of_fits sized contains call fits
      rw [taken] at taken'
      cases taken'
      refine ⟨fits, ?_⟩
      rw [taken]
      apply (ih sized' after).mp
      intro first isPrefix
      obtain ⟨later, last, ran, contained⟩ :=
        keeps (call :: first) (List.cons_prefix_cons.mpr ⟨rfl, isPrefix⟩)
      simp only [Run.replay, taken] at ran
      obtain ⟨⟨rest, last'⟩, inner, same⟩ := Option.map_eq_some_iff.mp ran
      cases same
      rw [← List.append_assoc] at contained
      exact ⟨rest, _, inner, contained⟩
    · rintro ⟨fits, rest⟩ first isPrefix
      obtain ⟨did, v', taken, sized', contains'⟩ := call_of_fits sized contains call fits
      rw [taken] at rest
      cases first with
      | nil => exact ⟨[], v, rfl, by rwa [List.append_nil]⟩
      | cons call' first =>
        obtain ⟨rfl, inner⟩ := List.cons_prefix_cons.mp isPrefix
        obtain ⟨later, last, ran, contained⟩ := (ih sized' contains').mpr rest first inner
        refine ⟨did ++ later, last, ?_, by rwa [← List.append_assoc]⟩
        simp only [Run.replay, taken, ran, Option.map_some]

/-- A vector keeps its elements and its bounds if and only if every call fits. -/
theorem keepsElements_iff (malloc : Allocator) (calls : List (VectorCall elemSize)) :
    KeepsElements malloc calls ↔
      Run.Meets TsVector.call Fits (tsVectorInit elemSize malloc) calls := by
  have empty : Contains (tsVectorInit elemSize malloc)
      (sinceClear ([] : List (VectorEvent elemSize))) :=
    ⟨UInt64.zero_le, rfl, List.nil_prefix⟩
  exact replay_contains_iff (init_sized malloc) empty calls

/-- Nine pushes of one byte, where `realloc` fails: the ninth is written behind the block. -/
theorem not_keepsElements_of_failed_realloc :
    ¬KeepsElements zeroedMemory (List.replicate 9 (.pushBack ⟨[7], rfl⟩ none : VectorCall 1)) := by
  intro keeps
  obtain ⟨trace, v, ran, _⟩ := keeps _ List.prefix_rfl
  have faults : Run.replay TsVector.call (tsVectorInit 1 zeroedMemory)
      (List.replicate 9 (.pushBack ⟨[7], rfl⟩ none : VectorCall 1)) = none := rfl
  rw [faults] at ran
  cases ran

end AcosChat

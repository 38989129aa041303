import Mathlib.Data.Multiset.Range
import Mathlib.Data.Multiset.UnionInter
import Mathlib.Algebra.Order.Group.Multiset
import Mathlib.Logic.Function.Basic

/-!
# Stores of records

A heap of equal records, with allocation and release. Ownership is a multiset of cells:
`Owns` says that these cells are exactly what is allocated, so a step is specified by the
cells that it replaces, and what it leaves alone is a variable of the statement.
-/
structure Store (ν : Type) where
  cells : Nat → Option ν
  /-- Addresses from here on have never been given out. -/
  next : Nat

namespace Store

variable {ν : Type}

/-- A pointer; the null pointer is `none`. -/
abbrev Ptr := Option Nat

def empty : Store ν := ⟨fun _ => none, 0⟩

def read (s : Store ν) (a : Nat) : Option ν := s.cells a

/-- A write to a cell that is not allocated is `none`. -/
def modify (s : Store ν) (a : Nat) (f : ν → ν) : Option (Store ν) :=
  (s.cells a).map fun record => { s with cells := Function.update s.cells a (some (f record)) }

def alloc (s : Store ν) (record : ν) : Nat × Store ν :=
  (s.next, ⟨Function.update s.cells s.next (some record), s.next + 1⟩)

/-- The release of a cell that is not allocated is `none`. -/
def free (s : Store ν) (a : Nat) : Option (Store ν) :=
  (s.cells a).map fun _ => { s with cells := Function.update s.cells a none }

theorem read_alloc (s : Store ν) (record : ν) (b : Nat) :
    (s.alloc record).2.read b = if b = s.next then some record else s.read b := by
  by_cases same : b = s.next
  · subst same
    simp [alloc, read]
  · simp [alloc, read, same]

theorem modify_eq_some {s s' : Store ν} {a : Nat} {f : ν → ν} (ran : s.modify a f = some s') :
    ∃ record, s.read a = some record ∧ s'.next = s.next ∧
      ∀ b, s'.read b = if b = a then some (f record) else s.read b := by
  obtain ⟨record, there, rfl⟩ := Option.map_eq_some_iff.mp ran
  refine ⟨record, there, rfl, ?_⟩
  intro b
  by_cases same : b = a
  · subst same
    simp [read]
  · simp [read, same]

theorem free_eq_some {s s' : Store ν} {a : Nat} (ran : s.free a = some s') :
    ∃ record, s.read a = some record ∧ s'.next = s.next ∧
      ∀ b, s'.read b = if b = a then none else s.read b := by
  obtain ⟨record, there, rfl⟩ := Option.map_eq_some_iff.mp ran
  refine ⟨record, there, rfl, ?_⟩
  intro b
  by_cases same : b = a
  · subst same
    simp [read]
  · simp [read, same]

/-- The allocated cells are exactly these, each at its own address. -/
structure Owns (s : Store ν) (owned : Multiset (Nat × ν)) : Prop where
  exact : ∀ a record, (a, record) ∈ owned ↔ s.cells a = some record
  nodup : (owned.map Prod.fst).Nodup
  bounded : ∀ a record, s.cells a = some record → a < s.next

theorem owns_empty : Owns (Store.empty : Store ν) 0 :=
  ⟨fun _ _ => by simp [Store.empty], by simp, fun _ _ there => by cases there⟩

namespace Owns

variable {s : Store ν} {owned rest : Multiset (Nat × ν)} {a : Nat} {record : ν}

/-- The order of the cells does not matter. -/
theorem of_eq {o : Multiset (Nat × ν)} (owns : Owns s owned) (same : owned = o) : Owns s o :=
  same ▸ owns

theorem read (owns : Owns s owned) (member : (a, record) ∈ owned) : s.read a = some record :=
  (owns.exact a record).mp member

/-- The address of an owned cell occurs nowhere else. -/
theorem not_mem (owns : Owns s ({(a, record)} + rest)) (other : ν) : (a, other) ∉ rest := by
  intro member
  have distinct := owns.nodup
  rw [Multiset.map_add, Multiset.map_singleton, Multiset.singleton_add, Multiset.nodup_cons] at distinct
  exact distinct.1 (Multiset.mem_map.mpr ⟨(a, other), member, rfl⟩)

theorem modify (owns : Owns s ({(a, record)} + rest)) (f : ν → ν) :
    ∃ s', s.modify a f = some s' ∧ s'.next = s.next ∧ Owns s' ({(a, f record)} + rest) := by
  have there : s.cells a = some record := owns.read (by simp)
  refine ⟨{ s with cells := Function.update s.cells a (some (f record)) },
    by rw [Store.modify, there, Option.map_some], rfl, ?_⟩
  constructor
  · intro b other
    by_cases same : b = a
    · subst same
      have elsewhere := owns.not_mem other
      simp [elsewhere, eq_comm]
    · have before := owns.exact b other
      simpa [same] using before
  · simpa using owns.nodup
  · intro b other found
    by_cases same : b = a
    · exact same ▸ owns.bounded a record there
    · exact owns.bounded b other (by simpa [same] using found)

theorem alloc (owns : Owns s owned) (record : ν) :
    (s.alloc record).1 = s.next ∧ (s.alloc record).2.next = s.next + 1 ∧
      Owns (s.alloc record).2 ({(s.next, record)} + owned) := by
  have fresh : ∀ other, (s.next, other) ∉ owned := by
    intro other member
    have bound := owns.bounded s.next other ((owns.exact s.next other).mp member)
    omega
  refine ⟨rfl, rfl, ?_, ?_, ?_⟩
  · intro b other
    by_cases same : b = s.next
    · subst same
      simp [Store.alloc, fresh other, eq_comm]
    · have before := owns.exact b other
      simpa [Store.alloc, same] using before
  · rw [Multiset.map_add, Multiset.map_singleton, Multiset.singleton_add, Multiset.nodup_cons]
    refine ⟨?_, owns.nodup⟩
    intro member
    obtain ⟨⟨b, other⟩, there, rfl⟩ := Multiset.mem_map.mp member
    exact fresh other there
  · intro b other found
    by_cases same : b = s.next
    · subst same
      exact Nat.lt_succ_self _
    · exact Nat.lt_succ_of_lt (owns.bounded b other (by simpa [Store.alloc, same] using found))

theorem free (owns : Owns s ({(a, record)} + rest)) :
    ∃ s', s.free a = some s' ∧ s'.next = s.next ∧ Owns s' rest := by
  have there : s.cells a = some record := owns.read (by simp)
  refine ⟨{ s with cells := Function.update s.cells a none },
    by rw [Store.free, there, Option.map_some], rfl, ?_⟩
  constructor
  · intro b other
    by_cases same : b = a
    · subst same
      simp [owns.not_mem other]
    · have before := owns.exact b other
      simpa [same] using before
  · have distinct := owns.nodup
    rw [Multiset.map_add, Multiset.map_singleton, Multiset.singleton_add, Multiset.nodup_cons]
      at distinct
    exact distinct.2
  · intro b other found
    by_cases same : b = a
    · simp [same] at found
    · exact owns.bounded b other (by simpa [same] using found)

/-- There are at most as many cells as addresses have been given out. -/
theorem card_le (owns : Owns s owned) : owned.card ≤ s.next := by
  have inside : owned.map Prod.fst ≤ Multiset.range s.next := by
    rw [Multiset.le_iff_subset owns.nodup]
    intro b member
    obtain ⟨⟨b, other⟩, there, rfl⟩ := Multiset.mem_map.mp member
    exact Multiset.mem_range.mpr (owns.bounded b other ((owns.exact b other).mp there))
  simpa using Multiset.card_le_card inside

/-- What a step leaves alone reads as before. -/
theorem frame {s' : Store ν} {owned' : Multiset (Nat × ν)} (owns : Owns s (owned + rest))
    (owns' : Owns s' (owned' + rest)) (outside : a ∉ owned.map Prod.fst)
    (outside' : a ∉ owned'.map Prod.fst) : s'.read a = s.read a := by
  have notIn : ∀ record, (a, record) ∉ owned := fun record member =>
    outside (Multiset.mem_map_of_mem Prod.fst member)
  have notIn' : ∀ record, (a, record) ∉ owned' := fun record member =>
    outside' (Multiset.mem_map_of_mem Prod.fst member)
  apply Option.ext
  intro record
  have now := owns'.exact a record
  have before := owns.exact a record
  simp only [Multiset.mem_add, notIn, notIn', false_or] at now before
  exact now.symm.trans before

end Owns

/-! ### All cells of a store -/

/-- Every allocated address has been given out. -/
def Bounded (s : Store ν) : Prop := ∀ a record, s.cells a = some record → a < s.next

def allCells (s : Store ν) : Multiset (Nat × ν) :=
  (Multiset.range s.next).filterMap fun a => (s.cells a).map (Prod.mk a)

theorem mem_allCells {s : Store ν} (bounded : Bounded s) (a : Nat) (record : ν) :
    (a, record) ∈ s.allCells ↔ s.cells a = some record := by
  simp only [allCells, Multiset.mem_filterMap, Multiset.mem_range, Option.map_eq_some_iff,
    Prod.mk.injEq]
  constructor
  · rintro ⟨b, _, record', there, rfl, rfl⟩
    exact there
  · intro there
    exact ⟨a, bounded a record there, record, there, rfl, rfl⟩

theorem owns_allCells {s : Store ν} (bounded : Bounded s) : Owns s s.allCells := by
  refine ⟨mem_allCells bounded, ?_, bounded⟩
  -- An address has one record, so the cells are as distinct as the addresses.
  apply Multiset.Nodup.map_on
  · rintro ⟨a, record⟩ there ⟨b, other⟩ there' same
    rw [mem_allCells bounded] at there there'
    simp only at same
    subst same
    rw [there, Option.some.injEq] at there'
    rw [there']
  · refine Multiset.Nodup.filterMap _ ?_ (Multiset.nodup_range s.next)
    intro a b cell inA inB
    obtain ⟨_, _, rfl⟩ := Option.map_eq_some_iff.mp inA
    obtain ⟨_, _, same⟩ := Option.map_eq_some_iff.mp inB
    exact congrArg Prod.fst same.symm

/-- Distinct cells of a store are some of those that it owns. -/
theorem exists_owns {s : Store ν} (bounded : Bounded s) {owned : Multiset (Nat × ν)}
    (there : ∀ a record, (a, record) ∈ owned → s.cells a = some record)
    (nodup : (owned.map Prod.fst).Nodup) : ∃ rest, Owns s (owned + rest) := by
  have inside : owned ≤ s.allCells := by
    rw [Multiset.le_iff_subset nodup.of_map]
    rintro ⟨a, record⟩ member
    exact (mem_allCells bounded a record).mpr (there a record member)
  obtain ⟨rest, parts⟩ := Multiset.le_iff_exists_add.mp inside
  exact ⟨rest, parts ▸ owns_allCells bounded⟩

end Store

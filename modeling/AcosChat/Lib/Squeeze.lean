import Mathlib.Data.List.Destutter
import Mathlib.Data.List.DropRight

/-!
# Squeezing repetitions out of a list

One pass with a memory of one element: an element that equals the one before it is dropped,
where a predicate says so. Since the one before it is equal to the last that was kept, this is
`List.destutter'` for a relation that depends on the predicate.
-/
namespace Squeeze

variable {β : Type} [DecidableEq β] {drops : β → Bool}

/-- The list without the elements that repeat the one before them, the first of which is `prev`. -/
def squeeze (drops : β → Bool) : β → List β → List β
  | _, [] => []
  | prev, x :: xs =>
    if x = prev ∧ drops prev then squeeze drops x xs else x :: squeeze drops x xs

/-- Nothing repeats the element before it, where repetitions are dropped. -/
def Tight (drops : β → Bool) (xs : List β) : Prop := xs.IsChain fun a b => b = a → drops a = false

@[simp] theorem squeeze_nil (prev : β) : squeeze drops prev [] = [] := rfl

theorem squeeze_cons_drop {prev : β} (dropped : drops prev) (xs : List β) :
    squeeze drops prev (prev :: xs) = squeeze drops prev xs := by
  simp [squeeze, dropped]

theorem squeeze_cons_keep {prev x : β} (keeps : x = prev → drops prev = false) (xs : List β) :
    squeeze drops prev (x :: xs) = x :: squeeze drops x xs := by
  have kept : ¬(x = prev ∧ drops prev) := by
    rintro ⟨same, dropped⟩
    rw [keeps same] at dropped
    cases dropped
  rw [squeeze, if_neg kept]

/-- An element is dropped, or kept. -/
theorem drop_or_keep (drops : β → Bool) (prev x : β) :
    (x = prev ∧ drops prev = true) ∨ (x = prev → drops prev = false) := by
  by_cases same : x = prev
  · cases held : drops prev
    · exact .inr fun _ => rfl
    · exact .inl ⟨same, rfl⟩
  · exact .inr fun same' => absurd same' same

/-- The memory is the last element that was kept, or equal to it. -/
theorem cons_squeeze (prev : β) (xs : List β) :
    prev :: squeeze drops prev xs = xs.destutter' (fun a b => b = a → drops a = false) prev := by
  induction xs generalizing prev with
  | nil => rfl
  | cons x xs ih =>
    rcases drop_or_keep drops prev x with ⟨rfl, dropped⟩ | keeps
    · have repeats : ¬(x = x → drops x = false) := fun keeps => by
        rw [keeps rfl] at dropped
        cases dropped
      rw [squeeze_cons_drop dropped, List.destutter'_cons_neg _ repeats, ih x]
    · rw [squeeze_cons_keep keeps, List.destutter'_cons_pos _ keeps, ih x]

theorem squeeze_sublist (prev : β) (xs : List β) : (squeeze drops prev xs).Sublist xs := by
  have within := xs.destutter'_sublist (fun a b => b = a → drops a = false) prev
  rw [← cons_squeeze] at within
  exact List.cons_sublist_cons.mp within

theorem tight_squeeze (prev : β) (xs : List β) : Tight drops (prev :: squeeze drops prev xs) := by
  rw [cons_squeeze]
  exact List.isChain_destutter' _ xs prev

theorem squeeze_of_tight {prev : β} {xs : List β} (tight : Tight drops (prev :: xs)) :
    squeeze drops prev xs = xs := by
  have same := List.destutter'_of_isChain_cons _ _ tight
  rw [← cons_squeeze] at same
  exact List.tail_eq_of_cons_eq same

/-- Everything is dropped exactly where everything is the element before. -/
theorem squeeze_eq_nil_iff {prev : β} (dropped : drops prev) (xs : List β) :
    squeeze drops prev xs = [] ↔ ∃ n, xs = List.replicate n prev := by
  induction xs with
  | nil => exact ⟨fun _ => ⟨0, rfl⟩, fun _ => rfl⟩
  | cons x xs ih =>
    constructor
    · intro empty
      rcases drop_or_keep drops prev x with ⟨rfl, _⟩ | keeps
      · rw [squeeze_cons_drop dropped] at empty
        obtain ⟨n, rfl⟩ := ih.mp empty
        exact ⟨n + 1, rfl⟩
      · rw [squeeze_cons_keep keeps] at empty
        cases empty
    · rintro ⟨n, same⟩
      cases n with
      | zero => cases same
      | succ n =>
        rw [List.replicate_succ, List.cons.injEq] at same
        obtain ⟨rfl, rest⟩ := same
        rw [squeeze_cons_drop dropped]
        exact ih.mpr ⟨n, rest⟩

/-- One element is left of its repetitions behind those of the element before. -/
theorem squeeze_eq_singleton_iff {prev x : β} (dropped : drops prev) (dropped' : drops x)
    (other : x ≠ prev) (xs : List β) : squeeze drops prev xs = [x] ↔
      ∃ n m, xs = List.replicate n prev ++ List.replicate (m + 1) x := by
  have keeps : x = prev → drops prev = false := fun same => absurd same other
  induction xs with
  | nil =>
    constructor
    · intro single
      cases single
    · rintro ⟨n, m, same⟩
      have length := congrArg List.length same
      simp at length
  | cons y xs ih =>
    constructor
    · intro single
      rcases drop_or_keep drops prev y with ⟨rfl, _⟩ | keeps'
      · rw [squeeze_cons_drop dropped] at single
        obtain ⟨n, m, rfl⟩ := ih.mp single
        exact ⟨n + 1, m, rfl⟩
      · rw [squeeze_cons_keep keeps', List.cons.injEq] at single
        obtain ⟨rfl, empty⟩ := single
        obtain ⟨m, rfl⟩ := (squeeze_eq_nil_iff dropped' xs).mp empty
        exact ⟨0, m, rfl⟩
    · rintro ⟨n, m, same⟩
      cases n with
      | zero =>
        rw [List.replicate_zero, List.nil_append, List.replicate_succ, List.cons.injEq] at same
        obtain ⟨rfl, rfl⟩ := same
        rw [squeeze_cons_keep keeps, (squeeze_eq_nil_iff dropped' _).mpr ⟨m, rfl⟩]
      | succ n =>
        rw [List.replicate_succ, List.cons_append, List.cons.injEq] at same
        obtain ⟨rfl, rest⟩ := same
        rw [squeeze_cons_drop dropped]
        exact ih.mpr ⟨n, m, rest⟩

/-- A repetition of one element at the end leaves it there once. -/
theorem squeeze_append_replicate (prev x : β) (xs : List β) (n : Nat) (dropped : drops x) :
    squeeze drops prev (xs ++ List.replicate n x) = squeeze drops prev xs ∨
      squeeze drops prev (xs ++ List.replicate n x) = squeeze drops prev xs ++ [x] := by
  induction xs generalizing prev with
  | nil =>
    -- Behind itself, the element is always dropped.
    have gone : ∀ n, squeeze drops x (List.replicate n x) = [] := fun n =>
      (squeeze_eq_nil_iff dropped _).mpr ⟨n, rfl⟩
    cases n with
    | zero => exact .inl rfl
    | succ n =>
      rcases drop_or_keep drops prev x with ⟨rfl, _⟩ | keeps
      · exact .inl (gone (n + 1))
      · right
        rw [List.nil_append, List.replicate_succ, squeeze_cons_keep keeps, gone, squeeze_nil,
          List.nil_append]
  | cons y xs ih =>
    rcases drop_or_keep drops prev y with ⟨rfl, held⟩ | keeps
    · rw [List.cons_append, squeeze_cons_drop held, squeeze_cons_drop held]
      exact ih y
    · rw [List.cons_append, squeeze_cons_keep keeps, squeeze_cons_keep keeps]
      rcases ih y with same | more
      · exact .inl (by rw [same])
      · exact .inr (by rw [more, List.cons_append])

/-- What a filter lets through is kept if and only if none of it is dropped. -/
theorem filter_squeeze_eq_iff (keep : β → Bool) (prev : β) (xs : List β) :
    (squeeze drops prev xs).filter keep = xs.filter keep ↔
      (prev :: xs).IsChain fun a b => b = a → keep b → drops a = false := by
  induction xs generalizing prev with
  | nil => simp
  | cons x xs ih =>
    rw [List.isChain_cons_cons]
    rcases drop_or_keep drops prev x with ⟨rfl, dropped⟩ | keeps
    · rw [squeeze_cons_drop dropped]
      cases visible : keep x
      · rw [List.filter_cons_of_neg (by simp [visible]), ih x]
        simp
      · -- One element fewer comes through.
        have fewer : ((squeeze drops x xs).filter keep).length ≤ (xs.filter keep).length :=
          ((squeeze_sublist x xs).filter keep).length_le
        constructor
        · intro same
          rw [same, List.filter_cons_of_pos visible, List.length_cons] at fewer
          omega
        · rintro ⟨kept, _⟩
          rw [kept rfl rfl] at dropped
          cases dropped
    · rw [squeeze_cons_keep keeps]
      cases visible : keep x
      · rw [List.filter_cons_of_neg (by simp [visible]), List.filter_cons_of_neg (by simp [visible]),
          ih x]
        simp
      · rw [List.filter_cons_of_pos visible, List.filter_cons_of_pos visible, List.cons_inj_right,
          ih x]
        simp only [iff_and_self]
        exact fun _ same _ => keeps same

end Squeeze

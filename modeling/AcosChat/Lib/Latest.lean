import Mathlib.Data.List.Sort

/-!
# The latest of a list

The greatest elements of a list, up to a limit, in ascending order: the list is sorted in
descending order, cut off, and sorted again.
-/
namespace Latest

variable {α β : Type} (le : α → α → Bool) (limit : Nat) (xs : List α)

def latest : List α := ((xs.mergeSort fun x y => le y x).take limit).mergeSort le

/-- What the limit cuts off. -/
def omitted : List α := (xs.mergeSort fun x y => le y x).drop limit

theorem latest_append_omitted : (latest le limit xs ++ omitted le limit xs).Perm xs := by
  have sorted := List.mergeSort_perm ((xs.mergeSort fun x y => le y x).take limit) le
  apply (sorted.append_right _).trans
  rw [omitted, List.take_append_drop]
  exact List.mergeSort_perm xs _

theorem length_latest : (latest le limit xs).length = min limit xs.length := by
  rw [latest, List.length_mergeSort, List.length_take, List.length_mergeSort]

variable {le} (trans : ∀ x y z, le x y = true → le y z = true → le x z = true)
  (total : ∀ x y, (le x y || le y x) = true)

include trans total

theorem pairwise_latest : (latest le limit xs).Pairwise fun x y => le x y = true :=
  List.pairwise_mergeSort trans total _

/-- Nothing that is cut off is greater than something that is kept. -/
theorem omitted_le_latest {x y : α} (cut : x ∈ omitted le limit xs) (kept : y ∈ latest le limit xs) :
    le x y = true := by
  have sorted := @List.pairwise_mergeSort _ (fun x y => le y x) (fun x y z first second => trans z y x second first)
    (fun x y => total y x) xs
  rw [← List.take_append_drop limit (xs.mergeSort fun x y => le y x), List.pairwise_append] at sorted
  exact sorted.2.2 y ((List.mergeSort_perm _ _).mem_iff.mp kept) x cut

omit trans total

/-- Elements with equal keys are sorted alike. -/
theorem map_latest {le' : β → β → Bool} (f : α → β) (same : ∀ x y, le x y = le' (f x) (f y)) :
    (latest le limit xs).map f = latest le' limit (xs.map f) := by
  have descending := @List.map_mergeSort _ _ (fun x y => le y x) (fun x y => le' y x) f xs fun x _ y _ => same y x
  rw [latest, List.map_mergeSort fun x _ y _ => same x y, List.map_take, descending, latest]

end Latest

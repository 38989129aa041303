import Mathlib

/-!
# Ordered finite maps and their lists

The list of a map is the only one that is in strictly increasing order of the keys and has
the entries of the map.
-/
namespace OrderedMap

open Std

variable {κ β : Type} [Ord κ] [TransOrd κ] [LawfulEqOrd κ]

/-- The entries of a list are those of a map. -/
def Enumerates (entries : List (κ × β)) (m : ExtTreeMap κ β) : Prop :=
  ∀ key value, m[key]? = some value ↔ (key, value) ∈ entries

def Increasing (entries : List (κ × β)) : Prop :=
  entries.Pairwise fun x y => compare x.1 y.1 = .lt

omit [LawfulEqOrd κ] in
theorem Increasing.nodup {entries : List (κ × β)} (increasing : Increasing entries) :
    entries.Nodup := by
  apply List.Pairwise.imp _ increasing
  rintro x y less rfl
  have same : compare x.1 x.1 = .eq := ReflCmp.compare_self
  rw [same] at less
  cases less

theorem toList_eq {entries : List (κ × β)} {m : ExtTreeMap κ β} (increasing : Increasing entries)
    (enumerates : Enumerates entries m) : m.toList = entries := by
  have ordered : Increasing m.toList := ExtTreeMap.ordered_keys_toList
  apply List.Perm.eq_of_pairwise _ ordered increasing
  · rw [List.perm_ext_iff_of_nodup ordered.nodup increasing.nodup]
    rintro ⟨key, value⟩
    rw [ExtTreeMap.mem_toList_iff_getElem?_eq_some, enumerates]
  · intro x y _ _ less greater
    rw [OrientedCmp.gt_of_lt less] at greater
    cases greater

theorem Enumerates.size_eq {entries : List (κ × β)} {m : ExtTreeMap κ β} (enumerates : Enumerates entries m)
    (increasing : Increasing entries) : m.size = entries.length := by
  rw [← ExtTreeMap.length_toList, toList_eq increasing enumerates]

omit [LawfulEqOrd κ] in
theorem Enumerates.getElem?_eq_none {entries : List (κ × β)} {m : ExtTreeMap κ β}
    (enumerates : Enumerates entries m) {key : κ} (missing : ∀ x ∈ entries, x.1 ≠ key) : m[key]? = none := by
  cases found : m[key]? with
  | none => rfl
  | some value => exact absurd rfl (missing _ ((enumerates key value).mp found))

end OrderedMap

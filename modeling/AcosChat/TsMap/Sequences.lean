import AcosChat.TsMap.Shape

/-!
# The laws of ordered sequences

What `find`, `split` and `merge` do to well-formed trees, in terms of their sequences: a
search ends next to the key, a split takes the sequence apart at the key, and a merge puts
two sequences together again.
-/
namespace AcosChat.TsMap

open Store BinaryTree

variable {α : Type} {h : Heap α}

/-! ### `find` -/

/-- An entry with the key, or the one next to the key where no entry has it. -/
inductive Neighbour (key : UInt64) (entries : List (Entry α)) (e : Entry α) : Prop
  | found (same : e.key = key)
  | predecessor (absent : ∀ x ∈ entries, x.key ≠ key) (less : e.key < key)
      (greatest : ∀ x ∈ entries, x.key < key → x.key ≤ e.key)
  | successor (absent : ∀ x ∈ entries, x.key ≠ key) (greater : key < e.key)
      (least : ∀ x ∈ entries, key < x.key → e.key ≤ x.key)

theorem Nearest.neighbour {key : UInt64} {e : Entry α} {l r : List (Entry α)}
    (nearest : Nearest key e l r) (sorted : Sorted (l ++ e :: r)) :
    Neighbour key (l ++ e :: r) e := by
  obtain ⟨less, greater⟩ := sorted_node sorted
  by_cases same : e.key = key
  · exact .found same
  have absent := nearest.absent sorted same
  cases nearest with
  | here found => exact .found found
  | below under behind =>
    -- Everything behind the root is beyond the key.
    refine .predecessor absent under ?_
    intro x member below
    rcases List.mem_append.mp member with member | member
    · exact UInt64.le_of_lt (less x member)
    rcases List.mem_cons.mp member with rfl | member
    · exact UInt64.le_refl _
    · exact absurd (UInt64.lt_trans below (behind x member)) (UInt64.lt_irrefl _)
  | beyond past front =>
    refine .successor absent past ?_
    intro x member above
    rcases List.mem_append.mp member with member | member
    · exact absurd (UInt64.lt_trans above (front x member)) (UInt64.lt_irrefl _)
    rcases List.mem_cons.mp member with rfl | member
    · exact UInt64.le_refl _
    · exact UInt64.le_of_lt (greater x member)

theorem find_neighbour {root : Ptr} {entries : List (Entry α)} (wf : WellFormed h root entries)
    (nonempty : entries ≠ []) (key : UInt64) :
    ∃ e h', find root key h = some (some e.addr, h') ∧ e ∈ entries ∧
      Neighbour key entries e ∧ WellFormed h' (some e.addr) entries := by
  obtain ⟨t, rest, rfl, rfl, owns⟩ := wf.owns
  cases t with
  | nil => exact absurd rfl nonempty
  | node x l r =>
    obtain ⟨h', e, l', r', ran, _, owns', same, nearest⟩ := find_spec key x l r rest owns wf.sorted
    have sorted' : Sorted (BinaryTree.node e l' r').inorder := same ▸ wf.sorted
    rw [← same]
    exact ⟨e, h', ran, by simp [inorder], nearest.neighbour sorted', wellFormed_of_owns owns' sorted'⟩

/-! ### `split` and `merge` -/

/-- A sequence that is in two parts around a key is filtered into them. -/
theorem filter_parts {front behind : List (Entry α)} {key : UInt64}
    (less : ∀ x ∈ front, x.key < key) (rest : ∀ x ∈ behind, key ≤ x.key) :
    (front ++ behind).filter (fun x => x.key < key) = front ∧
      (front ++ behind).filter (fun x => key ≤ x.key) = behind := by
  have apart : ∀ x ∈ behind, ¬x.key < key := fun x member => UInt64.not_lt.mpr (rest x member)
  have apart' : ∀ x ∈ front, ¬key ≤ x.key := fun x member => UInt64.not_le.mpr (less x member)
  constructor
  · rw [List.filter_append, List.filter_eq_self.mpr (by simpa using less),
      List.filter_eq_nil_iff.mpr (by simpa using apart), List.append_nil]
  · rw [List.filter_append, List.filter_eq_nil_iff.mpr (by simpa using apart'),
      List.filter_eq_self.mpr (by simpa using rest), List.nil_append]

/-- The entries of a sorted sequence below a key come before the others. -/
theorem filter_append_filter {entries : List (Entry α)} (sorted : Sorted entries) (key : UInt64) :
    entries.filter (fun x => x.key < key) ++ entries.filter (fun x => key ≤ x.key) = entries := by
  induction entries with
  | nil => rfl
  | cons e entries ih =>
    obtain ⟨greater, later⟩ := List.pairwise_cons.mp sorted
    by_cases below : e.key < key
    · simp [below, UInt64.not_le.mpr below, ih later]
    · have atLeast : key ≤ e.key := UInt64.not_lt.mp below
      -- Behind the first entry that is not below the key, none is.
      have none : ∀ x ∈ entries, ¬x.key < key := fun x member less =>
        below (UInt64.lt_trans (greater x member) less)
      have all : ∀ x ∈ entries, key ≤ x.key := fun x member => UInt64.not_lt.mp (none x member)
      rw [List.filter_cons_of_neg (by simpa using below), List.filter_cons_of_pos (by simpa using atLeast),
        List.filter_eq_nil_iff.mpr (by simpa using none), List.filter_eq_self.mpr (by simpa using all),
        List.nil_append]

theorem split_parts {root : Ptr} {entries : List (Entry α)} (wf : WellFormed h root entries)
    (key : UInt64) : ∃ left right h', split root key h = some (left, right, h') ∧
      WellFormed h' left (entries.filter fun x => x.key < key) ∧
      WellFormed h' right (entries.filter fun x => key ≤ x.key) := by
  obtain ⟨t, rest, rfl, rfl, owns⟩ := wf.owns
  obtain ⟨h', t₁, t₂, ran, _, owns', sequence, less, atLeast⟩ := split_spec key t rest owns wf.sorted
  obtain ⟨sorted₁, sorted₂, _⟩ := List.pairwise_append.mp (sequence ▸ wf.sorted)
  obtain ⟨front, behind⟩ := filter_parts less atLeast
  rw [sequence] at front behind
  refine ⟨rootPtr t₁, rootPtr t₂, h', ran, ?_, ?_⟩
  · rw [front]
    exact wellFormed_of_owns (owns'.of_eq (add_assoc _ _ _)) sorted₁
  · rw [behind]
    exact wellFormed_of_owns (owns'.of_eq (by rw [add_comm (cellsOf none t₁), add_assoc])) sorted₂

/-- Two trees on one heap, the keys of one below those of the other, share no node. -/
theorem WellFormed.owns_both {left right : Ptr} {front behind : List (Entry α)}
    (first : WellFormed h left front) (second : WellFormed h right behind)
    (ordered : ∀ x ∈ front, ∀ y ∈ behind, x.key < y.key) :
    ∃ t₁ t₂ rest, rootPtr t₁ = left ∧ rootPtr t₂ = right ∧ t₁.inorder = front ∧
      t₂.inorder = behind ∧ Owns h (cellsOf none t₁ + cellsOf none t₂ + rest) := by
  obtain ⟨t₁, start₁, sequence₁, cells₁⟩ := first.hangs.tree
  obtain ⟨t₂, start₂, sequence₂, cells₂⟩ := second.hangs.tree
  have sorted : Sorted (front ++ behind) :=
    List.pairwise_append.mpr ⟨first.sorted, second.sorted, ordered⟩
  -- the keys are distinct, and so the nodes are: the two trees share none
  have nodup : ((cellsOf none t₁ + cellsOf none t₂).map Prod.fst).Nodup := by
    rw [Multiset.map_add, addrs_cellsOf, addrs_cellsOf, sequence₁, sequence₂, Multiset.coe_add,
      ← List.map_append]
    apply Multiset.coe_nodup.mpr
    apply nodup_addrs (h := h) sorted
    intro e member
    rcases List.mem_append.mp member with member | member
    · exact first.hangs.read member
    · exact second.hangs.read member
  have there : ∀ a node, (a, node) ∈ cellsOf none t₁ + cellsOf none t₂ → h.cells a = some node := by
    intro a node member
    rcases Multiset.mem_add.mp member with member | member
    · exact cells₁ a node member
    · exact cells₂ a node member
  obtain ⟨rest, owns⟩ := exists_owns first.bounded there nodup
  exact ⟨t₁, t₂, rest, start₁, start₂, sequence₁, sequence₂, owns⟩

theorem merge_append {left right : Ptr} {front behind : List (Entry α)}
    (first : WellFormed h left front) (second : WellFormed h right behind)
    (ordered : ∀ x ∈ front, ∀ y ∈ behind, x.key < y.key) :
    ∃ root h', merge left right h = some (root, h') ∧ WellFormed h' root (front ++ behind) := by
  obtain ⟨t₁, t₂, rest, rfl, rfl, rfl, rfl, owns⟩ := first.owns_both second ordered
  obtain ⟨h', t, ran, _, owns', sequence⟩ := merge_spec t₁ t₂ rest owns first.sorted
  have sorted : Sorted t.inorder := by
    rw [sequence]
    exact List.pairwise_append.mpr ⟨first.sorted, second.sorted, ordered⟩
  exact ⟨rootPtr t, h', ran, sequence ▸ wellFormed_of_owns owns' sorted⟩

/-- On well-formed trees, `find` moves the entry with the key or next to it to the root, `split`
gives the trees of the entries below the key and of the others, `merge` gives the tree of two
sequences one behind the other, and merging what a split has left restores the sequence. -/
theorem ordered_sequence_laws {root : Ptr} {entries : List (Entry α)}
    (wf : WellFormed h root entries) (key : UInt64) :
    (entries ≠ [] → ∃ e h', find root key h = some (some e.addr, h') ∧ e ∈ entries ∧
      Neighbour key entries e ∧ WellFormed h' (some e.addr) entries) ∧
    (∃ left right h', split root key h = some (left, right, h') ∧
      WellFormed h' left (entries.filter fun x => x.key < key) ∧
      WellFormed h' right (entries.filter fun x => key ≤ x.key) ∧
      ∃ whole h'', merge left right h' = some (whole, h'') ∧ WellFormed h'' whole entries) ∧
    ∀ (other : Ptr) (behind : List (Entry α)), WellFormed h other behind →
      (∀ x ∈ entries, ∀ y ∈ behind, x.key < y.key) →
      ∃ whole h', merge root other h = some (whole, h') ∧ WellFormed h' whole (entries ++ behind) := by
  refine ⟨fun nonempty => find_neighbour wf nonempty key, ?_,
    fun other behind second ordered => merge_append wf second ordered⟩
  obtain ⟨left, right, h', ran, first, second⟩ := split_parts wf key
  have ordered : ∀ x ∈ entries.filter (fun x => x.key < key),
      ∀ y ∈ entries.filter (fun x => key ≤ x.key), x.key < y.key := by
    intro x inFront y inBehind
    have less : x.key < key := by simpa using (List.mem_filter.mp inFront).2
    have atLeast : key ≤ y.key := by simpa using (List.mem_filter.mp inBehind).2
    exact UInt64.lt_of_lt_of_le less atLeast
  obtain ⟨whole, h'', merged, restored⟩ := merge_append first second ordered
  rw [filter_append_filter wf.sorted] at restored
  exact ⟨left, right, h', ran, first, second, whole, h'', merged, restored⟩

/-- A key in a gap of the slope, with nothing to merge behind it. -/
theorem ordered_sequence_laws_slope :
    (∃ e h', find (some 2) 15 slope = some (some e.addr, h') ∧ e ∈ slopeEntries ∧
      Neighbour 15 slopeEntries e ∧ WellFormed h' (some e.addr) slopeEntries) ∧
    ∃ left right h', split (some 2) 15 slope = some (left, right, h') ∧
      WellFormed h' left [⟨0, 10, some 7⟩] ∧ WellFormed h' right [⟨1, 20, none⟩, ⟨2, 30, some 9⟩] ∧
      ∃ whole h'', merge left right h' = some (whole, h'') ∧ WellFormed h'' whole slopeEntries :=
  ⟨(ordered_sequence_laws slope_wellFormed 15).1 (by simp [slopeEntries]),
    (ordered_sequence_laws slope_wellFormed 15).2.1⟩

end AcosChat.TsMap

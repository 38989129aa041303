import AcosChat.TsMap.Splay

/-!
# Merging, splitting, adding and removing

Each function, in terms of the in-order sequences of the trees that it takes and leaves.
-/
namespace AcosChat.TsMap

open Store BinaryTree

variable {α σ : Type} {h : Heap α}

/-! ### `merge` -/

/-- The rightmost node of a subtree ends a path that has as much behind it as the subtree's. -/
theorem rightestFrom_spec (rest : Multiset (Nat × Node α)) (fuel : Nat) (path : Path α)
    (e : Entry α) (l r : Tree α) (enough : (BinaryTree.node e l r).numNodes ≤ fuel)
    (owns : Owns h (cellsOf none (plug path (.node e l r)) + rest)) :
    ∃ path' e' l', rightestFrom h fuel e.addr = some e'.addr ∧
      plug path' (.node e' l' .nil) = plug path (.node e l r) ∧ after path' = after path := by
  induction fuel generalizing path e l r with
  | zero => simp at enough
  | succ fuel ih =>
    have there := read_plug path .left e l r rest owns
    simp only [numNodes] at enough
    cases r with
    | nil => exact ⟨path, e, l, by simp [rightestFrom, there, record, rootPtr], rfl, rfl⟩
    | node x rl rr =>
      obtain ⟨path', e', l', ran, same, behind⟩ :=
        ih (⟨.right, e, l⟩ :: path) x rl rr (by omega) owns
      exact ⟨path', e', l', by simp [rightestFrom, there, record, rootPtr, ran], same, behind⟩

theorem merge_spec (t₁ t₂ : Tree α) (rest : Multiset (Nat × Node α))
    (owns : Owns h (cellsOf none t₁ + cellsOf none t₂ + rest)) (sorted : Sorted t₁.inorder) :
    ∃ h' t, merge (rootPtr t₁) (rootPtr t₂) h = some (rootPtr t, h') ∧ h'.next = h.next ∧
      Owns h' (cellsOf none t + rest) ∧ t.inorder = t₁.inorder ++ t₂.inorder := by
  cases t₁ with
  | nil => exact ⟨h, t₂, rfl, rfl, by simpa [cellsOf] using owns, by simp [inorder]⟩
  | node e l r =>
    cases t₂ with
    | nil => exact ⟨h, .node e l r, rfl, rfl, by simpa [cellsOf] using owns, by simp [inorder]⟩
    | node y yl yr =>
      rw [add_assoc] at owns
      have enough : (BinaryTree.node e l r).numNodes ≤ budget h := by
        have bound := numNodes_le_next _ owns
        unfold budget
        omega
      obtain ⟨path, x, xl, reached, same, behind⟩ :=
        rightestFrom_spec _ (budget h) [] e l r enough owns
      rw [plug] at same
      rw [← same] at owns sorted ⊢
      obtain ⟨h₁, ran₁, l₁, r₁, next₁, owns₁, sequence⟩ := splay_spec path x xl .nil _ owns
      -- nothing may hang on the right of the new root, or `connect_right` would lose it
      have last : (plug path (.node x xl .nil)).inorder = (before path ++ xl.inorder) ++ x :: [] := by
        rw [inorder_plug, behind]
        simp [inorder, after]
      have noRight : r₁ = .nil := by
        obtain ⟨_, right⟩ := sorted_sides (last ▸ sorted) (sequence.trans last)
        cases r₁ with
        | nil => rfl
        | node z zl zr => exact absurd (right z (by simp [inorder])) (by simp)
      subst noRight
      have owns₁ : Owns h₁ (cellsOf none (build .right x .nil l₁) + _) := owns₁
      rw [cellsOf_build] at owns₁
      obtain ⟨h₂, ran₂, next₂, owns₂⟩ := connect_tree .right x.addr _ (.node y yl yr) none
        (cellsOf (some x.addr) l₁ + rest) (owns₁.of_eq (by rw [cellsOf, Multiset.add_zero]; ac_rfl))
      rw [record_setSon] at owns₂
      obtain ⟨h₃, ran₃, next₃, owns₃⟩ := updateSize_spec .right x (.node y yl yr) l₁ none _ rest
        (owns₂.of_eq (by ac_rfl))
      refine ⟨h₃, .node x l₁ (.node y yl yr), ?_, next₃.trans (next₂.trans next₁), owns₃, ?_⟩
      · rw [rootPtr] at ran₂
        have start : rootPtr (plug path (.node x xl .nil)) = some e.addr := by rw [same, rootPtr]
        rw [start]
        simp [merge, rootPtr, rightest, reached, ran₁, connectRight, ran₂, ran₃]
      · rw [← sequence]
        simp [inorder, plug]

/-! ### `split` -/

theorem updateSize_same (t : Tree α) (parent : Ptr) (rest : Multiset (Nat × Node α))
    (owns : Owns h (cellsOf parent t + rest)) :
    ∃ h', updateSize (rootPtr t) h = some h' ∧ h'.next = h.next ∧
      Owns h' (cellsOf parent t + rest) := by
  cases t with
  | nil => exact ⟨h, rfl, rfl, owns⟩
  | node e l r => exact updateSize_spec .left e l r parent _ rest owns

theorem detach_spec (s : Side) (e : Entry α) (near far : Tree α) (rest : Multiset (Nat × Node α))
    (owns : Owns h (cellsOf none (build s e near far) + rest)) :
    ∃ size h', detach s e.addr h = some (rootPtr near, h') ∧ h'.next = h.next ∧
      Owns h' ({(e.addr, record s e (rootPtr (.nil : Tree α)) (rootPtr far) none size)} +
        cellsOf (some e.addr) (.nil : Tree α) + cellsOf (some e.addr) far +
        (cellsOf none near + rest)) := by
  have there := read_plug [] s e near far rest owns
  rw [cellsOf_build] at owns
  generalize near.numNodes + far.numNodes + 1 = size at owns there
  refine ⟨size, ?_⟩
  cases near with
  | nil =>
    refine ⟨h, ?_, rfl, owns.of_eq (by simp only [cellsOf, zero_add])⟩
    simp [detach, there, rootPtr]
  | node x l r =>
    obtain ⟨h₁, ran₁, next₁, owns₁⟩ := setParent_spec none (owns.of_eq (o :=
      cellsOf (some e.addr) (.node x l r) + ({(e.addr, record s e (some x.addr) (rootPtr far) none
        size)} + cellsOf (some e.addr) far + rest)) (by rw [rootPtr]; ac_rfl))
    rw [rootPtr] at ran₁ there
    obtain ⟨h₂, ran₂, next₂, owns₂⟩ := (owns₁.of_eq (o :=
      {(e.addr, record s e (some x.addr) (rootPtr far) none size)} + (cellsOf none (.node x l r) +
        cellsOf (some e.addr) far + rest)) (by ac_rfl)).modify (Node.setSon s none)
    rw [record_setSon] at owns₂
    refine ⟨h₂, ?_, next₂.trans next₁, owns₂.of_eq (by simp only [cellsOf, rootPtr]; ac_rfl)⟩
    simp [detach, there, rootPtr, ran₁, ran₂]

/-- The two trees that `split` leaves: what is below the key, and the rest. -/
def Splits (key : UInt64) (h : Heap α) (rest : Multiset (Nat × Node α)) (sequence : List (Entry α))
    (result : Option (Ptr × Ptr × Heap α)) : Prop :=
  ∃ h' t₁ t₂, result = some (rootPtr t₁, rootPtr t₂, h') ∧ h'.next = h.next ∧
    Owns h' (cellsOf none t₁ + cellsOf none t₂ + rest) ∧ t₁.inorder ++ t₂.inorder = sequence ∧
    (∀ x ∈ t₁.inorder, x.key < key) ∧ (∀ x ∈ t₂.inorder, key ≤ x.key)

/-- The part of `split` behind the call of `find`. -/
private theorem split_root (key : UInt64) (e : Entry α) (l r : Tree α)
    (rest : Multiset (Nat × Node α)) (owns : Owns h (cellsOf none (.node e l r) + rest))
    (sorted : Sorted (BinaryTree.node e l r).inorder)
    (nearest : Nearest key e l.inorder r.inorder) :
    Splits key h rest (BinaryTree.node e l r).inorder (do
      let (left, right, h) ← if e.key < key then do
          let (right, h) ← detach .right e.addr h
          some (some e.addr, right, h)
        else do
          let (left, h) ← detach .left e.addr h
          some (left, some e.addr, h)
      let h ← updateSize left h
      let h ← updateSize right h
      some (left, right, h)) := by
  obtain ⟨less, greater⟩ := sorted_node sorted
  -- The root that `find` leaves stays with the side that its key belongs to.
  by_cases below : e.key < key
  · obtain ⟨size, h₁, ran₁, next₁, owns₁⟩ := detach_spec .right e r l rest owns
    obtain ⟨h₂, ran₂, next₂, owns₂⟩ := updateSize_spec .right e .nil l none size _ owns₁
    obtain ⟨h₃, ran₃, next₃, owns₃⟩ := updateSize_same r none (cellsOf none (.node e l .nil) + rest)
      (owns₂.of_eq (by rw [build]; ac_rfl))
    refine ⟨h₃, .node e l .nil, r, ?_, next₃.trans (next₂.trans next₁), owns₃.of_eq (by ac_rfl), ?_,
      ?_, ?_⟩
    · simp [below, ran₁, ran₂, ran₃]
    · simp [inorder]
    · intro x member
      simp only [inorder, List.mem_append, List.mem_singleton] at member
      rcases member with member | rfl
      · exact UInt64.lt_trans (less x member) below
      · exact below
    · intro x member
      cases nearest with
      | here found => exact absurd (found ▸ below) (UInt64.lt_irrefl _)
      | below _ behind => exact UInt64.le_of_lt (behind x member)
      | beyond past _ => exact absurd (UInt64.lt_trans below past) (UInt64.lt_irrefl _)
  · obtain ⟨size, h₁, ran₁, next₁, owns₁⟩ := detach_spec .left e l r rest owns
    obtain ⟨h₂, ran₂, next₂, owns₂⟩ := updateSize_same l none _ (owns₁.of_eq (add_left_comm _ _ _))
    obtain ⟨h₃, ran₃, next₃, owns₃⟩ := updateSize_spec .left e .nil r none size
      (cellsOf none l + rest) (owns₂.of_eq (add_left_comm _ _ _))
    have atLeast : key ≤ e.key := UInt64.not_lt.mp below
    refine ⟨h₃, l, .node e .nil r, ?_, next₃.trans (next₂.trans next₁),
      owns₃.of_eq (by rw [build]; ac_rfl), ?_, ?_, ?_⟩
    · simp [below, ran₁, ran₂, ran₃]
    · simp [inorder]
    · intro x member
      cases nearest with
      | here found => exact found ▸ less x member
      | below under _ => exact absurd under below
      | beyond _ front => exact front x member
    · intro x member
      simp only [inorder, List.nil_append, List.mem_cons] at member
      rcases member with rfl | member
      · exact atLeast
      · exact UInt64.le_trans atLeast (UInt64.le_of_lt (greater x member))

theorem split_spec (key : UInt64) (t : Tree α) (rest : Multiset (Nat × Node α))
    (owns : Owns h (cellsOf none t + rest)) (sorted : Sorted t.inorder) :
    Splits key h rest t.inorder (split (rootPtr t) key h) := by
  cases t with
  | nil =>
    exact ⟨h, .nil, .nil, rfl, rfl, by simpa [cellsOf] using owns, rfl, by simp [inorder],
      by simp [inorder]⟩
  | node e l r =>
    obtain ⟨h₁, x, l₁, r₁, ran₁, next₁, owns₁, same, nearest⟩ := find_spec key e l r rest owns sorted
    have there := read_plug [] .left x l₁ r₁ rest owns₁
    obtain ⟨h₂, t₁, t₂, ran₂, next₂, owns₂, sequence, below, above⟩ :=
      split_root key x l₁ r₁ rest owns₁ (same ▸ sorted) nearest
    refine ⟨h₂, t₁, t₂, ?_, next₂.trans next₁, owns₂, sequence.trans same, below, above⟩
    rw [← ran₂]
    simp [split, rootPtr, ran₁, there]

/-! ### `add` and `remove` -/

/-- A root nearest to a key that it does not have proves the key absent. -/
theorem Nearest.absent {key : UInt64} {e : Entry α} {l r : List (Entry α)}
    (nearest : Nearest key e l r) (sorted : Sorted (l ++ e :: r)) (other : e.key ≠ key) :
    ∀ x ∈ l ++ e :: r, x.key ≠ key := by
  obtain ⟨less, greater⟩ := sorted_node sorted
  intro x member same
  subst same
  rcases List.mem_append.mp member with member | member
  · cases nearest with
    | here found => exact other found
    | below under _ => exact UInt64.lt_irrefl _ (UInt64.lt_trans under (less x member))
    | beyond _ front => exact UInt64.lt_irrefl _ (front x member)
  rcases List.mem_cons.mp member with rfl | member
  · exact other rfl
  · cases nearest with
    | here found => exact other found
    | below _ behind => exact UInt64.lt_irrefl _ (behind x member)
    | beyond past _ => exact UInt64.lt_irrefl _ (UInt64.lt_trans (greater x member) past)

/-- The sequence that `add` leaves. -/
inductive Adds (key : UInt64) (val : Option α) (sequence : List (Entry α)) :
    Bool → List (Entry α) → Prop
  | present (x : Entry α) (member : x ∈ sequence) (found : x.key = key) :
      Adds key val sequence false sequence
  | added (addr : Nat) (front behind : List (Entry α)) (parts : front ++ behind = sequence)
      (less : ∀ x ∈ front, x.key < key) (greater : ∀ x ∈ behind, key < x.key) :
      Adds key val sequence true (front ++ ⟨addr, key, val⟩ :: behind)

/-- A fresh record becomes the root above the two trees of a split. -/
private theorem join_spec (e : Entry α) (t₁ t₂ : Tree α) (node : Node α)
    (rest : Multiset (Nat × Node α))
    (owns : Owns h (cellsOf none t₁ + cellsOf none t₂ + ({(e.addr, node)} + rest))) :
    ∃ h', (do
      let h ← h.modify e.addr fun record =>
        { record with left := rootPtr t₁, right := rootPtr t₂, key := e.key, parent := none,
                      val := e.val }
      let h ← connectLeft (some e.addr) (rootPtr t₁) h
      let h ← connectRight (some e.addr) (rootPtr t₂) h
      updateSize (some e.addr) h) = some h' ∧ h'.next = h.next ∧
      Owns h' (cellsOf none (.node e t₁ t₂) + rest) := by
  obtain ⟨h₁, ran₁, next₁, owns₁⟩ := (owns.of_eq (add_left_comm _ _ _)).modify fun record =>
    { record with left := rootPtr t₁, right := rootPtr t₂, key := e.key, parent := none, val := e.val }
  have owns₁ : Owns h₁
      ({(e.addr, record .left e (rootPtr t₁) (rootPtr t₂) none node.size)} + _) := owns₁
  obtain ⟨h₂, ran₂, next₂, owns₂⟩ := connect_tree .left e.addr _ t₁ none (cellsOf none t₂ + rest)
    (owns₁.of_eq (by ac_rfl))
  obtain ⟨h₃, ran₃, next₃, owns₃⟩ := connect_tree .right e.addr _ t₂ none
    (cellsOf (some e.addr) t₁ + rest) (owns₂.of_eq (by ac_rfl))
  have owns₃ : Owns h₃
      ({(e.addr, record .left e (rootPtr t₁) (rootPtr t₂) none node.size)} + _ + _) := owns₃
  obtain ⟨h₄, ran₄, next₄, owns₄⟩ := updateSize_spec .left e t₁ t₂ none node.size rest
    (owns₃.of_eq (by ac_rfl))
  refine ⟨h₄, ?_, next₄.trans (next₃.trans (next₂.trans next₁)), owns₄⟩
  simp [ran₁, connectLeft, ran₂, connectRight, ran₃, ran₄]

theorem add_spec (key : UInt64) (val : Option α) (t : Tree α) (rest : Multiset (Nat × Node α))
    (owns : Owns h (cellsOf none t + rest)) (sorted : Sorted t.inorder) :
    ∃ h' t' success, add (rootPtr t) key val h = some (rootPtr t', success, h') ∧
      Owns h' (cellsOf none t' + rest) ∧ Adds key val t.inorder success t'.inorder := by
  cases t with
  | nil =>
    obtain ⟨fresh, next, owns₁⟩ := owns.alloc ⟨none, none, none, 0, none, 0⟩
    obtain ⟨h₂, ran₂, next₂, owns₂⟩ := owns₁.modify fun _ => ⟨none, none, none, key, val, 1⟩
    refine ⟨h₂, .node ⟨h.next, key, val⟩ .nil .nil, true, ?_, owns₂.of_eq ?_, ?_⟩
    · simp [add, calloc, fresh, ran₂]
    · simp [cellsOf, record]
    · exact .added h.next [] [] rfl (by simp) (by simp)
  | node e l r =>
    obtain ⟨h₁, x, l₁, r₁, ran₁, next₁, owns₁, same, nearest⟩ := find_spec key e l r rest owns sorted
    have there := read_plug [] .left x l₁ r₁ rest owns₁
    by_cases found : x.key = key
    · refine ⟨h₁, .node x l₁ r₁, false, ?_, owns₁, ?_⟩
      · simp [add, ran₁, there, found]
      · rw [same]
        exact .present x (same ▸ by simp [inorder]) found
    -- The key is new: the tree is split at it, and joined again under its node.
    · have sorted₁ := same ▸ sorted
      have missing := nearest.absent sorted₁ found
      obtain ⟨fresh, _, owns₂⟩ := owns₁.alloc ⟨none, none, none, 0, none, 0⟩
      obtain ⟨h₃, t₁, t₂, ran₃, next₃, owns₃, sequence, less, greater⟩ :=
        split_spec key (.node x l₁ r₁) _ (owns₂.of_eq (add_left_comm _ _ _)) sorted₁
      obtain ⟨h₄, ran₄, _, owns₄⟩ := join_spec ⟨h₁.next, key, val⟩ t₁ t₂ _ rest owns₃
      refine ⟨h₄, .node ⟨h₁.next, key, val⟩ t₁ t₂, true, ?_, owns₄, ?_⟩
      · rw [rootPtr_node] at ran₃
        simp only [Option.bind_eq_bind, Option.bind_eq_some_iff] at ran₄
        obtain ⟨_, filled, _, left, _, right, sized⟩ := ran₄
        simp [add, ran₁, there, found, calloc, fresh, ran₃, filled, left, right, sized]
      · rw [inorder]
        refine .added h₁.next _ _ (sequence.trans same) less ?_
        intro y member
        have other := missing y (by
          rw [inorder] at sequence
          rw [← sequence]
          exact List.mem_append_right _ member)
        exact UInt64.lt_of_le_of_ne (greater y member) (Ne.symm other)

/-- The sequence that `remove` leaves, and the value that it takes out. -/
inductive Removes (key : UInt64) (sequence : List (Entry α)) : Option α → List (Entry α) → Prop
  | absent (missing : ∀ x ∈ sequence, x.key ≠ key) : Removes key sequence none sequence
  | removed (front behind : List (Entry α)) (e : Entry α) (parts : front ++ e :: behind = sequence)
      (found : e.key = key) : Removes key sequence e.val (front ++ behind)

/-- The root leaves the heap, and its two sons become trees of their own. -/
private theorem release_spec (x : Entry α) (l r : Tree α) (rest : Multiset (Nat × Node α))
    (owns : Owns h (cellsOf none (.node x l r) + rest)) :
    ∃ h', (do
      let h ← setParent (rootPtr l) none h
      let h ← setParent (rootPtr r) none h
      h.free x.addr) = some h' ∧ h'.next = h.next ∧
      Owns h' (cellsOf none l + cellsOf none r + rest) := by
  rw [cellsOf] at owns
  generalize record .left x (rootPtr l) (rootPtr r) none _ = node at owns
  obtain ⟨h₁, ran₁, next₁, owns₁⟩ := setParent_spec none (owns.of_eq (o :=
    cellsOf (some x.addr) l + ({(x.addr, node)} + cellsOf (some x.addr) r + rest)) (by ac_rfl))
  obtain ⟨h₂, ran₂, next₂, owns₂⟩ := setParent_spec none (owns₁.of_eq (o :=
    cellsOf (some x.addr) r + ({(x.addr, node)} + cellsOf none l + rest)) (by ac_rfl))
  obtain ⟨h₃, ran₃, next₃, owns₃⟩ := (owns₂.of_eq (o :=
    {(x.addr, node)} + (cellsOf none l + cellsOf none r + rest)) (by ac_rfl)).free
  refine ⟨h₃, ?_, next₃.trans (next₂.trans next₁), owns₃⟩
  simp only [ran₁, ran₂, ran₃, Option.bind_eq_bind, Option.bind_some]

theorem remove_spec (key : UInt64) (t : Tree α) (rest : Multiset (Nat × Node α))
    (owns : Owns h (cellsOf none t + rest)) (sorted : Sorted t.inorder) :
    ∃ h' t' val, remove (rootPtr t) key h = some (rootPtr t', val, h') ∧
      Owns h' (cellsOf none t' + rest) ∧ Removes key t.inorder val t'.inorder := by
  cases t with
  | nil => exact ⟨h, .nil, none, rfl, owns, .absent (by simp [inorder])⟩
  | node e l r =>
    obtain ⟨h₁, x, l₁, r₁, ran₁, next₁, owns₁, same, nearest⟩ := find_spec key e l r rest owns sorted
    have there := read_plug [] .left x l₁ r₁ rest owns₁
    by_cases found : x.key = key
    · have sorted₁ : Sorted (BinaryTree.node x l₁ r₁).inorder := same ▸ sorted
      have sortedLeft : Sorted l₁.inorder := (List.pairwise_append.mp sorted₁).1
      obtain ⟨h₂, ran₂, next₂, owns₂⟩ := release_spec x l₁ r₁ rest owns₁
      obtain ⟨h₃, t, ran₃, next₃, owns₃, sequence⟩ := merge_spec l₁ r₁ rest owns₂ sortedLeft
      refine ⟨h₃, t, x.val, ?_, owns₃, ?_⟩
      · simp only [Option.bind_eq_bind, Option.bind_eq_some_iff] at ran₂
        obtain ⟨_, left, _, right, freed⟩ := ran₂
        simp [remove, ran₁, there, record, found, left, right, freed, ran₃]
      · rw [sequence]
        exact .removed _ _ x same found
    · refine ⟨h₁, .node x l₁ r₁, none, ?_, owns₁, ?_⟩
      · simp [remove, ran₁, there, found]
      · rw [same]
        have sorted₁ : Sorted (BinaryTree.node x l₁ r₁).inorder := same ▸ sorted
        exact .absent (same ▸ nearest.absent sorted₁ found)

end AcosChat.TsMap

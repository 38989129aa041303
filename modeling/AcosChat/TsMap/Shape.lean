import AcosChat.TsMap.Operations

/-!
# Well-formed trees of a heap

`Hangs` reads a tree off the links of the heap: it follows the sons down to the null
pointers, and asks of every node that its parent field and its size fit. A well-formed
tree is one that hangs below nothing and whose keys increase. On such trees every
function of `ts_map.c` is specified by the in-order sequences before and after it.
-/
namespace AcosChat.TsMap

open Store BinaryTree

variable {α : Type} {h : Heap α}

/-- The tree below a pointer, by its entries in order. -/
inductive Hangs (h : Heap α) : Ptr → Ptr → List (Entry α) → Prop
  | null (parent : Ptr) : Hangs h parent none []
  | node {parent : Ptr} {a : Nat} {record : Node α} {l r : List (Entry α)}
      (there : h.read a = some record) (up : record.parent = parent)
      (size : record.size = l.length + r.length + 1)
      (left : Hangs h (some a) record.left l) (right : Hangs h (some a) record.right r) :
      Hangs h parent (some a) (l ++ ⟨a, record.key, record.val⟩ :: r)

/-- A tree of its own: the parent of its root is null, and its keys are in strict order. -/
structure WellFormed (h : Heap α) (root : Ptr) (entries : List (Entry α)) : Prop where
  bounded : h.Bounded
  hangs : Hangs h none root entries
  sorted : Sorted entries

/-! ### Trees and their cells -/

theorem addrs_cellsOf (parent : Ptr) (t : Tree α) :
    (cellsOf parent t).map Prod.fst = (t.inorder.map Entry.addr : List Nat) := by
  induction t generalizing parent with
  | nil => rfl
  | node e l r leftIh rightIh =>
    simp only [cellsOf, Multiset.map_add, Multiset.map_singleton, leftIh, rightIh, inorder,
      List.map_append, List.map_cons, ← Multiset.coe_add, ← Multiset.cons_coe,
      ← Multiset.singleton_add]
    ac_rfl

/-- The links of a tree that hangs on the heap are the cells of a binary tree. -/
theorem Hangs.tree {parent ptr : Ptr} {entries : List (Entry α)} (hangs : Hangs h parent ptr entries) :
    ∃ t, rootPtr t = ptr ∧ t.inorder = entries ∧
      ∀ a record, (a, record) ∈ cellsOf parent t → h.cells a = some record := by
  induction hangs with
  | null parent => exact ⟨.nil, rfl, rfl, by simp [cellsOf]⟩
  | @node parent a node l r there up size _ _ leftIh rightIh =>
    obtain ⟨t₁, leftRoot, rfl, leftCells⟩ := leftIh
    obtain ⟨t₂, rightRoot, rfl, rightCells⟩ := rightIh
    refine ⟨.node ⟨a, node.key, node.val⟩ t₁ t₂, rfl, rfl, ?_⟩
    intro b other member
    simp only [cellsOf, Multiset.mem_add, Multiset.mem_singleton, Prod.mk.injEq] at member
    rcases member with (⟨rfl, rfl⟩ | member) | member
    · -- the record at the root is the one that the tree determines
      rw [length_inorder, length_inorder] at size
      rw [leftRoot, rightRoot, ← up, ← size]
      exact there
    · exact leftCells b other member
    · exact rightCells b other member

theorem hangs_of_cells (parent : Ptr) (t : Tree α)
    (cells : ∀ a record, (a, record) ∈ cellsOf parent t → h.cells a = some record) :
    Hangs h parent (rootPtr t) t.inorder := by
  induction t generalizing parent with
  | nil => exact .null parent
  | node e l r leftIh rightIh =>
    have root : h.read e.addr = some (record .left e (rootPtr l) (rootPtr r) parent
        (l.numNodes + r.numNodes + 1)) := cells _ _ (by simp [cellsOf])
    have left := leftIh (some e.addr) fun a node member => cells a node (by simp [cellsOf, member])
    have right := rightIh (some e.addr) fun a node member => cells a node (by simp [cellsOf, member])
    refine .node root rfl ?_ left right
    rw [record_size, length_inorder, length_inorder]

theorem Hangs.read {parent ptr : Ptr} {entries : List (Entry α)} (hangs : Hangs h parent ptr entries)
    {e : Entry α} (member : e ∈ entries) :
    ∃ node, h.read e.addr = some node ∧ node.key = e.key ∧ node.val = e.val := by
  induction hangs with
  | null => cases member
  | @node _ a node _ _ there _ _ _ _ leftIh rightIh =>
    rcases List.mem_append.mp member with member | member
    · exact leftIh member
    rcases List.mem_cons.mp member with rfl | member
    · exact ⟨node, there, rfl, rfl⟩
    · exact rightIh member

/-- Entries of trees on one heap, in strict order, are at different addresses. -/
theorem nodup_addrs {entries : List (Entry α)} (sorted : Sorted entries)
    (read : ∀ e ∈ entries, ∃ node, h.read e.addr = some node ∧ node.key = e.key ∧ node.val = e.val) :
    (entries.map Entry.addr).Nodup := by
  apply List.pairwise_map.mpr
  apply List.Pairwise.imp_of_mem _ sorted
  intro x y inX inY less same
  obtain ⟨node, there, key, _⟩ := read x inX
  obtain ⟨node', there', key', _⟩ := read y inY
  -- One address has one record, and so one key.
  rw [same, there', Option.some.injEq] at there
  rw [← key, ← key', there] at less
  exact UInt64.lt_irrefl _ less

theorem WellFormed.owns {root : Ptr} {entries : List (Entry α)} (wf : WellFormed h root entries) :
    ∃ t rest, rootPtr t = root ∧ t.inorder = entries ∧ Owns h (cellsOf none t + rest) := by
  obtain ⟨t, start, sequence, cells⟩ := wf.hangs.tree
  have nodup : ((cellsOf none t).map Prod.fst).Nodup := by
    rw [addrs_cellsOf, sequence]
    exact Multiset.coe_nodup.mpr (nodup_addrs wf.sorted fun e member => wf.hangs.read member)
  obtain ⟨rest, owns⟩ := exists_owns wf.bounded cells nodup
  exact ⟨t, rest, start, sequence, owns⟩

theorem wellFormed_of_owns {t : Tree α} {rest : Multiset (Nat × Node α)}
    (owns : Owns h (cellsOf none t + rest)) (sorted : Sorted t.inorder) :
    WellFormed h (rootPtr t) t.inorder := by
  refine ⟨owns.bounded, hangs_of_cells none t ?_, sorted⟩
  intro a node member
  exact owns.read (Multiset.mem_add.mpr (.inl member))

/-- A step that goes from the cells of one tree to those of another leaves all others alone. -/
theorem frame_of_owns {h' : Heap α} {t t' : Tree α} {rest : Multiset (Nat × Node α)}
    (owns : Owns h (cellsOf none t + rest)) (owns' : Owns h' (cellsOf none t' + rest))
    (same : t'.inorder = t.inorder) (a : Nat) (outside : ∀ e ∈ t.inorder, e.addr ≠ a) :
    h'.read a = h.read a := by
  have notIn : a ∉ (cellsOf none t).map Prod.fst := by
    rw [addrs_cellsOf]
    simpa using outside
  have notIn' : a ∉ (cellsOf none t').map Prod.fst := by
    rw [addrs_cellsOf, same]
    simpa using outside
  exact owns.frame owns' notIn notIn'

/-! ### Splaying -/

/-- Every entry of a tree is at the end of a path. -/
theorem exists_path {t : Tree α} {e : Entry α} (member : e ∈ t.inorder) :
    ∃ path l r, plug path (.node e l r) = t := by
  suffices main : ∀ (path : Path α) (t : Tree α), e ∈ t.inorder →
      ∃ path' l r, plug path' (.node e l r) = plug path t from main [] t member
  intro path t
  induction t generalizing path with
  | nil => intro member; cases member
  | node x l r leftIh rightIh =>
    intro member
    rcases List.mem_append.mp member with member | member
    · exact leftIh (⟨.left, x, r⟩ :: path) member
    rcases List.mem_cons.mp member with rfl | member
    · exact ⟨path, l, r, rfl⟩
    · exact rightIh (⟨.right, x, l⟩ :: path) member

/-- `splay` ends, within as many turns as the tree has nodes, and only rearranges: its node is
the root of a well-formed tree with the same sequence, and no other node has changed. -/
theorem splay_rearranges {root : Ptr} {entries : List (Entry α)} (wf : WellFormed h root entries)
    {node : Entry α} (member : node ∈ entries) :
    ∃ h', splay node.addr h = some h' ∧
      (∀ turns, entries.length ≤ turns → Loop.run (splayStep node.addr) turns h = .done h') ∧
      WellFormed h' (some node.addr) entries ∧ h'.next = h.next ∧
      ∀ a, (∀ e ∈ entries, e.addr ≠ a) → h'.read a = h.read a := by
  obtain ⟨t, rest, _, rfl, owns⟩ := wf.owns
  obtain ⟨path, l, r, rfl⟩ := exists_path member
  -- The path above the node is shorter than the tree has nodes.
  have long := numNodes_plug path (.node node l r)
  have inside := numNodes_le_next rest owns
  simp only [numNodes] at long
  obtain ⟨h', ran, l', r', next, owns', same⟩ := splay_run node rest
    (plug path (.node node l r)).numNodes path l r h (by omega) owns
  refine ⟨h', ?_, ?_, ?_, next, ?_⟩
  · have more : (plug path (.node node l r)).numNodes ≤ budget h := by
      unfold budget
      omega
    rw [splay, Loop.run_mono ran more]
  · intro turns enough
    rw [length_inorder] at enough
    exact Loop.run_mono ran enough
  · have whole := wellFormed_of_owns owns' (same ▸ wf.sorted)
    rw [same] at whole
    exact whole
  · exact frame_of_owns owns owns' same

/-- Three nodes in a row, each the left son of the next. -/
def slope : Heap Nat :=
  ⟨fun a => [⟨none, none, some 1, 10, some 7, 1⟩, ⟨some 0, none, some 2, 20, none, 2⟩,
    ⟨some 1, none, none, 30, some 9, 3⟩][a]?, 3⟩

def slopeEntries : List (Entry Nat) := [⟨0, 10, some 7⟩, ⟨1, 20, none⟩, ⟨2, 30, some 9⟩]

theorem slope_wellFormed : WellFormed slope (some 2) slopeEntries := by
  have read₀ : slope.read 0 = some ⟨none, none, some 1, 10, some 7, 1⟩ := rfl
  have read₁ : slope.read 1 = some ⟨some 0, none, some 2, 20, none, 2⟩ := rfl
  have read₂ : slope.read 2 = some ⟨some 1, none, none, 30, some 9, 3⟩ := rfl
  have bottom := Hangs.node read₀ rfl rfl (.null (some 0)) (.null (some 0))
  have middle := Hangs.node read₁ rfl rfl bottom (.null (some 1))
  refine ⟨?_, Hangs.node read₂ rfl rfl middle (.null (some 2)), by simp [slopeEntries, Sorted]⟩
  intro a node there
  exact (List.getElem?_eq_some_iff.mp there).1

theorem splay_rearranges_slope : ∃ h', splay 0 slope = some h' ∧
    (∀ turns, 3 ≤ turns → Loop.run (splayStep 0) turns slope = .done h') ∧
    WellFormed h' (some 0) slopeEntries ∧ h'.next = 3 ∧
    ∀ a, (∀ e ∈ slopeEntries, e.addr ≠ a) → h'.read a = slope.read a :=
  splay_rearranges slope_wellFormed (List.mem_cons_self : ⟨0, 10, some 7⟩ ∈ slopeEntries)

end AcosChat.TsMap

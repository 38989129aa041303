import AcosChat.TsMap.Model

/-!
# The cells of a tree, and the turns

A tree of entries determines the cells that it occupies: every record, with its sons, its
parent and the size of its subtree. A function on nodes is specified by the trees whose
cells the heap owns before and after it; what it leaves alone is the variable `rest`.
-/
namespace AcosChat.TsMap

open Store BinaryTree

variable {α : Type}

/-- A node, apart from its links and its size. -/
structure Entry (α : Type) where
  addr : Nat
  key : UInt64
  val : Option α
deriving DecidableEq, Repr

abbrev Tree (α : Type) := BinaryTree (Entry α)

def rootPtr : Tree α → Ptr
  | .nil => none
  | .node e _ _ => some e.addr

@[simp] theorem rootPtr_nil : rootPtr (.nil : Tree α) = none := rfl

@[simp] theorem rootPtr_node (e : Entry α) (l r : Tree α) : rootPtr (.node e l r) = some e.addr := rfl

@[simp] theorem rootPtr_build (s : Side) (e : Entry α) (near far : Tree α) :
    rootPtr (build s e near far) = some e.addr := by
  cases s <;> rfl

/-- The record of a node that has `near` on the side `s`. -/
def record (s : Side) (e : Entry α) (near far parent : Ptr) (size : Nat) : Node α :=
  match s with
  | .left => ⟨near, far, parent, e.key, e.val, size⟩
  | .right => ⟨far, near, parent, e.key, e.val, size⟩

section Record

variable (s : Side) (e : Entry α) (near far parent ptr : Ptr) (size : Nat)

@[simp] theorem record_son : (record s e near far parent size).son s = near := by cases s <;> rfl

@[simp] theorem record_son_other : (record s e near far parent size).son s.other = far := by
  cases s <;> rfl

@[simp] theorem record_setSon :
    (record s e near far parent size).setSon s ptr = record s e ptr far parent size := by
  cases s <;> rfl

@[simp] theorem record_setSon_other :
    (record s e near far parent size).setSon s.other ptr = record s e near ptr parent size := by
  cases s <;> rfl

@[simp] theorem record_setParent :
    (record s e near far parent size).setParent ptr = record s e near far ptr size := by
  cases s <;> rfl

@[simp] theorem record_parent : (record s e near far parent size).parent = parent := by
  cases s <;> rfl

@[simp] theorem record_size : (record s e near far parent size).size = size := by cases s <;> rfl

@[simp] theorem record_key : (record s e near far parent size).key = e.key := by cases s <;> rfl

@[simp] theorem record_val : (record s e near far parent size).val = e.val := by cases s <;> rfl

@[simp] theorem record_left_left : (record .left e near far parent size).left = near := rfl

@[simp] theorem record_right_left : (record .right e near far parent size).left = far := rfl

end Record

def cellsOf (parent : Ptr) : Tree α → Multiset (Nat × Node α)
  | .nil => 0
  | .node e l r =>
    {(e.addr, record .left e (rootPtr l) (rootPtr r) parent (l.numNodes + r.numNodes + 1))} +
      cellsOf (some e.addr) l + cellsOf (some e.addr) r

theorem cellsOf_build (s : Side) (e : Entry α) (near far : Tree α) (parent : Ptr) :
    cellsOf parent (build s e near far) =
      {(e.addr, record s e (rootPtr near) (rootPtr far) parent (near.numNodes + far.numNodes + 1))} +
        cellsOf (some e.addr) near + cellsOf (some e.addr) far := by
  cases s
  · rfl
  · rw [build, cellsOf, add_right_comm, Nat.add_comm far.numNodes]
    rfl

theorem card_cellsOf (parent : Ptr) (t : Tree α) : (cellsOf parent t).card = t.numNodes := by
  induction t generalizing parent with
  | nil => rfl
  | node e l r leftIh rightIh =>
    simp only [cellsOf, Multiset.card_add, Multiset.card_singleton, leftIh, rightIh, numNodes]
    omega

/-! ### Paths -/

abbrev Path (α : Type) := List (Fork (Entry α))

/-- The parent of what hangs at the end of a path. -/
def above : Path α → Ptr
  | [] => none
  | fork :: _ => some fork.value.addr

/-- The cells of a path, at whose end a tree of `size` nodes hangs with the root `hole`. -/
def pathCells : Path α → Ptr → Nat → Multiset (Nat × Node α)
  | [], _, _ => 0
  | ⟨s, e, aside⟩ :: path, hole, size =>
    {(e.addr, record s e hole (rootPtr aside) (above path) (size + aside.numNodes + 1))} +
      cellsOf (some e.addr) aside + pathCells path (some e.addr) (size + aside.numNodes + 1)

theorem cellsOf_plug (path : Path α) (t : Tree α) :
    cellsOf none (plug path t) = cellsOf (above path) t + pathCells path (rootPtr t) t.numNodes := by
  induction path generalizing t with
  | nil => simp [plug, above, pathCells]
  | cons fork path ih =>
    rw [plug, ih, cellsOf_build, rootPtr_build, numNodes_build, pathCells, above]
    ac_rfl

/-! ### Links -/

variable {h : Heap α} {rest : Multiset (Nat × Node α)}

/-- A tree is hung below another parent. -/
theorem setParent_spec {t : Tree α} {parent : Ptr} (parent' : Ptr)
    (owns : Owns h (cellsOf parent t + rest)) :
    ∃ h', setParent (rootPtr t) parent' h = some h' ∧ h'.next = h.next ∧
      Owns h' (cellsOf parent' t + rest) := by
  cases t with
  | nil => exact ⟨h, rfl, rfl, owns⟩
  | node e l r =>
    simp only [cellsOf, add_assoc] at owns ⊢
    obtain ⟨h', ran, next, owns'⟩ := owns.modify (Node.setParent parent')
    rw [record_setParent] at owns'
    exact ⟨h', ran, next, owns'⟩

theorem getSize_spec {t : Tree α} {parent : Ptr} (rest : Multiset (Nat × Node α))
    (owns : Owns h (cellsOf parent t + rest)) : getSize (rootPtr t) h = some t.numNodes := by
  cases t with
  | nil => rfl
  | node e l r =>
    have there : h.read e.addr =
        some (record .left e (rootPtr l) (rootPtr r) parent (l.numNodes + r.numNodes + 1)) :=
      owns.read (by simp [cellsOf])
    rw [rootPtr, getSize, there, Option.map_some, record_size, numNodes]

/-- The size that a node gets is that of its subtree. -/
theorem updateSize_spec (s : Side) (e : Entry α) (near far : Tree α) (parent : Ptr) (size : Nat)
    (rest : Multiset (Nat × Node α))
    (owns : Owns h ({(e.addr, record s e (rootPtr near) (rootPtr far) parent size)} +
      cellsOf (some e.addr) near + cellsOf (some e.addr) far + rest)) :
    ∃ h', updateSize (some e.addr) h = some h' ∧ h'.next = h.next ∧
      Owns h' (cellsOf parent (build s e near far) + rest) := by
  have there : h.read e.addr = some (record s e (rootPtr near) (rootPtr far) parent size) :=
    owns.read (by simp)
  have nearSize : getSize (rootPtr near) h = some near.numNodes :=
    getSize_spec _ (owns.of_eq (by rw [add_comm {_}, add_assoc, add_assoc]))
  have farSize : getSize (rootPtr far) h = some far.numNodes :=
    getSize_spec _ (owns.of_eq (by rw [add_comm _ (cellsOf _ far), add_assoc]))
  have sized : ∀ node : Node α, { node with size := 1 + near.numNodes + far.numNodes } =
      { node with size := near.numNodes + far.numNodes + 1 } := by
    intro node
    rw [Nat.add_assoc, Nat.add_comm]
  simp only [add_assoc] at owns
  obtain ⟨h', ran, next, owns'⟩ := owns.modify
    fun node => { node with size := near.numNodes + far.numNodes + 1 }
  refine ⟨h', ?_, next, ?_⟩
  · cases s
    · simp [updateSize, there, record, nearSize, farSize, sized, ran]
    · simp only [updateSize, there, Option.bind_eq_bind, Option.bind_some, record, farSize,
        nearSize]
      rw [Nat.add_assoc 1, Nat.add_comm 1, Nat.add_comm far.numNodes]
      exact ran
  · rw [cellsOf_build]
    cases s <;> simpa only [add_assoc, record] using owns'

/-- A tree becomes the son of a node. -/
theorem connect_tree (s : Side) (a : Nat) (node : Node α) (t : Tree α) (parent : Ptr)
    (rest : Multiset (Nat × Node α)) (owns : Owns h ({(a, node)} + cellsOf parent t + rest)) :
    ∃ h', connect s (some a) (rootPtr t) h = some h' ∧ h'.next = h.next ∧
      Owns h' ({(a, node.setSon s (rootPtr t))} + cellsOf (some a) t + rest) := by
  rw [add_assoc] at owns
  obtain ⟨h₁, wrote, next₁, owns₁⟩ := owns.modify (Node.setSon s (rootPtr t))
  have owns₁ := owns₁.of_eq (o := cellsOf parent t + ({(a, node.setSon s (rootPtr t))} + rest))
    (by ac_rfl)
  obtain ⟨h₂, hung, next₂, owns₂⟩ := setParent_spec (some a) owns₁
  refine ⟨h₂, ?_, next₂.trans next₁, owns₂.of_eq (by ac_rfl)⟩
  simp only [connect, wrote, Option.bind_eq_bind, Option.bind_some, hung]

/-- A single node becomes the son of another. -/
theorem connect_node (s : Side) (a b : Nat) (node son : Node α) (rest : Multiset (Nat × Node α))
    (owns : Owns h ({(a, node)} + {(b, son)} + rest)) :
    ∃ h', connect s (some a) (some b) h = some h' ∧ h'.next = h.next ∧
      Owns h' ({(a, node.setSon s (some b))} + {(b, son.setParent (some a))} + rest) := by
  rw [add_assoc] at owns
  obtain ⟨h₁, wrote, next₁, owns₁⟩ := owns.modify (Node.setSon s (some b))
  have owns₁ := owns₁.of_eq (o := {(b, son)} + ({(a, node.setSon s (some b))} + rest))
    (by ac_rfl)
  obtain ⟨h₂, hung, next₂, owns₂⟩ := owns₁.modify (Node.setParent (some a))
  refine ⟨h₂, ?_, next₂.trans next₁, owns₂.of_eq (by ac_rfl)⟩
  simp only [connect, wrote, Option.bind_eq_bind, Option.bind_some, setParent, hung]

/-- Whether the end of a path is a left son. -/
def hangsLeft : Path α → Bool
  | [] => false
  | fork :: _ => fork.side = .left

/-- The record of a node at the end of a path. -/
theorem read_plug (path : Path α) (s : Side) (e : Entry α) (near far : Tree α)
    (rest : Multiset (Nat × Node α))
    (owns : Owns h (cellsOf none (plug path (build s e near far)) + rest)) :
    h.read e.addr = some (record s e (rootPtr near) (rootPtr far) (above path)
      (near.numNodes + far.numNodes + 1)) := by
  rw [cellsOf_plug, cellsOf_build] at owns
  exact owns.read (by simp)

theorem isLeftSon_spec (path : Path α) (s : Side) (e : Entry α) (near far : Tree α)
    (rest : Multiset (Nat × Node α))
    (owns : Owns h (cellsOf none (plug path (build s e near far)) + rest)) :
    isLeftSon e.addr h = some (hangsLeft path) := by
  have there := read_plug path s e near far rest owns
  cases path with
  | nil => simp [isLeftSon, there, above, hangsLeft]
  | cons fork path =>
    obtain ⟨side, g, aside⟩ := fork
    have parent := read_plug path side g (build s e near far) aside rest owns
    rw [rootPtr_build] at parent
    rw [cellsOf_plug, cellsOf_build, rootPtr_build] at owns
    have apart : rootPtr aside ≠ some e.addr := by
      cases aside with
      | nil => simp [rootPtr]
      | node x l r =>
        simp only [rootPtr, ne_eq, Option.some.injEq]
        intro same
        simp only [add_assoc] at owns
        apply owns.not_mem
          (record .left x (rootPtr l) (rootPtr r) (some g.addr) (l.numNodes + r.numNodes + 1))
        rw [← same]
        simp [pathCells, cellsOf]
    cases side
    · simp [isLeftSon, there, above, hangsLeft, parent]
    · simp [isLeftSon, there, above, hangsLeft, parent, apart]

/-- A turn lifts the son on one side above its parent. -/
theorem turn_spec (path : Path α) (s : Side) (p x : Entry α) (a b c : Tree α)
    (rest : Multiset (Nat × Node α))
    (owns : Owns h (cellsOf none (plug path (build s p (build s x a b) c)) + rest)) :
    ∃ h', turn s.other p.addr h = some h' ∧ h'.next = h.next ∧
      Owns h' (cellsOf none (plug path (build s x a (build s p b c))) + rest) := by
  have nodeLeft := isLeftSon_spec path s p (build s x a b) c rest owns
  have readP := read_plug path s p (build s x a b) c rest owns
  have readX := read_plug (⟨s, p, c⟩ :: path) s x a b rest owns
  rw [rootPtr_build] at readP
  simp only [cellsOf_plug, cellsOf_build, rootPtr_build, numNodes_build] at owns
  generalize sizeP : a.numNodes + b.numNodes + 1 + c.numNodes + 1 = m at owns
  -- The middle tree goes to the parent, and the parent under its son.
  obtain ⟨h₁, ran₁, next₁, owns₁⟩ := connect_tree s p.addr _ b (some x.addr)
    ({(x.addr, record s x (rootPtr a) (rootPtr b) (some p.addr) (a.numNodes + b.numNodes + 1))} +
      cellsOf (some x.addr) a + cellsOf (some p.addr) c + pathCells path (some p.addr) m + rest)
    (owns.of_eq (by ac_rfl))
  rw [record_setSon] at owns₁
  obtain ⟨h₂, ran₂, next₂, owns₂⟩ := connect_node s.other x.addr p.addr _ _
    (cellsOf (some x.addr) a + cellsOf (some p.addr) b + cellsOf (some p.addr) c +
      pathCells path (some p.addr) m + rest) (owns₁.of_eq (by ac_rfl))
  rw [record_setSon_other, record_setParent] at owns₂
  -- The sizes are updated from below.
  obtain ⟨h₃, ran₃, next₃, owns₃⟩ := updateSize_spec s p b c (some x.addr) m
    ({(x.addr, record s x (rootPtr a) (some p.addr) (some p.addr) (a.numNodes + b.numNodes + 1))} +
      cellsOf (some x.addr) a + pathCells path (some p.addr) m + rest) (owns₂.of_eq (by ac_rfl))
  obtain ⟨h₄, ran₄, next₄, owns₄⟩ := updateSize_spec s x a (build s p b c) (some p.addr) _
    (pathCells path (some p.addr) m + rest) (owns₃.of_eq (by rw [rootPtr_build]; ac_rfl))
  have next₄ : h₄.next = h.next := by rw [next₄, next₃, next₂, next₁]
  have sameSize : (build s x a (build s p b c)).numNodes = m := by
    simp only [numNodes_build]
    omega
  -- Above there is nothing, or the place of the parent under the next node.
  cases path with
  | nil =>
    obtain ⟨h₅, ran₅, next₅, owns₅⟩ := setParent_spec none owns₄
    rw [rootPtr_build] at ran₅
    refine ⟨h₅, ?_, next₅.trans next₄, ?_⟩
    · simp [turn, readP, readX, nodeLeft, ran₁, ran₂, ran₃, ran₄, above, ran₅]
    · rw [cellsOf_plug, sameSize]
      exact owns₅.of_eq (by simp [above, pathCells])
  | cons fork path =>
    obtain ⟨side, g, aside⟩ := fork
    rw [pathCells] at owns₄
    obtain ⟨h₅, ran₅, next₅, owns₅⟩ := connect_tree side g.addr _ (build s x a (build s p b c)) _
      (cellsOf (some g.addr) aside + pathCells path (some g.addr) (m + aside.numNodes + 1) + rest)
      (owns₄.of_eq (by ac_rfl))
    rw [rootPtr_build] at ran₅
    refine ⟨h₅, ?_, next₅.trans next₄, ?_⟩
    · cases side <;> simp [turn, readP, readX, nodeLeft, ran₁, ran₂, ran₃, ran₄, above, hangsLeft,
        connectLeft, connectRight, ran₅]
    · rw [cellsOf_plug, sameSize, pathCells, above, rootPtr_build]
      rw [record_setSon, rootPtr_build] at owns₅
      exact owns₅.of_eq (by ac_rfl)

end AcosChat.TsMap

import AcosChat.Lib.Loop
import AcosChat.Lib.Store
import AcosChat.Lib.Tree

/-!
# `ts_map`

`lib/ts_map/src/ts_map.c`: a splay tree of parent-linked nodes on the heap. Every
function takes the heap and is `none` where it dereferences the null pointer or a node
that is not allocated. A loop or recursion is given as many steps as nodes have ever
been allocated, and one more. `LOCK` and `UNLOCK` make each function one step; a
callback cannot call the map back.
-/
namespace AcosChat.TsMap

open Store
open BinaryTree (Side)

variable {α σ : Type}

/-- `ts_map_node_t`; a null value is `none`. -/
structure Node (α : Type) where
  left : Ptr
  right : Ptr
  parent : Ptr
  key : UInt64
  val : Option α
  size : Nat
deriving DecidableEq, Repr

/-- The field of a node that `connect_left` or `connect_right` is about. -/
def Node.son (side : Side) (node : Node α) : Ptr :=
  match side with
  | .left => node.left
  | .right => node.right

def Node.setSon (side : Side) (son : Ptr) (node : Node α) : Node α :=
  match side with
  | .left => { node with left := son }
  | .right => { node with right := son }

def Node.setParent (parent : Ptr) (node : Node α) : Node α := { node with parent := parent }

abbrev Heap (α : Type) := Store (Node α)

def getSize (node : Ptr) (h : Heap α) : Option Nat :=
  match node with
  | none => some 0
  | some node => (h.read node).map Node.size

def updateSize (node : Ptr) (h : Heap α) : Option (Heap α) :=
  match node with
  | none => some h
  | some node => do
    let record ← h.read node
    let l ← getSize record.left h
    let r ← getSize record.right h
    h.modify node fun record => { record with size := 1 + l + r }

def isRoot (node : Nat) (h : Heap α) : Option Bool :=
  (h.read node).map fun record => record.parent.isNone

def isLeftSon (node : Nat) (h : Heap α) : Option Bool := do
  let record ← h.read node
  match record.parent with
  | none => some false
  | some parent => (h.read parent).map fun record => record.left = some node

/-- `son->parent = parent` unless the son is null. -/
def setParent (son parent : Ptr) (h : Heap α) : Option (Heap α) :=
  match son with
  | none => some h
  | some son => h.modify son (Node.setParent parent)

def connect (side : Side) (parent son : Ptr) (h : Heap α) : Option (Heap α) := do
  let h ← match parent with
    | none => some h
    | some parent => h.modify parent (Node.setSon side son)
  setParent son parent h

def connectLeft (parent son : Ptr) (h : Heap α) : Option (Heap α) := connect .left parent son h

def connectRight (parent son : Ptr) (h : Heap α) : Option (Heap α) := connect .right parent son h

/-- `left_turn` and `right_turn`, by the side that the node sinks to. -/
def turn (side : Side) (node : Nat) (h : Heap α) : Option (Heap α) := do
  let record ← h.read node
  match record.son side.other with
  | none => some h
  | some newRoot => do
    let parent := record.parent
    let nodeLeft ← isLeftSon node h
    -- The inner son of the new root changes sides.
    let newRecord ← h.read newRoot
    let h ← connect side.other (some node) (newRecord.son side) h
    let h ← connect side (some newRoot) (some node) h
    let h ← updateSize (some node) h
    let h ← updateSize (some newRoot) h
    match parent with
    | some parent =>
      if nodeLeft then connectLeft (some parent) (some newRoot) h
      else connectRight (some parent) (some newRoot) h
    -- The node was the root, and now the new root is.
    | none => setParent (some newRoot) none h

def leftTurn (node : Nat) (h : Heap α) : Option (Heap α) := turn .left node h

def rightTurn (node : Nat) (h : Heap α) : Option (Heap α) := turn .right node h

/-- The two turns of a node that has a grandparent. -/
def splayTwice (node p g : Nat) (h : Heap α) : Option (Heap α) := do
  let nodeLeft ← isLeftSon node h
  let pLeft ← isLeftSon p h
  if nodeLeft then
    -- zig-zig from the grandparent down, zig-zag from the parent up
    if pLeft then rightTurn g h >>= rightTurn p
    else rightTurn p h >>= leftTurn g
  else
    if pLeft then leftTurn p h >>= rightTurn g
    else leftTurn g h >>= leftTurn p

/-- One turn of the loop in `splay`; the result is whether the node is the root. -/
def splayBody (node : Nat) (h : Heap α) : Option (Bool × Heap α) := do
  let record ← h.read node
  match record.parent with
  | none => some (true, h)
  | some p => do
    let parent ← h.read p
    match parent.parent with
    | none => do
      -- zig
      let h ← if ← isLeftSon node h then rightTurn p h else leftTurn p h
      some (false, h)
    | some g => do
      let h ← splayTwice node p g h
      some (false, h)

def splayStep (node : Nat) (h : Heap α) : Loop.Step (Heap α) (Heap α) :=
  match splayBody node h with
  | none => .fault
  | some (true, h) => .done h
  | some (false, h) => .next h

/-- A loop's budget: no path of the tree is longer. -/
def budget (h : Heap α) : Nat := h.next + 1

def splay (node : Nat) (h : Heap α) : Option (Heap α) :=
  match Loop.run (splayStep node) (budget h) h with
  | .done h => some h
  | .fault | .running => none

def findFrom (key : UInt64) : Nat → Ptr → Heap α → Option (Ptr × Heap α)
  | 0, _, _ => none
  | _ + 1, none, h => some (none, h)
  | fuel + 1, some root, h => do
    let record ← h.read root
    if key = record.key then
      let h ← splay root h
      some (some root, h)
    else
      -- A search that falls off the tree splays the last node it has seen.
      let son := if key < record.key then record.left else record.right
      match son with
      | none =>
        let h ← splay root h
        some (some root, h)
      | some son => findFrom key fuel (some son) h

def find (root : Ptr) (key : UInt64) (h : Heap α) : Option (Ptr × Heap α) :=
  findFrom key (budget h) root h

def rightestFrom (h : Heap α) : Nat → Nat → Option Nat
  | 0, _ => none
  | fuel + 1, node => do
    let record ← h.read node
    match record.right with
    | none => some node
    | some right => rightestFrom h fuel right

def rightest (node : Nat) (h : Heap α) : Option Nat := rightestFrom h (budget h) node

def merge (left right : Ptr) (h : Heap α) : Option (Ptr × Heap α) :=
  match left, right with
  | none, _ => some (right, h)
  | _, none => some (left, h)
  | some left, some right => do
    let tree ← rightest left h
    let h ← splay tree h
    -- The greatest node of the left tree has no right son once it is the root.
    let h ← connectRight (some tree) (some right) h
    let h ← updateSize (some tree) h
    some (some tree, h)

/-- The son on one side becomes a tree of its own. -/
def detach (side : Side) (tree : Nat) (h : Heap α) : Option (Ptr × Heap α) := do
  let record ← h.read tree
  match record.son side with
  | none => some (none, h)
  | some son => do
    let h ← setParent (some son) none h
    let h ← h.modify tree (Node.setSon side none)
    some (some son, h)

/-- The two out-parameters are the first two results. -/
def split (tree : Ptr) (key : UInt64) (h : Heap α) : Option (Ptr × Ptr × Heap α) :=
  match tree with
  | none => some (none, none, h)
  | some _ => do
    let (found, h) ← find tree key h
    let tree ← found
    let record ← h.read tree
    -- The root is next to the key, on one side of it or the other.
    let (left, right, h) ← if record.key < key then do
        let (right, h) ← detach .right tree h
        some (some tree, right, h)
      else do
        let (left, h) ← detach .left tree h
        some (left, some tree, h)
    let h ← updateSize left h
    let h ← updateSize right h
    some (left, right, h)

/-- `calloc`; it is taken to succeed, as the source does. -/
def calloc (h : Heap α) : Nat × Heap α := h.alloc ⟨none, none, none, 0, none, 0⟩

/-- The result is the new root, whether the key was added, and the heap. -/
def add (tree : Ptr) (key : UInt64) (val : Option α) (h : Heap α) : Option (Ptr × Bool × Heap α) :=
  match tree with
  | none => do
    let (node, h) := calloc h
    let h ← h.modify node fun _ => ⟨none, none, none, key, val, 1⟩
    some (some node, true, h)
  | some _ => do
    let (found, h) ← find tree key h
    let tree ← found
    let record ← h.read tree
    -- An old value stays.
    if record.key = key then some (some tree, false, h)
    else do
      let (root, h) := calloc h
      -- split searches once more; the node that was found is the root by then.
      let (left, right, h) ← split (some tree) key h
      let h ← h.modify root fun record =>
        { record with left := left, right := right, key := key, parent := none, val := val }
      let h ← connectLeft (some root) left h
      let h ← connectRight (some root) right h
      let h ← updateSize (some root) h
      some (some root, true, h)

/-- The result is the new root, the value removed, and the heap. -/
def remove (tree : Ptr) (key : UInt64) (h : Heap α) : Option (Ptr × Option α × Heap α) :=
  match tree with
  | none => some (none, none, h)
  | some _ => do
    let (found, h) ← find tree key h
    let tree ← found
    let record ← h.read tree
    if record.key ≠ key then some (some tree, none, h)
    else do
      -- The sons are trees of their own before the root is freed.
      let h ← setParent record.left none h
      let h ← setParent record.right none h
      let h ← h.free tree
      let (root, h) ← merge record.left record.right h
      some (root, record.val, h)

/-- `ts_map_forall_helper`, with what its callback works on. -/
def forallHelper (callback : UInt64 → Option α → σ → σ) (h : Heap α) :
    Nat → Ptr → σ → Option σ
  | 0, _, _ => none
  | _ + 1, none, state => some state
  | fuel + 1, some m, state => do
    let record ← h.read m
    -- Left son, node, right son: in the order of the keys.
    let state ← forallHelper callback h fuel record.left state
    forallHelper callback h fuel record.right (callback record.key record.val state)

def callDestructor (destructor : Option (Option α → σ → σ)) (val : Option α) (state : σ) : σ :=
  match destructor with
  | none => state
  | some destructor => destructor val state

/-- `ts_map_node_destroy`, with what its destructor works on. -/
def nodeDestroy (destructor : Option (Option α → σ → σ)) :
    Nat → Ptr → Heap α × σ → Option (Heap α × σ)
  | 0, _, _ => none
  | _ + 1, none, state => some state
  | fuel + 1, some node, (h, state) => do
    let record ← h.read node
    let (h, state) ← nodeDestroy destructor fuel record.left (h, state)
    let record ← h.read node
    let (h, state) ← nodeDestroy destructor fuel record.right (h, state)
    let record ← h.read node
    let h ← h.free node
    some (h, callDestructor destructor record.val state)

end TsMap

/-! ### The map -/

open TsMap

variable {α σ : Type}

/-- `ts_map_t`, with the heap that its nodes are on. -/
structure TsMap (α : Type) where
  heap : Heap α
  root : Store.Ptr
  frosen : Bool

/-- `ts_map_init` -/
def tsMapInit : TsMap α := ⟨Store.empty, none, false⟩

def tsMapDestroy (destructor : Option (Option α → σ → σ)) (m : TsMap α) (state : σ) :
    Option (TsMap α × σ) := do
  let (h, state) ← nodeDestroy destructor (budget m.heap) m.root (m.heap, state)
  some (⟨h, m.root, true⟩, state)

def tsMapInsert (m : TsMap α) (key : UInt64) (val : Option α) : Option (Bool × TsMap α) :=
  if m.frosen then some (false, m)
  else do
    let (root, success, h) ← add m.root key val m.heap
    some (success, { m with root := root, heap := h })

/-- The root's record, if the lookup that has just splayed it found the key. -/
def TsMap.hit (m : TsMap α) (key : UInt64) : Option (Option (Node α)) :=
  match m.root with
  | none => some none
  | some root => (m.heap.read root).map fun record => if record.key = key then some record else none

def tsMapFind (m : TsMap α) (key : UInt64) : Option (Option α × TsMap α) := do
  let (root, h) ← find m.root key m.heap
  let m := { m with root := root, heap := h }
  let hit ← m.hit key
  some (hit.bind Node.val, m)

def tsMapHas (m : TsMap α) (key : UInt64) : Option (Bool × TsMap α) := do
  let (root, h) ← find m.root key m.heap
  let m := { m with root := root, heap := h }
  let hit ← m.hit key
  some (hit.isSome, m)

def tsMapErase (m : TsMap α) (key : UInt64) : Option (Option α × TsMap α) :=
  if m.frosen then some (none, m)
  else do
    let (root, val, h) ← remove m.root key m.heap
    some (val, { m with root := root, heap := h })

def tsMapSize (m : TsMap α) : Option Nat := getSize m.root m.heap

def tsMapForall (callback : UInt64 → Option α → σ → σ) (m : TsMap α) (state : σ) : Option σ :=
  forallHelper callback m.heap (budget m.heap) m.root state

end AcosChat

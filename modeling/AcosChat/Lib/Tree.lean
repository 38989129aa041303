import Mathlib.Data.Tree.Basic
import Mathlib.Data.List.Basic

/-!
# In-order sequences, paths and rotations of binary trees

A node deep inside a tree is a subtree with the path above it; `plug` puts the two
together. A rotation at the end of a path keeps the in-order sequence of the whole.
-/
namespace BinaryTree

variable {β : Type}

inductive Side where
  | left
  | right
deriving DecidableEq, Repr

def Side.other : Side → Side
  | .left => .right
  | .right => .left

@[simp] theorem Side.other_other (s : Side) : s.other.other = s := by cases s <;> rfl

@[simp] theorem Side.other_ne (s : Side) : s.other ≠ s := by cases s <;> decide

def inorder : BinaryTree β → List β
  | .nil => []
  | .node value l r => l.inorder ++ value :: r.inorder

theorem length_inorder (t : BinaryTree β) : t.inorder.length = t.numNodes := by
  induction t with
  | nil => rfl
  | node value l r leftIh rightIh =>
    simp only [inorder, List.length_append, List.length_cons, leftIh, rightIh, numNodes]
    omega

def postorder : BinaryTree β → List β
  | .nil => []
  | .node value l r => l.postorder ++ r.postorder ++ [value]

theorem postorder_perm (t : BinaryTree β) : t.postorder.Perm t.inorder := by
  induction t with
  | nil => exact .refl _
  | node value l r leftIh rightIh =>
    calc l.postorder ++ r.postorder ++ [value]
        = l.postorder ++ (r.postorder ++ [value]) := List.append_assoc _ _ _
      _ |>.Perm (l.inorder ++ (r.inorder ++ [value])) := leftIh.append (rightIh.append_right _)
      _ |>.Perm (l.inorder ++ value :: r.inorder) := (List.perm_append_singleton _ _).append_left _

/-- The node with `near` on the side `s`. -/
def build (s : Side) (value : β) (near far : BinaryTree β) : BinaryTree β :=
  match s with
  | .left => .node value near far
  | .right => .node value far near

@[simp] theorem numNodes_build (s : Side) (value : β) (near far : BinaryTree β) :
    (build s value near far).numNodes = near.numNodes + far.numNodes + 1 := by
  cases s
  · rfl
  · simp only [build, numNodes]
    omega

theorem build_other (s : Side) (value : β) (near far : BinaryTree β) :
    build s.other value far near = build s value near far := by
  cases s <;> rfl

/-- Every node can be seen from either side. -/
theorem node_eq_build (s : Side) (value : β) (l r : BinaryTree β) :
    ∃ near far, node value l r = build s value near far := by
  cases s
  · exact ⟨l, r, rfl⟩
  · exact ⟨r, l, rfl⟩

theorem build_eq_node (s : Side) (value : β) (near far : BinaryTree β) :
    ∃ l r, build s value near far = node value l r := by
  cases s
  · exact ⟨near, far, rfl⟩
  · exact ⟨far, near, rfl⟩

/-- A rotation: the near child of a node becomes its parent. -/
theorem inorder_rotate (s : Side) (p x : β) (a b c : BinaryTree β) :
    (build s x a (build s p b c)).inorder = (build s p (build s x a b) c).inorder := by
  cases s <;> simp [build, inorder]

/-! ### Paths -/

/-- One node on the path to a subtree: the side it leaves by, and what hangs on the other. -/
structure Fork (β : Type) where
  side : Side
  value : β
  aside : BinaryTree β

/-- The tree that has `t` at the end of a path; the fork next to `t` comes first. -/
def plug : List (Fork β) → BinaryTree β → BinaryTree β
  | [], t => t
  | fork :: path, t => plug path (build fork.side fork.value t fork.aside)

/-- What the in-order sequence has in front of the end of a path. -/
def before : List (Fork β) → List β
  | [] => []
  | ⟨.left, _, _⟩ :: path => before path
  | ⟨.right, value, aside⟩ :: path => before path ++ aside.inorder ++ [value]

/-- What the in-order sequence has behind the end of a path. -/
def after : List (Fork β) → List β
  | [] => []
  | ⟨.left, value, aside⟩ :: path => value :: aside.inorder ++ after path
  | ⟨.right, _, _⟩ :: path => after path

theorem inorder_plug (path : List (Fork β)) (t : BinaryTree β) :
    (plug path t).inorder = before path ++ t.inorder ++ after path := by
  induction path generalizing t with
  | nil => simp [plug, before, after]
  | cons fork path ih =>
    obtain ⟨side, value, aside⟩ := fork
    cases side <;> simp [plug, before, after, ih, build, inorder]

/-- Subtrees with the same in-order sequence can be exchanged. -/
theorem inorder_plug_congr {t t' : BinaryTree β} (same : t.inorder = t'.inorder)
    (path : List (Fork β)) : (plug path t).inorder = (plug path t').inorder := by
  rw [inorder_plug, inorder_plug, same]

theorem numNodes_plug (path : List (Fork β)) (t : BinaryTree β) :
    path.length + t.numNodes ≤ (plug path t).numNodes := by
  induction path generalizing t with
  | nil => simp [plug]
  | cons fork path ih =>
    have inner := ih (build fork.side fork.value t fork.aside)
    rw [numNodes_build] at inner
    simp only [plug, List.length_cons]
    omega

end BinaryTree

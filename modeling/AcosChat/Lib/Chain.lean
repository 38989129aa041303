import AcosChat.Lib.Store

/-!
# Chains of cells

Singly linked lists in a store. A chain is a list of addresses with their values; `cell`
makes the record of a node from the pointer to the next node and its value. A chain runs up
to a pointer `after`, so that a chain falls into chains.
-/
namespace Chain

open Store

variable {ν β : Type}

/-- The pointer to the front of a chain that runs up to `after`. -/
def entry : List (Nat × β) → Ptr → Ptr
  | [], after => after
  | node :: _, _ => some node.1

def cells (cell : Ptr → β → ν) : List (Nat × β) → Ptr → Multiset (Nat × ν)
  | [], _ => 0
  | node :: nodes, after =>
    {(node.1, cell (entry nodes after) node.2)} + cells cell nodes after

theorem cells_cons (cell : Ptr → β → ν) (node : Nat × β) (nodes : List (Nat × β)) (after : Ptr) :
    cells cell (node :: nodes) after =
      {(node.1, cell (entry nodes after) node.2)} + cells cell nodes after :=
  rfl

/-- The front of a chain with a node does not depend on what comes after. -/
theorem entry_concat (nodes : List (Nat × β)) (node : Nat × β) (after after' : Ptr) :
    entry (nodes ++ [node]) after = entry (nodes ++ [node]) after' := by
  cases nodes with
  | nil => rfl
  | cons front nodes => rfl

theorem entry_append (nodes nodes' : List (Nat × β)) (after : Ptr) :
    entry (nodes ++ nodes') after = entry nodes (entry nodes' after) := by
  cases nodes with
  | nil => rfl
  | cons node nodes => rfl

theorem cells_append (cell : Ptr → β → ν) (nodes nodes' : List (Nat × β)) (after : Ptr) :
    cells cell (nodes ++ nodes') after =
      cells cell nodes (entry nodes' after) + cells cell nodes' after := by
  induction nodes with
  | nil => rw [List.nil_append, cells, zero_add]
  | cons node nodes ih => rw [List.cons_append, cells_cons, cells_cons, entry_append, ih, add_assoc]

/-- A chain that ends with a node, with the node apart. -/
theorem cells_concat (cell : Ptr → β → ν) (nodes : List (Nat × β)) (node : Nat × β) (after : Ptr) :
    cells cell (nodes ++ [node]) after =
      {(node.1, cell after node.2)} + cells cell nodes (some node.1) := by
  rw [cells_append, add_comm, cells_cons, cells, add_zero, entry, entry]

theorem addresses_cells (cell : Ptr → β → ν) (nodes : List (Nat × β)) (after : Ptr) :
    (cells cell nodes after).map Prod.fst = (nodes.map Prod.fst : Multiset Nat) := by
  induction nodes with
  | nil => rfl
  | cons node nodes ih =>
    rw [cells_cons, Multiset.map_add, ih, Multiset.map_singleton]
    rfl

theorem card_cells (cell : Ptr → β → ν) (nodes : List (Nat × β)) (after : Ptr) :
    (cells cell nodes after).card = nodes.length := by
  rw [← Multiset.card_map Prod.fst, addresses_cells, Multiset.coe_card, List.length_map]

/-- From a pointer, following `next` visits these addresses and comes to the null pointer. -/
inductive Visits (next : ν → Ptr) (s : Store ν) : Ptr → List Nat → Prop
  | done : Visits next s none []
  | node {a : Nat} {record : ν} {addresses : List Nat} (there : s.read a = some record)
      (rest : Visits next s (next record) addresses) : Visits next s (some a) (a :: addresses)

section Owned

variable {cell : Ptr → β → ν} {s : Store ν} {nodes : List (Nat × β)} {rest : Multiset (Nat × ν)}

/-- The addresses of an owned chain are visited, from its front to the null pointer. -/
theorem visits_of_owns {next : ν → Ptr} (field : ∀ after val, next (cell after val) = after)
    (owns : Owns s (cells cell nodes none + rest)) :
    Visits next s (entry nodes none) (nodes.map Prod.fst) := by
  induction nodes generalizing rest with
  | nil => exact .done
  | cons node nodes ih =>
    rw [cells_cons] at owns
    have there : s.read node.1 = some (cell (entry nodes none) node.2) := owns.read (by simp)
    have later := ih (owns.of_eq (by rw [add_comm {_}, add_assoc]))
    exact .node there (by rwa [field])

theorem nodup_of_owns {after : Ptr} (owns : Owns s (cells cell nodes after + rest)) :
    (nodes.map Prod.fst).Nodup := by
  have distinct := owns.nodup
  rw [Multiset.map_add, addresses_cells] at distinct
  exact Multiset.coe_nodup.mp (Multiset.nodup_of_le (Multiset.le_add_right _ _) distinct)

/-- Each node of an owned chain holds its value. -/
theorem values_of_owns {val : ν → β} (field : ∀ after v, val (cell after v) = v) {after : Ptr}
    (owns : Owns s (cells cell nodes after + rest)) :
    nodes.map (fun node => (s.read node.1).map val) = nodes.map fun node => some node.2 := by
  induction nodes generalizing rest with
  | nil => rfl
  | cons node nodes ih =>
    rw [cells_cons] at owns
    have there : s.read node.1 = some (cell (entry nodes after) node.2) := owns.read (by simp)
    have later := ih (owns.of_eq (by rw [add_comm {_}, add_assoc]))
    rw [List.map_cons, List.map_cons, there, Option.map_some, field, later]

end Owned

end Chain

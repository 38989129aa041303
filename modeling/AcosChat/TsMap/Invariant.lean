import AcosChat.TsMap.Refinement
import AcosChat.TsMap.Shape

/-!
# The representation invariant

What the links, keys and sizes of the heap say about a map, clause by clause, in terms of
the walks down from the root. Every call keeps the invariant, and an erase takes one node
off the heap and leaves no link to it.
-/
namespace AcosChat

open Store BinaryTree TsMap

variable {α : Type}

namespace TsMap

/-- The node that a walk down the sons comes to. -/
def follow (h : Heap α) : Ptr → List Side → Ptr
  | ptr, [] => ptr
  | ptr, side :: walk => do
    let a ← ptr
    let node ← h.read a
    follow h (node.son side) walk

/-- The nodes of the subtree at a pointer. -/
def subtree (h : Heap α) (ptr : Ptr) : Set Nat := {a | ∃ walk, follow h ptr walk = some a}

end TsMap

/-- The links, the keys and the sizes of the nodes fit. -/
structure Intact (m : TsMap α) : Prop where
  /-- The nodes of the map are the allocated ones. -/
  reached : ∀ a, (m.heap.read a).isSome ↔ a ∈ subtree m.heap m.root
  /-- No node is reached twice. -/
  once : ∀ walk walk' a, follow m.heap m.root walk = some a → follow m.heap m.root walk' = some a →
    walk = walk'
  root : ∀ a, m.root = some a → ∃ node, m.heap.read a = some node ∧ node.parent = none
  down : ∀ a node side son, m.heap.read a = some node → node.son side = some son →
    ∃ node', m.heap.read son = some node' ∧ node'.parent = some a
  up : ∀ a node parent, m.heap.read a = some node → node.parent = some parent →
    ∃ node' side, m.heap.read parent = some node' ∧ node'.son side = some a
  less : ∀ a node b node', m.heap.read a = some node → b ∈ subtree m.heap node.left →
    m.heap.read b = some node' → node'.key < node.key
  greater : ∀ a node b node', m.heap.read a = some node → b ∈ subtree m.heap node.right →
    m.heap.read b = some node' → node.key < node'.key
  size : ∀ a node, m.heap.read a = some node → (subtree m.heap (some a)).encard = node.size

/-- An erase: the node with the key leaves the heap, and no link leads to it. -/
structure Releases (key : UInt64) (m m' : TsMap α) : Prop where
  leaves : ∀ a, (m'.heap.read a).isSome ↔ ∃ node, m.heap.read a = some node ∧ node.key ≠ key
  kept : ∀ a node node', m.heap.read a = some node → m'.heap.read a = some node' →
    node'.key = node.key ∧ node'.val = node.val
  root : ∀ a node, m.heap.read a = some node → node.key = key → m'.root ≠ some a
  links : ∀ a node b node', m.heap.read a = some node → node.key = key →
    m'.heap.read b = some node' →
    node'.left ≠ some a ∧ node'.right ≠ some a ∧ node'.parent ≠ some a

/-- `conn_mgr_get_number_of_sessions`, from the set that it has found: it reads `root->size`. -/
def numberOfSessions (set : Option (TsMap α)) : Option Int32 :=
  match set with
  | none => some 0
  | some m =>
    match m.root with
    | none => some 0
    | some root => (m.heap.read root).map fun node => Int32.ofNat node.size

/-! ### Walks in a tree -/

namespace TsMap

variable {h : Heap α}

@[simp] theorem follow_nil (ptr : Ptr) : follow h ptr [] = ptr := by
  cases ptr <;> rfl

@[simp] theorem follow_none (walk : List Side) : follow h none walk = none := by
  cases walk <;> rfl

theorem follow_cons {a : Nat} {node : Node α} (there : h.read a = some node) (side : Side)
    (walk : List Side) : follow h (some a) (side :: walk) = follow h (node.son side) walk := by
  simp [follow, there]

theorem Hangs.mem_subtree {parent ptr : Ptr} {entries : List (Entry α)}
    (hangs : Hangs h parent ptr entries) (a : Nat) :
    a ∈ subtree h ptr ↔ ∃ e ∈ entries, e.addr = a := by
  induction hangs with
  | null => simp [subtree]
  | @node parent b node l r there _ _ _ _ leftIh rightIh =>
    constructor
    · rintro ⟨walk, came⟩
      -- the first step of the walk says which subtree it ends in
      cases walk with
      | nil =>
        rw [follow_nil, Option.some.injEq] at came
        exact ⟨⟨b, node.key, node.val⟩, by simp, came⟩
      | cons side walk =>
        rw [follow_cons there] at came
        cases side
        · obtain ⟨e, member, addr⟩ := leftIh.mp ⟨walk, came⟩
          exact ⟨e, List.mem_append_left _ member, addr⟩
        · obtain ⟨e, member, addr⟩ := rightIh.mp ⟨walk, came⟩
          exact ⟨e, List.mem_append_right _ (List.mem_cons_of_mem _ member), addr⟩
    · rintro ⟨e, member, addr⟩
      rcases List.mem_append.mp member with member | member
      · obtain ⟨walk, came⟩ := leftIh.mpr ⟨e, member, addr⟩
        exact ⟨.left :: walk, (follow_cons there _ _).trans came⟩
      rcases List.mem_cons.mp member with rfl | member
      · exact ⟨[], by rw [follow_nil, ← addr]⟩
      · obtain ⟨walk, came⟩ := rightIh.mpr ⟨e, member, addr⟩
        exact ⟨.right :: walk, (follow_cons there _ _).trans came⟩

/-- Walks to one node are one walk, since the addresses of a tree are distinct. -/
theorem Hangs.once {parent ptr : Ptr} {entries : List (Entry α)} (hangs : Hangs h parent ptr entries)
    (distinct : (entries.map Entry.addr).Nodup) (walk walk' : List Side) (a : Nat)
    (came : follow h ptr walk = some a) (came' : follow h ptr walk' = some a) : walk = walk' := by
  induction hangs generalizing walk walk' with
  | null => simp at came
  | @node parent b node l r there _ _ left right leftIh rightIh =>
    rw [List.map_append, List.map_cons, List.nodup_append, List.nodup_cons] at distinct
    obtain ⟨distinctLeft, ⟨notRight, distinctRight⟩, apart⟩ := distinct
    have inLeft : ∀ walk, follow h node.left walk = some a → a ∈ l.map Entry.addr := by
      intro walk came
      exact List.mem_map.mpr ((left.mem_subtree a).mp ⟨walk, came⟩)
    have inRight : ∀ walk, follow h node.right walk = some a → a ∈ r.map Entry.addr := by
      intro walk came
      exact List.mem_map.mpr ((right.mem_subtree a).mp ⟨walk, came⟩)
    -- Where the walks part, the node would be in two of root, left and right subtree.
    cases walk with
    | nil =>
      rw [follow_nil, Option.some.injEq] at came
      subst came
      cases walk' with
      | nil => rfl
      | cons side walk' =>
        rw [follow_cons there] at came'
        cases side
        · exact absurd rfl (apart b (inLeft walk' came') b (by simp))
        · exact absurd (inRight walk' came') notRight
    | cons side walk =>
      rw [follow_cons there] at came
      cases walk' with
      | nil =>
        rw [follow_nil, Option.some.injEq] at came'
        subst came'
        cases side
        · exact absurd rfl (apart b (inLeft walk came) b (by simp))
        · exact absurd (inRight walk came) notRight
      | cons side' walk' =>
        rw [follow_cons there] at came'
        cases side <;> cases side'
        · rw [leftIh distinctLeft walk walk' came came']
        · exact absurd rfl (apart a (inLeft walk came) a (List.mem_cons_of_mem _ (inRight walk' came')))
        · exact absurd rfl (apart a (inLeft walk' came') a (List.mem_cons_of_mem _ (inRight walk came)))
        · rw [rightIh distinctRight walk walk' came came']

/-- What hangs at a node of a tree, and what the node hangs on. -/
theorem Hangs.at_node {parent ptr : Ptr} {entries : List (Entry α)} (hangs : Hangs h parent ptr entries)
    {e : Entry α} (member : e ∈ entries) :
    ∃ node l r, h.read e.addr = some node ∧ Hangs h node.parent (some e.addr) (l ++ e :: r) ∧
      Hangs h (some e.addr) node.left l ∧ Hangs h (some e.addr) node.right r ∧
      (l ++ e :: r) <:+: entries ∧ node.size = (l ++ e :: r).length ∧
      (node.parent = parent ∧ ptr = some e.addr ∨ ∃ p node' side, node.parent = some p ∧
        h.read p = some node' ∧ node'.son side = some e.addr) := by
  induction hangs with
  | null => cases member
  | @node parent b node l r there up size left right leftIh rightIh =>
    -- the entry is in the left subtree, at the root or in the right subtree
    rcases List.mem_append.mp member with member | member
    · obtain ⟨node', l', r', there', whole, left', right', inside, size', top⟩ := leftIh member
      refine ⟨node', l', r', there', whole, left', right', ?_, size', ?_⟩
      · exact inside.trans (List.prefix_append _ _).isInfix
      · rcases top with ⟨up', here⟩ | deeper
        · exact .inr ⟨b, node, .left, up', there, here⟩
        · exact .inr deeper
    rcases List.mem_cons.mp member with rfl | member
    · refine ⟨node, l, r, there, .node there rfl size left right, left, right, List.infix_rfl, ?_,
        .inl ⟨up, rfl⟩⟩
      rw [size, List.length_append, List.length_cons, Nat.add_assoc]
    · obtain ⟨node', l', r', there', whole, left', right', inside, size', top⟩ := rightIh member
      refine ⟨node', l', r', there', whole, left', right', ?_, size', ?_⟩
      · exact inside.trans ((List.suffix_cons _ _).trans (List.suffix_append _ _)).isInfix
      · rcases top with ⟨up', here⟩ | deeper
        · exact .inr ⟨b, node, .right, up', there, here⟩
        · exact .inr deeper

/-- The addresses of a tree, once each. -/
theorem Hangs.encard_subtree {parent ptr : Ptr} {entries : List (Entry α)}
    (hangs : Hangs h parent ptr entries) (sorted : Sorted entries) :
    (subtree h ptr).encard = entries.length := by
  have distinct := nodup_addrs sorted fun e member => hangs.read member
  have addresses : subtree h ptr = ((entries.map Entry.addr).toFinset : Set Nat) := by
    ext a
    rw [hangs.mem_subtree]
    simp
  rw [addresses, Set.encard_coe_eq_coe_finsetCard, List.toFinset_card_of_nodup distinct,
    List.length_map]

end TsMap

/-! ### The invariant of a map -/

section Spans

variable {m m' : TsMap α} {entries : List (Entry α)} {t t' : TsMap.Tree α}

/-- The heap of a map is the tree at its root. -/
structure Spans (m : TsMap α) (entries : List (Entry α)) : Prop where
  wellFormed : WellFormed m.heap m.root entries
  whole : ∀ a node, m.heap.read a = some node → ∃ e ∈ entries, e.addr = a

theorem spans_of_owns (root : m.root = rootPtr t) (owns : Owns m.heap (cellsOf none t + 0))
    (sorted : Sorted t.inorder) : Spans m t.inorder := by
  refine ⟨root ▸ wellFormed_of_owns owns sorted, ?_⟩
  intro a node there
  have member : (a, node) ∈ cellsOf none t := by simpa using (owns.exact a node).mpr there
  have addr : a ∈ (cellsOf none t).map Prod.fst := Multiset.mem_map_of_mem Prod.fst member
  rw [addrs_cellsOf, Multiset.mem_coe, List.mem_map] at addr
  exact addr

theorem Spans.distinct (spans : Spans m entries) : (entries.map Entry.addr).Nodup :=
  nodup_addrs spans.wellFormed.sorted fun _ member => spans.wellFormed.hangs.read member

/-- An allocated node, with the part of the sequence that is below it. -/
theorem Spans.at_node (spans : Spans m entries) {a : Nat} {node : Node α}
    (there : m.heap.read a = some node) :
    ∃ l r, Hangs m.heap node.parent (some a) (l ++ ⟨a, node.key, node.val⟩ :: r) ∧
      Hangs m.heap (some a) node.left l ∧ Hangs m.heap (some a) node.right r ∧
      Sorted (l ++ ⟨a, node.key, node.val⟩ :: r) ∧
      node.size = (l ++ ⟨a, node.key, node.val⟩ :: r).length ∧
      (m.root = some a ∧ node.parent = none ∨ ∃ p node' side, node.parent = some p ∧
        m.heap.read p = some node' ∧ node'.son side = some a) := by
  obtain ⟨e, member, rfl⟩ := spans.whole a node there
  obtain ⟨node', l, r, there', whole, left, right, inside, size, top⟩ :=
    spans.wellFormed.hangs.at_node member
  obtain ⟨node'', there'', key, val⟩ := spans.wellFormed.hangs.read member
  -- The three records are one.
  rw [there, Option.some.injEq] at there' there''
  subst there'' there'
  have same : e = ⟨e.addr, node.key, node.val⟩ := by rw [key, val]
  rw [← same]
  refine ⟨l, r, whole, left, right, spans.wellFormed.sorted.sublist inside.sublist, size, ?_⟩
  rcases top with ⟨up, here⟩ | deeper
  · exact .inl ⟨here, up⟩
  · exact .inr deeper

theorem Spans.intact (spans : Spans m entries) : Intact m where
  reached := by
    -- the tree has every node that has been allocated and not freed
    intro a
    rw [spans.wellFormed.hangs.mem_subtree, Option.isSome_iff_exists]
    constructor
    · rintro ⟨node, there⟩
      exact spans.whole a node there
    · rintro ⟨e, member, rfl⟩
      obtain ⟨node, there, _⟩ := spans.wellFormed.hangs.read member
      exact ⟨node, there⟩
  once := fun walk walk' a => spans.wellFormed.hangs.once spans.distinct walk walk' a
  root := by
    intro a start
    have hangs := spans.wellFormed.hangs
    rw [start] at hangs
    cases hangs with
    | node there up => exact ⟨_, there, up⟩
  down := by
    intro a node side son there link
    obtain ⟨l, r, _, left, right, _⟩ := spans.at_node there
    -- a son hangs from its parent, on either side
    cases side
    · rw [Node.son] at link
      rw [link] at left
      cases left with
      | node there' up => exact ⟨_, there', up⟩
    · rw [Node.son] at link
      rw [link] at right
      cases right with
      | node there' up => exact ⟨_, there', up⟩
  up := by
    intro a node parent there link
    -- only the root has no parent
    obtain ⟨l, r, _, _, _, _, _, ⟨_, top⟩ | ⟨p, node', side, up, there', son⟩⟩ := spans.at_node there
    · rw [top] at link
      cases link
    · rw [up, Option.some.injEq] at link
      exact ⟨node', side, link ▸ there', son⟩
  less := by
    intro a node b node' there inside there'
    obtain ⟨l, r, _, left, _, sorted, _⟩ := spans.at_node there
    obtain ⟨e, member, rfl⟩ := (left.mem_subtree b).mp inside
    obtain ⟨node'', there'', key, _⟩ := left.read member
    rw [there', Option.some.injEq] at there''
    rw [there'', key]
    exact (sorted_node sorted).1 e member
  greater := by
    intro a node b node' there inside there'
    obtain ⟨l, r, _, _, right, sorted, _⟩ := spans.at_node there
    obtain ⟨e, member, rfl⟩ := (right.mem_subtree b).mp inside
    obtain ⟨node'', there'', key, _⟩ := right.read member
    rw [there', Option.some.injEq] at there''
    rw [there'', key]
    exact (sorted_node sorted).2 e member
  size := by
    intro a node there
    obtain ⟨l, r, whole, _, _, sorted, size, _⟩ := spans.at_node there
    rw [whole.encard_subtree sorted, size]

theorem Spans.mem (spans : Spans m entries) {a : Nat} {node : Node α}
    (there : m.heap.read a = some node) : ⟨a, node.key, node.val⟩ ∈ entries := by
  obtain ⟨e, member, rfl⟩ := spans.whole a node there
  obtain ⟨node', there', key, val⟩ := spans.wellFormed.hangs.read member
  rw [there, Option.some.injEq] at there'
  subst there'
  rw [key, val]
  exact member

/-- The session count and `ts_map_size` both read the size of the root. -/
theorem Spans.sizes (spans : Spans m entries) :
    tsMapSize m = some entries.length ∧
      numberOfSessions (some m) = some (Int32.ofNat entries.length) := by
  cases start : m.root with
  | none =>
    have hangs := spans.wellFormed.hangs
    rw [start] at hangs
    cases hangs
    simp [tsMapSize, numberOfSessions, start, getSize]
  | some a =>
    obtain ⟨node, there, _⟩ := spans.intact.root a start
    have size := spans.intact.size a node there
    rw [← start, spans.wellFormed.hangs.encard_subtree spans.wellFormed.sorted] at size
    have size : entries.length = node.size := by exact_mod_cast size
    simp [tsMapSize, numberOfSessions, start, getSize, there, size]

/-! ### Erasing -/

theorem TsMap.Removes.mem {key : UInt64} {val : Option α} {sequence sequence' : List (Entry α)}
    (removes : Removes key sequence val sequence') (sorted : Sorted sequence) (e : Entry α) :
    e ∈ sequence' ↔ e ∈ sequence ∧ e.key ≠ key := by
  cases removes with
  | absent missing =>
    constructor
    · intro member
      exact ⟨member, missing e member⟩
    · exact And.left
  | removed front behind x parts found =>
    subst parts found
    obtain ⟨less, greater⟩ := sorted_node sorted
    constructor
    · intro member
      rcases List.mem_append.mp member with member | member
      · exact ⟨List.mem_append_left _ member, UInt64.ne_of_lt (less e member)⟩
      · exact ⟨List.mem_append_right _ (List.mem_cons_of_mem _ member),
          (UInt64.ne_of_lt (greater e member)).symm⟩
    · rintro ⟨member, other⟩
      rcases List.mem_append.mp member with member | member
      · exact List.mem_append_left _ member
      rcases List.mem_cons.mp member with rfl | member
      · exact absurd rfl other
      · exact List.mem_append_right _ member

theorem Spans.releases {key : UInt64} {val : Option α} {entries' : List (Entry α)}
    (spans : Spans m entries) (spans' : Spans m' entries') (removes : Removes key entries val entries') :
    Releases key m m' := by
  have member := removes.mem spans.wellFormed.sorted
  have leaves : ∀ a, (m'.heap.read a).isSome ↔ ∃ node, m.heap.read a = some node ∧ node.key ≠ key := by
    intro a
    rw [Option.isSome_iff_exists]
    constructor
    · rintro ⟨node', there'⟩
      obtain ⟨inside, other⟩ := (member _).mp (spans'.mem there')
      obtain ⟨node, there, same, _⟩ := spans.wellFormed.hangs.read inside
      exact ⟨node, there, same ▸ other⟩
    · rintro ⟨node, there, other⟩
      obtain ⟨node', there', _⟩ :=
        spans'.wellFormed.hangs.read ((member _).mpr ⟨spans.mem there, other⟩)
      exact ⟨node', there'⟩
  -- A link to the node would need the node to be there.
  have gone : ∀ a node, m.heap.read a = some node → node.key = key →
      ∀ node', m'.heap.read a ≠ some node' := by
    intro a node there found node' there'
    obtain ⟨node'', there'', other⟩ := (leaves a).mp (Option.isSome_iff_exists.mpr ⟨node', there'⟩)
    rw [there, Option.some.injEq] at there''
    exact other (there'' ▸ found)
  refine ⟨leaves, ?_, ?_, ?_⟩
  · intro a node node' there there'
    obtain ⟨node'', there'', key, val⟩ :=
      spans.wellFormed.hangs.read ((member _).mp (spans'.mem there')).1
    rw [there, Option.some.injEq] at there''
    subst there''
    exact ⟨key.symm, val.symm⟩
  · intro a node there found start
    obtain ⟨node', there', _⟩ := spans'.intact.root a start
    exact gone a node there found node' there'
  · intro a node b node' there found there'
    refine ⟨?_, ?_, ?_⟩
    · intro link
      obtain ⟨son, there'', _⟩ := spans'.intact.down b node' .left a there' link
      exact gone a node there found son there''
    · intro link
      obtain ⟨son, there'', _⟩ := spans'.intact.down b node' .right a there' link
      exact gone a node there found son there''
    · intro link
      obtain ⟨parent, _, there'', _⟩ := spans'.intact.up b node' a there' link
      exact gone a node there found parent there''

end Spans

/-! ### Sequences of calls -/

theorem Tracks.spans {m : TsMap α} {t : TsMap.Tree α} {abs : KeyMap α} (tracks : Tracks m t abs) :
    Spans m t.inorder :=
  spans_of_owns tracks.root tracks.owns tracks.sorted

theorem Tracks.erase {m : TsMap α} {t : TsMap.Tree α} {abs : KeyMap α} (tracks : Tracks m t abs)
    (key : UInt64) :
    ∃ val m', tsMapErase m key = some (val, m') ∧ Intact m' ∧ Releases key m m' := by
  obtain ⟨h, t', val, ran, owns', removes⟩ := remove_spec key t 0 tracks.owns tracks.sorted
  obtain ⟨_, sorted', _⟩ := removes.enumerates tracks.sorted tracks.enumerates
  have spans' : Spans (⟨h, rootPtr t', m.frosen⟩ : TsMap α) t'.inorder :=
    spans_of_owns rfl owns' sorted'
  refine ⟨val, ⟨h, rootPtr t', m.frosen⟩, ?_, spans'.intact, tracks.spans.releases spans' removes⟩
  simp [tsMapErase, tracks.live, tracks.root, ran]

/-- After every sequence of calls the representation invariant holds, `ts_map_size` and the session
count give the number of nodes, and an erase takes exactly the node with its key off the heap. -/
theorem calls_keep_intact (calls : List (Call α)) :
    ∃ answers m, tsMapInit.calls calls = some (answers, m) ∧ Intact m ∧
      (∃ count : Nat, (subtree m.heap m.root).encard = count ∧ tsMapSize m = some count ∧
        numberOfSessions (some m) = some (Int32.ofNat count) ∧
        (count < 2 ^ 31 → (Int32.ofNat count).toInt = count)) ∧
      ∀ key, ∃ val m', tsMapErase m key = some (val, m') ∧ Intact m' ∧ Releases key m m' := by
  obtain ⟨m, ran, t, tracks⟩ := calls_refines tsMapInit_refines calls
  obtain ⟨size, sessions⟩ := tracks.spans.sizes
  refine ⟨_, m, ran, tracks.spans.intact, ⟨t.inorder.length, ?_, size, sessions, ?_⟩, tracks.erase⟩
  · have wellFormed := tracks.spans.wellFormed
    exact wellFormed.hangs.encard_subtree wellFormed.sorted
  · intro small
    rw [Int32.toInt_ofNat_of_lt small]

end AcosChat

import AcosChat.TsMap.Cells

/-!
# Splaying and searching

Every turn of the loop in `splay` shortens the path above the node by one or two forks and
keeps the in-order sequence, so the loop ends with the node at the root. `find` walks down
a search path, and what lies before and behind its end tells how the node that it splays
compares with the key.
-/
namespace AcosChat.TsMap

open Store BinaryTree

variable {α : Type} {h : Heap α}

theorem turn_node (path : Path α) (s : Side) (p x : Entry α) (c l r : Tree α)
    (rest : Multiset (Nat × Node α))
    (owns : Owns h (cellsOf none (plug (⟨s, p, c⟩ :: path) (.node x l r)) + rest)) :
    ∃ a b h', BinaryTree.node x l r = build s x a b ∧ turn s.other p.addr h = some h' ∧
      h'.next = h.next ∧ Owns h' (cellsOf none (plug path (build s x a (build s p b c))) + rest) := by
  obtain ⟨a, b, seen⟩ := node_eq_build s x l r
  rw [seen] at owns
  obtain ⟨h', ran, next, owns'⟩ := turn_spec path s p x a b c rest owns
  exact ⟨a, b, h', seen, ran, next, owns'⟩

/-- The node has become the root of the tree at the end of the path. -/
def Lifted (h h' : Heap α) (x : Entry α) (path : Path α) (sequence : List (Entry α))
    (rest : Multiset (Nat × Node α)) : Prop :=
  ∃ l r, h'.next = h.next ∧ Owns h' (cellsOf none (plug path (.node x l r)) + rest) ∧
    (plug path (.node x l r)).inorder = sequence

/-- Zig-zig: both turns sink a node to the same side. -/
private theorem splay_same (path : Path α) (s : Side) (p g x : Entry α) (c d l r : Tree α)
    (rest : Multiset (Nat × Node α))
    (owns : Owns h (cellsOf none (plug (⟨s, p, c⟩ :: ⟨s, g, d⟩ :: path) (.node x l r)) + rest)) :
    ∃ h', (turn s.other g.addr h >>= turn s.other p.addr) = some h' ∧
      Lifted h h' x path (plug (⟨s, p, c⟩ :: ⟨s, g, d⟩ :: path) (.node x l r)).inorder rest := by
  obtain ⟨h₁, ran₁, next₁, owns₁⟩ := turn_spec path s g p (.node x l r) c d rest owns
  obtain ⟨a, b, h₂, seen, ran₂, next₂, owns₂⟩ :=
    turn_node path s p x (build s g c d) l r rest owns₁
  obtain ⟨l', r', shape⟩ := build_eq_node s x a (build s p b (build s g c d))
  rw [shape] at owns₂
  refine ⟨h₂, ?_, l', r', next₂.trans next₁, owns₂, ?_⟩
  · rw [ran₁, Option.bind_eq_bind, Option.bind_some, ran₂]
  · rw [← shape, seen]
    apply inorder_plug_congr
    rw [inorder_rotate, inorder_rotate]

/-- Zig-zag: the turns sink the parent and the grandparent to opposite sides. -/
private theorem splay_across (path : Path α) (s : Side) (p g x : Entry α) (c d l r : Tree α)
    (rest : Multiset (Nat × Node α))
    (owns : Owns h
      (cellsOf none (plug (⟨s, p, c⟩ :: ⟨s.other, g, d⟩ :: path) (.node x l r)) + rest)) :
    ∃ h', (turn s.other p.addr h >>= turn s g.addr) = some h' ∧
      Lifted h h' x path (plug (⟨s, p, c⟩ :: ⟨s.other, g, d⟩ :: path) (.node x l r)).inorder
        rest := by
  obtain ⟨a, b, h₁, seen, ran₁, next₁, owns₁⟩ := turn_node _ s p x c l r rest owns
  rw [plug, ← build_other s] at owns₁
  obtain ⟨h₂, ran₂, next₂, owns₂⟩ := turn_spec path s.other g x (build s p b c) a d rest owns₁
  rw [Side.other_other] at ran₂
  obtain ⟨l', r', shape⟩ := build_eq_node s.other x (build s p b c) (build s.other g a d)
  rw [shape] at owns₂
  refine ⟨h₂, ?_, l', r', next₂.trans next₁, owns₂, ?_⟩
  · rw [ran₁, Option.bind_eq_bind, Option.bind_some, ran₂]
  · rw [← shape, seen]
    simp only [plug]
    apply inorder_plug_congr
    rw [inorder_rotate]
    cases s <;> simp [build, inorder, Side.other]

theorem splayTwice_spec (path : Path α) (s s' : Side) (p g x : Entry α) (c d l r : Tree α)
    (rest : Multiset (Nat × Node α))
    (owns : Owns h (cellsOf none (plug (⟨s, p, c⟩ :: ⟨s', g, d⟩ :: path) (.node x l r)) + rest)) :
    ∃ h', splayTwice x.addr p.addr g.addr h = some h' ∧
      Lifted h h' x path (plug (⟨s, p, c⟩ :: ⟨s', g, d⟩ :: path) (.node x l r)).inorder rest := by
  have nodeLeft := isLeftSon_spec _ .left x l r rest owns
  have pLeft := isLeftSon_spec _ s p (.node x l r) c rest owns
  have same : s' = s → _ := fun same => splay_same path s p g x c d l r rest (same ▸ owns)
  have across : s' = s.other → _ :=
    fun across => splay_across path s p g x c d l r rest (across ▸ owns)
  cases s <;> cases s' <;>
    simp only [splayTwice, nodeLeft, pLeft, hangsLeft, Option.bind_eq_bind, Option.bind_some] <;>
    first
      | exact same rfl
      | exact across rfl

/-- The loop ends when `is_root` holds of the node, and leaves the heap as it then is. -/
theorem splayStep_eq_done_iff (node : Nat) (h h' : Heap α) :
    splayStep node h = .done h' ↔ isRoot node h = some true ∧ h' = h := by
  rw [splayStep, splayBody, isRoot]
  cases there : h.read node with
  | none => simp
  | some record =>
    cases up : record.parent with
    | none => simp [up, eq_comm]
    | some p =>
      -- every other branch goes on or faults
      simp only [Option.bind_eq_bind, Option.bind_some, up]
      constructor
      · intro done
        split at done
        · cases done
        next ran =>
          exfalso
          simp only [Option.bind_eq_some_iff] at ran
          obtain ⟨_, _, ran⟩ := ran
          split at ran <;> simp [Option.bind_eq_some_iff] at ran
        · cases done
      · rintro ⟨root, _⟩
        simp [up] at root

theorem isRoot_top (x : Entry α) (l r : Tree α) (rest : Multiset (Nat × Node α))
    (owns : Owns h (cellsOf none (.node x l r) + rest)) : isRoot x.addr h = some true := by
  have there := read_plug [] .left x l r rest owns
  rw [isRoot, there]
  rfl

theorem splayBody_below (path : Path α) (fork : Fork (Entry α)) (x : Entry α) (l r : Tree α)
    (rest : Multiset (Nat × Node α))
    (owns : Owns h (cellsOf none (plug (fork :: path) (.node x l r)) + rest)) :
    ∃ h', splayBody x.addr h = some (false, h') ∧
      Lifted h h' x path.tail (plug (fork :: path) (.node x l r)).inorder rest := by
  obtain ⟨s, p, c⟩ := fork
  have readX := read_plug _ .left x l r rest owns
  have readP := read_plug path s p (.node x l r) c rest owns
  cases path with
  | nil =>
    -- the parent is the root: one rotation, and the node is the root
    have nodeLeft := isLeftSon_spec _ .left x l r rest owns
    obtain ⟨a, b, h', seen, ran, next, owns'⟩ := turn_node [] s p x c l r rest owns
    obtain ⟨l', r', shape⟩ := build_eq_node s x a (build s p b c)
    rw [shape] at owns'
    refine ⟨h', ?_, l', r', next, owns', ?_⟩
    · cases s <;> rw [Side.other] at ran <;>
        simp [splayBody, readX, readP, above, nodeLeft, hangsLeft, rightTurn, leftTurn, ran]
    · rw [← shape, seen]
      simp only [List.tail_nil, plug]
      rw [inorder_rotate]
  | cons fork path =>
    obtain ⟨s', g, d⟩ := fork
    obtain ⟨h', ran, lifted⟩ := splayTwice_spec path s s' p g x c d l r rest owns
    refine ⟨h', ?_, lifted⟩
    simp [splayBody, readX, readP, above, ran]

/-- The loop of `splay` ends with the node as the root. -/
theorem splay_run (x : Entry α) (rest : Multiset (Nat × Node α)) (budget : Nat) (path : Path α)
    (l r : Tree α) (h : Heap α) (enough : path.length < budget)
    (owns : Owns h (cellsOf none (plug path (.node x l r)) + rest)) :
    ∃ h', Loop.run (splayStep x.addr) budget h = .done h' ∧
      Lifted h h' x [] (plug path (.node x l r)).inorder rest := by
  induction budget generalizing path l r h with
  | zero => cases enough
  | succ budget ih =>
    cases path with
    | nil =>
      have taken : splayStep x.addr h = .done h :=
        (splayStep_eq_done_iff _ _ _).mpr ⟨isRoot_top x l r rest owns, rfl⟩
      exact ⟨h, Loop.run_done taken budget, l, r, rfl, owns, rfl⟩
    | cons fork path =>
      obtain ⟨h₁, ran, l₁, r₁, next, owns₁, same⟩ := splayBody_below path fork x l r rest owns
      have taken : splayStep x.addr h = .next h₁ := by rw [splayStep, ran]
      -- a round rises by two levels, or by one below the root
      have shorter : path.tail.length < budget := by
        rw [List.length_tail]
        rw [List.length_cons] at enough
        omega
      obtain ⟨h', rest, l', r', next', owns', same'⟩ := ih path.tail l₁ r₁ h₁ shorter owns₁
      exact ⟨h', (Loop.run_next taken budget).trans rest, l', r', next'.trans next, owns',
        same'.trans same⟩

theorem numNodes_le_next {t : Tree α} (rest : Multiset (Nat × Node α))
    (owns : Owns h (cellsOf none t + rest)) : t.numNodes ≤ h.next := by
  have bound := owns.card_le
  rw [Multiset.card_add, card_cellsOf] at bound
  omega

theorem splay_spec (path : Path α) (x : Entry α) (l r : Tree α) (rest : Multiset (Nat × Node α))
    (owns : Owns h (cellsOf none (plug path (.node x l r)) + rest)) :
    ∃ h', splay x.addr h = some h' ∧
      Lifted h h' x [] (plug path (.node x l r)).inorder rest := by
  have enough : path.length < budget h := by
    have long := numNodes_plug path (.node x l r)
    have bound := numNodes_le_next rest owns
    unfold budget
    omega
  obtain ⟨h', ran, lifted⟩ := splay_run x rest (budget h) path l r h enough owns
  exact ⟨h', by rw [splay, ran], lifted⟩

/-! ### Searching -/

def Sorted (sequence : List (Entry α)) : Prop := sequence.Pairwise fun x y => x.key < y.key

/-- How the root that `find` leaves compares with the key. -/
inductive Nearest (key : UInt64) (e : Entry α) (l r : List (Entry α)) : Prop
  | here (found : e.key = key)
  | below (less : e.key < key) (rest : ∀ x ∈ r, key < x.key)
  | beyond (greater : key < e.key) (rest : ∀ x ∈ l, x.key < key)

theorem sorted_node {l r : List (Entry α)} {e : Entry α} (sorted : Sorted (l ++ e :: r)) :
    (∀ x ∈ l, x.key < e.key) ∧ (∀ x ∈ r, e.key < x.key) := by
  obtain ⟨_, right, cross⟩ := List.pairwise_append.mp sorted
  exact ⟨fun x inLeft => cross x inLeft e (by simp), (List.pairwise_cons.mp right).1⟩

/-- The entries on either side of an entry of a sorted sequence are determined. -/
theorem sorted_sides {l r l' r' : List (Entry α)} {e : Entry α} (sorted : Sorted (l ++ e :: r))
    (same : l' ++ e :: r' = l ++ e :: r) : (∀ x ∈ l', x ∈ l) ∧ (∀ x ∈ r', x ∈ r) := by
  obtain ⟨less, greater⟩ := sorted_node sorted
  obtain ⟨less', greater'⟩ := sorted_node (same ▸ sorted : Sorted (l' ++ e :: r'))
  constructor
  · intro x inLeft
    have bound := less' x inLeft
    have member : x ∈ l ++ e :: r := same ▸ List.mem_append_left _ inLeft
    rcases List.mem_append.mp member with there | there
    · exact there
    rcases List.mem_cons.mp there with rfl | there
    · exact absurd bound (UInt64.lt_irrefl _)
    · exact absurd (UInt64.lt_trans bound (greater x there)) (UInt64.lt_irrefl _)
  · intro x inRight
    have bound := greater' x inRight
    have member : x ∈ l ++ e :: r :=
      same ▸ List.mem_append_right _ (List.mem_cons_of_mem _ inRight)
    rcases List.mem_append.mp member with there | there
    · exact absurd (UInt64.lt_trans bound (less x there)) (UInt64.lt_irrefl _)
    rcases List.mem_cons.mp there with rfl | there
    · exact absurd bound (UInt64.lt_irrefl _)
    · exact there

/-- The end of a search: the node is splayed and compares with the key as it did before. -/
private theorem search_ends (key : UInt64) (path : Path α) (e : Entry α) (l r : Tree α)
    (rest : Multiset (Nat × Node α)) (owns : Owns h (cellsOf none (plug path (.node e l r)) + rest))
    (sorted : Sorted (plug path (.node e l r)).inorder)
    (nearest : Nearest key e (before path ++ l.inorder) (r.inorder ++ after path)) :
    ∃ h' l' r', splay e.addr h = some h' ∧ h'.next = h.next ∧
      Owns h' (cellsOf none (.node e l' r') + rest) ∧
      (BinaryTree.node e l' r').inorder = (plug path (.node e l r)).inorder ∧
      Nearest key e l'.inorder r'.inorder := by
  obtain ⟨h', ran, l', r', next, owns', same⟩ := splay_spec path e l r rest owns
  have whole : (plug path (.node e l r)).inorder =
      (before path ++ l.inorder) ++ e :: (r.inorder ++ after path) := by
    simp [inorder_plug, inorder]
  obtain ⟨left, right⟩ := sorted_sides (whole ▸ sorted) (same.trans whole)
  refine ⟨h', l', r', ran, next, owns', same, ?_⟩
  cases nearest with
  | here found => exact .here found
  | below less behind => exact .below less fun x inRight => behind x (right x inRight)
  | beyond greater front => exact .beyond greater fun x inLeft => front x (left x inLeft)

theorem sorted_subtree {path : Path α} {t : Tree α} (sorted : Sorted (plug path t).inorder) :
    Sorted t.inorder := by
  rw [inorder_plug] at sorted
  exact (List.pairwise_append.mp (List.pairwise_append.mp sorted).1).2.1

/-- What `find` makes of a tree: a root nearest to the key, over the same sequence. -/
def Finds (key : UInt64) (h : Heap α) (rest : Multiset (Nat × Node α)) (sequence : List (Entry α))
    (result : Option (Ptr × Heap α)) : Prop :=
  ∃ h' e l r, result = some (some e.addr, h') ∧ h'.next = h.next ∧
    Owns h' (cellsOf none (.node e l r) + rest) ∧ (BinaryTree.node e l r).inorder = sequence ∧
    Nearest key e l.inorder r.inorder

theorem findFrom_spec (key : UInt64) (rest : Multiset (Nat × Node α)) (fuel : Nat) (path : Path α)
    (e : Entry α) (l r : Tree α) (enough : (BinaryTree.node e l r).numNodes ≤ fuel)
    (owns : Owns h (cellsOf none (plug path (.node e l r)) + rest))
    (sorted : Sorted (plug path (.node e l r)).inorder)
    (front : ∀ x ∈ before path, x.key < key) (behind : ∀ x ∈ after path, key < x.key) :
    Finds key h rest (plug path (.node e l r)).inorder (findFrom key fuel (some e.addr) h) := by
  induction fuel generalizing path e l r with
  | zero => simp at enough
  | succ fuel ih =>
    have there := read_plug path .left e l r rest owns
    obtain ⟨less, greater⟩ := sorted_node (sorted_subtree sorted)
    simp only [numNodes] at enough
    -- Where the search stops, the node is splayed.
    have stop : (Nearest key e (before path ++ l.inorder) (r.inorder ++ after path)) →
        Finds key h rest (plug path (.node e l r)).inorder
          (splay e.addr h >>= fun h => some (some e.addr, h)) := by
      intro nearest
      obtain ⟨h', l', r', ran, next, owns', same, nearest'⟩ :=
        search_ends key path e l r rest owns sorted nearest
      refine ⟨h', e, l', r', ?_, next, owns', same, nearest'⟩
      rw [ran, Option.bind_eq_bind, Option.bind_some]
    simp only [findFrom, there, Option.bind_eq_bind, Option.bind_some, record_key]
    by_cases found : key = e.key
    · rw [if_pos found]
      exact stop (.here found.symm)
    rw [if_neg found]
    -- It goes down on the side of the key, as long as there is a son.
    by_cases down : key < e.key
    · rw [if_pos down]
      cases l with
      | nil => exact stop (.beyond down (by simpa [inorder] using front))
      | node x ll lr =>
        have ahead : ∀ x ∈ after (⟨.left, e, r⟩ :: path), key < x.key := by
          intro x member
          simp only [after, List.cons_append, List.mem_cons, List.mem_append] at member
          rcases member with rfl | member | member
          · exact down
          · exact UInt64.lt_trans down (greater x member)
          · exact behind x member
        exact ih (⟨.left, e, r⟩ :: path) x ll lr (by omega) owns sorted front ahead
    · have up : e.key < key := UInt64.lt_of_le_of_ne (UInt64.not_lt.mp down) (Ne.symm found)
      rw [if_neg down]
      cases r with
      | nil => exact stop (.below up (by simpa [inorder] using behind))
      | node x rl rr =>
        have ahead : ∀ x ∈ before (⟨.right, e, l⟩ :: path), x.key < key := by
          intro x member
          simp only [before, List.mem_append, List.mem_singleton] at member
          rcases member with (member | member) | rfl
          · exact front x member
          · exact UInt64.lt_trans (less x member) up
          · exact up
        exact ih (⟨.right, e, l⟩ :: path) x rl rr (by omega) owns sorted ahead behind

theorem find_spec (key : UInt64) (e : Entry α) (l r : Tree α) (rest : Multiset (Nat × Node α))
    (owns : Owns h (cellsOf none (.node e l r) + rest))
    (sorted : Sorted (BinaryTree.node e l r).inorder) :
    Finds key h rest (BinaryTree.node e l r).inorder (find (some e.addr) key h) := by
  have enough : (BinaryTree.node e l r).numNodes ≤ budget h := by
    have bound := numNodes_le_next rest owns
    unfold budget
    omega
  exact findFrom_spec key rest (budget h) [] e l r enough owns sorted (by simp [before])
    (by simp [after])

end AcosChat.TsMap

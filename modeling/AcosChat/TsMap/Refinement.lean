import AcosChat.Lib.OrderedMap
import AcosChat.TsMap.Operations

/-!
# `ts_map` refines a finite map

The heap owns the cells of a sorted tree, and the entries of the tree are those of a finite
map from keys to values. Every call of the six functions gives the answer of the finite
map and leaves such a heap again; this carries over to sequences of calls.
-/
namespace AcosChat

open Std Store BinaryTree OrderedMap TsMap

variable {α σ : Type}

/-! ### Traversals -/

namespace TsMap

theorem forallHelper_spec (callback : UInt64 → Option α → σ → σ) {h : Heap α} (fuel : Nat)
    (t : Tree α) (parent : Ptr) (rest : Multiset (Nat × Node α)) (state : σ)
    (enough : t.numNodes < fuel) (owns : Owns h (cellsOf parent t + rest)) :
    forallHelper callback h fuel (rootPtr t) state =
      some (t.inorder.foldl (fun state e => callback e.key e.val state) state) := by
  induction t generalizing fuel parent rest state with
  | nil =>
    obtain ⟨fuel, rfl⟩ : ∃ f, fuel = f + 1 := ⟨fuel - 1, by omega⟩
    rfl
  | node e l r leftIh rightIh =>
    obtain ⟨fuel, rfl⟩ : ∃ f, fuel = f + 1 := ⟨fuel - 1, by omega⟩
    simp only [numNodes] at enough
    have there : h.read e.addr = some (record .left e (rootPtr l) (rootPtr r) parent
        (l.numNodes + r.numNodes + 1)) := owns.read (by simp [cellsOf])
    rw [cellsOf] at owns
    have left := leftIh fuel (some e.addr) _ state (by omega)
      (owns.of_eq (by rw [add_comm {_}, add_assoc, add_assoc]))
    have right := rightIh fuel (some e.addr) _
      (callback e.key e.val (l.inorder.foldl (fun state e => callback e.key e.val state) state))
      (by omega) (owns.of_eq (by rw [add_comm _ (cellsOf _ r), add_assoc]))
    simp [forallHelper, there, record, left, right, inorder]

/-- What the destructor makes of a list of values. -/
def destroyed (destructor : Option (Option α → σ → σ)) (entries : List (Entry α)) (state : σ) : σ :=
  entries.foldl (fun state e => callDestructor destructor e.val state) state

/-- Every node is destroyed once, its sons before it. -/
theorem nodeDestroy_spec (destructor : Option (Option α → σ → σ)) {h : Heap α} (fuel : Nat)
    (t : Tree α) (parent : Ptr) (rest : Multiset (Nat × Node α)) (state : σ)
    (enough : t.numNodes < fuel) (owns : Owns h (cellsOf parent t + rest)) :
    ∃ h', nodeDestroy destructor fuel (rootPtr t) (h, state) =
        some (h', destroyed destructor t.postorder state) ∧ Owns h' rest := by
  induction t generalizing fuel parent rest state h with
  | nil =>
    obtain ⟨fuel, rfl⟩ : ∃ f, fuel = f + 1 := ⟨fuel - 1, by omega⟩
    exact ⟨h, rfl, by simpa [cellsOf] using owns⟩
  | node e l r leftIh rightIh =>
    obtain ⟨fuel, rfl⟩ : ∃ f, fuel = f + 1 := ⟨fuel - 1, by omega⟩
    simp only [numNodes] at enough
    have there : h.read e.addr = some (record .left e (rootPtr l) (rootPtr r) parent
        (l.numNodes + r.numNodes + 1)) := owns.read (by simp [cellsOf])
    rw [cellsOf] at owns
    -- both subtrees are freed before the node is, which has to stay readable meanwhile
    generalize named : record .left e (rootPtr l) (rootPtr r) parent _ = node at owns there
    obtain ⟨h₁, ran₁, owns₁⟩ := leftIh fuel (some e.addr)
      ({(e.addr, node)} + cellsOf (some e.addr) r + rest) state (by omega) (owns.of_eq (by ac_rfl))
    have there₁ : h₁.read e.addr = some node := owns₁.read (by simp)
    obtain ⟨h₂, ran₂, owns₂⟩ := rightIh fuel (some e.addr) ({(e.addr, node)} + rest)
      (destroyed destructor l.postorder state) (by omega) (owns₁.of_eq (by ac_rfl))
    have there₂ : h₂.read e.addr = some node := owns₂.read (by simp)
    obtain ⟨h₃, ran₃, _, owns₃⟩ := owns₂.free
    refine ⟨h₃, ?_, owns₃⟩
    subst named
    have whole : destroyed destructor (BinaryTree.node e l r).postorder state =
        callDestructor destructor e.val
          (destroyed destructor r.postorder (destroyed destructor l.postorder state)) := by
      simp [destroyed, postorder]
    rw [whole]
    simp [nodeDestroy, there, there₁, there₂, record, ran₁, ran₂, ran₃]

end TsMap

/-! ### The abstract map -/

/-- What `ts_map` is for: a finite map, whose values may be null. -/
abbrev KeyMap (α : Type) := ExtTreeMap UInt64 (Option α)

inductive Call (α : Type) where
  | insert (key : UInt64) (val : Option α)
  | find (key : UInt64)
  | has (key : UInt64)
  | erase (key : UInt64)
  | size
  | forall
deriving DecidableEq, Repr

inductive Answer (α : Type) where
  | success (flag : Bool)
  | value (val : Option α)
  | has (flag : Bool)
  | size (count : Nat)
  /-- What `callback` was called with, in order. -/
  | visited (entries : List (UInt64 × Option α))
deriving DecidableEq, Repr

/-- The answer of the finite map, and the map after the call. -/
def KeyMap.call (abs : KeyMap α) : Call α → Answer α × KeyMap α
  | .insert key val => (.success (!abs.contains key), abs.insertIfNew key val)
  | .find key => (.value (abs[key]?).join, abs)
  | .has key => (.has (abs.contains key), abs)
  | .erase key => (.value (abs[key]?).join, abs.erase key)
  | .size => (.size abs.size, abs)
  | .forall => (.visited abs.toList, abs)

def KeyMap.calls (abs : KeyMap α) : List (Call α) → List (Answer α) × KeyMap α
  | [] => ([], abs)
  | call :: later =>
    let (answer, abs) := abs.call call
    let (answers, abs) := KeyMap.calls abs later
    (answer :: answers, abs)

def TsMap.call (m : TsMap α) : Call α → Option (Answer α × TsMap α)
  | .insert key val => (tsMapInsert m key val).map fun (flag, m) => (.success flag, m)
  | .find key => (tsMapFind m key).map fun (val, m) => (.value val, m)
  | .has key => (tsMapHas m key).map fun (flag, m) => (.has flag, m)
  | .erase key => (tsMapErase m key).map fun (val, m) => (.value val, m)
  | .size => (tsMapSize m).map fun count => (.size count, m)
  | .forall => (tsMapForall (fun key val visited => visited ++ [(key, val)]) m []).map
      fun visited => (.visited visited, m)

def TsMap.calls (m : TsMap α) : List (Call α) → Option (List (Answer α) × TsMap α)
  | [] => some ([], m)
  | call :: later => do
    let (answer, m) ← m.call call
    let (answers, m) ← TsMap.calls m later
    some (answer :: answers, m)

/-! ### The simulation -/

def TsMap.Entry.pair (e : Entry α) : UInt64 × Option α := (e.key, e.val)

/-- The heap holds a sorted tree with the entries of the finite map. -/
structure Tracks (m : TsMap α) (t : TsMap.Tree α) (abs : KeyMap α) : Prop where
  live : m.frosen = false
  root : m.root = rootPtr t
  owns : Owns m.heap (cellsOf none t + 0)
  sorted : Sorted t.inorder
  enumerates : Enumerates (t.inorder.map Entry.pair) abs

def Refines (m : TsMap α) (abs : KeyMap α) : Prop := ∃ t, Tracks m t abs

theorem TsMap.Sorted.increasing {sequence : List (Entry α)} (sorted : Sorted sequence) :
    Increasing (sequence.map Entry.pair) :=
  List.pairwise_map.mpr (sorted.imp fun less => compare_eq_lt.mpr less)

theorem tsMapInit_refines : Refines (tsMapInit : TsMap α) ∅ :=
  ⟨.nil, rfl, rfl, by simpa [cellsOf, tsMapInit] using owns_empty, .nil, by simp [Enumerates, inorder]⟩

theorem not_mem_of_missing {sequence : List (Entry α)} {abs : KeyMap α} {key : UInt64}
    (enumerates : Enumerates (sequence.map Entry.pair) abs) (missing : ∀ x ∈ sequence, x.key ≠ key) :
    abs[key]? = none := by
  apply enumerates.getElem?_eq_none
  intro x member
  obtain ⟨e, there, rfl⟩ := List.mem_map.mp member
  exact missing e there

theorem get_of_mem {sequence : List (Entry α)} {abs : KeyMap α} {e : Entry α}
    (enumerates : Enumerates (sequence.map Entry.pair) abs) (member : e ∈ sequence) :
    abs[e.key]? = some e.val :=
  (enumerates e.key e.val).mpr (List.mem_map_of_mem member)

/-- `insert` on the abstract side. -/
theorem TsMap.Adds.enumerates {key : UInt64} {val : Option α} {sequence sequence' : List (Entry α)}
    {success : Bool} {abs : KeyMap α} (adds : Adds key val sequence success sequence')
    (sorted : Sorted sequence) (enumerates : Enumerates (sequence.map Entry.pair) abs) :
    success = !abs.contains key ∧ Sorted sequence' ∧
      Enumerates (sequence'.map Entry.pair) (abs.insertIfNew key val) := by
  cases adds with
  | present x member found =>
    have there := found ▸ get_of_mem enumerates member
    have inside : key ∈ abs := by
      rw [ExtTreeMap.mem_iff_isSome_getElem?, there, Option.isSome_some]
    refine ⟨by simp [inside], sorted, ?_⟩
    intro key' value
    rw [ExtTreeMap.getElem?_insertIfNew, if_neg (by simp [inside]), enumerates]
  | added addr front behind parts less greater =>
    subst parts
    -- The keys before it are less and the keys behind it greater, so it is not there.
    have missing : ∀ x ∈ front ++ behind, x.key ≠ key := by
      intro x member same
      subst same
      rcases List.mem_append.mp member with member | member
      · exact UInt64.lt_irrefl _ (less x member)
      · exact UInt64.lt_irrefl _ (greater x member)
    have gone := not_mem_of_missing enumerates missing
    have outside : key ∉ abs := by
      rw [ExtTreeMap.mem_iff_isSome_getElem?, gone]
      simp
    obtain ⟨sortedFront, sortedBehind, cross⟩ := List.pairwise_append.mp sorted
    have flag : abs.contains key = false := by
      rw [ExtTreeMap.contains_eq_isSome_getElem?, gone, Option.isSome_none]
    refine ⟨by rw [flag]; rfl, ?_, ?_⟩
    · apply List.pairwise_append.mpr
      refine ⟨sortedFront, List.pairwise_cons.mpr ⟨greater, sortedBehind⟩, ?_⟩
      intro x inFront y inBehind
      rcases List.mem_cons.mp inBehind with rfl | inBehind
      · exact less x inFront
      · exact cross x inFront y inBehind
    · intro key' value
      have before := enumerates key' value
      rw [ExtTreeMap.getElem?_insertIfNew]
      simp only [Std.compare_eq_iff_eq, outside, not_false_eq_true, and_true]
      by_cases same : key = key'
      · subst same
        rw [gone] at before
        have absent : (key, value) ∉ (front ++ behind).map Entry.pair := by
          rw [← before]
          simp
        simp only [List.map_append, List.mem_append, not_or] at absent
        simp [Entry.pair, absent, eq_comm]
      · rw [if_neg same, before]
        simp [Entry.pair, Ne.symm same]

/-- `erase` on the abstract side. -/
theorem TsMap.Removes.enumerates {key : UInt64} {val : Option α} {sequence sequence' : List (Entry α)}
    {abs : KeyMap α} (removes : Removes key sequence val sequence') (sorted : Sorted sequence)
    (enumerates : Enumerates (sequence.map Entry.pair) abs) :
    val = (abs[key]?).join ∧ Sorted sequence' ∧
      Enumerates (sequence'.map Entry.pair) (abs.erase key) := by
  cases removes with
  | absent missing =>
    have gone := not_mem_of_missing enumerates missing
    refine ⟨by rw [gone]; rfl, sorted, ?_⟩
    intro key' value
    rw [ExtTreeMap.getElem?_erase, ← enumerates]
    by_cases same : key = key'
    · subst same
      simp [gone]
    · simp [same]
  | removed front behind e parts found =>
    subst parts found
    have there := get_of_mem enumerates (by simp : e ∈ front ++ e :: behind)
    -- In an ordered sequence no other entry has the key.
    obtain ⟨less, greater⟩ := sorted_node sorted
    refine ⟨by rw [there]; rfl, ?_, ?_⟩
    · exact sorted.sublist (List.Sublist.append_left (List.sublist_cons_self _ _) _)
    · intro key' value
      have before := enumerates key' value
      rw [ExtTreeMap.getElem?_erase]
      by_cases same : e.key = key'
      · subst same
        simp only [Std.compare_eq_iff_eq, if_true, List.mem_map, List.mem_append, reduceCtorEq,
          false_iff]
        rintro ⟨x, member, pair⟩
        have key : x.key = e.key := congrArg Prod.fst pair
        rcases member with member | member
        · exact UInt64.lt_irrefl _ (key ▸ less x member)
        · exact UInt64.lt_irrefl _ (key ▸ greater x member)
      · simp only [Std.compare_eq_iff_eq, same, if_false, before]
        simp [Entry.pair, Ne.symm same]

/-- `find`, followed by the look at the root that `ts_map_find` and `ts_map_has` take. -/
theorem Tracks.lookup {m : TsMap α} {t : TsMap.Tree α} {abs : KeyMap α} (tracks : Tracks m t abs)
    (key : UInt64) : ∃ root h hit, TsMap.find m.root key m.heap = some (root, h) ∧
      Refines { m with root := root, heap := h } abs ∧
      TsMap.hit { m with root := root, heap := h } key = some hit ∧
      hit.map Node.val = abs[key]? := by
  obtain ⟨live, root, owns, sorted, enumerates⟩ := tracks
  cases t with
  | nil =>
    refine ⟨none, m.heap, none, by rw [root]; rfl, ⟨.nil, live, rfl, owns, sorted, enumerates⟩, rfl, ?_⟩
    rw [not_mem_of_missing enumerates (by simp [inorder])]
    rfl
  | node e l r =>
    obtain ⟨h, x, l', r', ran, _, owns', same, nearest⟩ := find_spec key e l r 0 owns sorted
    have there := read_plug [] .left x l' r' 0 owns'
    have sorted' : Sorted (BinaryTree.node x l' r').inorder := same ▸ sorted
    rw [← same] at enumerates
    refine ⟨some x.addr, h, if x.key = key then h.read x.addr else none, by rw [root]; exact ran,
      ⟨.node x l' r', live, rfl, owns', sorted', enumerates⟩, ?_, ?_⟩
    · simp only [TsMap.hit, there, Option.map_some, record_key]
    · by_cases found : x.key = key
      · rw [if_pos found, there, ← found, get_of_mem enumerates (by simp [inorder])]
        rfl
      · rw [if_neg found, not_mem_of_missing enumerates (nearest.absent sorted' found)]
        rfl

theorem find_refines {m : TsMap α} {abs : KeyMap α} (refines : Refines m abs) (key : UInt64) :
    ∃ m', tsMapFind m key = some ((abs[key]?).join, m') ∧ Refines m' abs := by
  obtain ⟨t, tracks⟩ := refines
  obtain ⟨root, h, hit, ran, refines, looked, val⟩ := tracks.lookup key
  refine ⟨_, ?_, refines⟩
  rw [← val]
  simp only [tsMapFind, ran, looked, Option.bind_eq_bind, Option.bind_some]
  cases hit <;> rfl

theorem has_refines {m : TsMap α} {abs : KeyMap α} (refines : Refines m abs) (key : UInt64) :
    ∃ m', tsMapHas m key = some (abs.contains key, m') ∧ Refines m' abs := by
  obtain ⟨t, tracks⟩ := refines
  obtain ⟨root, h, hit, ran, refines, looked, val⟩ := tracks.lookup key
  refine ⟨_, ?_, refines⟩
  rw [ExtTreeMap.contains_eq_isSome_getElem?, ← val]
  simp only [tsMapHas, ran, looked, Option.bind_eq_bind, Option.bind_some]
  cases hit <;> rfl

theorem insert_refines {m : TsMap α} {abs : KeyMap α} (refines : Refines m abs) (key : UInt64)
    (val : Option α) : ∃ m', tsMapInsert m key val = some (!abs.contains key, m') ∧
      Refines m' (abs.insertIfNew key val) := by
  obtain ⟨t, live, root, owns, sorted, enumerates⟩ := refines
  obtain ⟨h, t', success, ran, owns', adds⟩ := add_spec key val t 0 owns sorted
  obtain ⟨flag, sorted', enumerates'⟩ := adds.enumerates sorted enumerates
  refine ⟨⟨h, rootPtr t', m.frosen⟩, ?_, t', live, rfl, owns', sorted', enumerates'⟩
  rw [← flag]
  simp [tsMapInsert, live, root, ran]

theorem erase_refines {m : TsMap α} {abs : KeyMap α} (refines : Refines m abs) (key : UInt64) :
    ∃ m', tsMapErase m key = some ((abs[key]?).join, m') ∧ Refines m' (abs.erase key) := by
  obtain ⟨t, live, root, owns, sorted, enumerates⟩ := refines
  obtain ⟨h, t', val, ran, owns', removes⟩ := remove_spec key t 0 owns sorted
  obtain ⟨taken, sorted', enumerates'⟩ := removes.enumerates sorted enumerates
  refine ⟨⟨h, rootPtr t', m.frosen⟩, ?_, t', live, rfl, owns', sorted', enumerates'⟩
  rw [← taken]
  simp [tsMapErase, live, root, ran]

theorem size_refines {m : TsMap α} {abs : KeyMap α} (refines : Refines m abs) :
    tsMapSize m = some abs.size := by
  obtain ⟨t, live, root, owns, sorted, enumerates⟩ := refines
  rw [tsMapSize, root, getSize_spec 0 owns, enumerates.size_eq sorted.increasing, List.length_map,
    length_inorder]

theorem Tracks.enough {m : TsMap α} {t : TsMap.Tree α} {abs : KeyMap α} (tracks : Tracks m t abs) :
    t.numNodes < budget m.heap :=
  Nat.lt_succ_of_le (numNodes_le_next 0 tracks.owns)

theorem forall_refines {m : TsMap α} {abs : KeyMap α} (refines : Refines m abs) :
    tsMapForall (fun key val visited => visited ++ [(key, val)]) m [] = some abs.toList := by
  obtain ⟨t, tracks⟩ := refines
  rw [tsMapForall, tracks.root, forallHelper_spec _ _ t none 0 [] tracks.enough tracks.owns,
    toList_eq tracks.sorted.increasing tracks.enumerates]
  have visits : ∀ (entries : List (Entry α)) (visited : List (UInt64 × Option α)),
      entries.foldl (fun visited e => visited ++ [(e.key, e.val)]) visited =
        visited ++ entries.map Entry.pair := by
    intro entries
    induction entries with
    | nil => simp
    | cons e entries ih =>
      intro visited
      simp [ih, Entry.pair]
  rw [visits, List.nil_append]

/-- `ts_map_destroy` runs, whatever its destructor does, and leaves no node. -/
theorem destroy_runs {m : TsMap α} {abs : KeyMap α} (refines : Refines m abs)
    (destructor : Option (Option α → σ → σ)) (state : σ) :
    ∃ m' state', tsMapDestroy destructor m state = some (m', state') ∧ Owns m'.heap 0 := by
  obtain ⟨t, tracks⟩ := refines
  obtain ⟨h, ran, owns⟩ := nodeDestroy_spec destructor (budget m.heap) t none 0 state tracks.enough
    tracks.owns
  refine ⟨⟨h, m.root, true⟩, destroyed destructor t.postorder state, ?_, owns⟩
  rw [tsMapDestroy, tracks.root, ran]
  rfl

/-- `ts_map_destroy` hands every stored value to the destructor once and leaves no node. -/
theorem destroy_refines {m : TsMap α} {abs : KeyMap α} (refines : Refines m abs) :
    ∃ m' vals, tsMapDestroy (some fun val vals => vals ++ [val]) m [] = some (m', vals) ∧
      vals.Perm (abs.toList.map Prod.snd) ∧ Owns m'.heap 0 := by
  obtain ⟨t, tracks⟩ := refines
  obtain ⟨h, ran, owns⟩ := nodeDestroy_spec (some fun val (vals : List (Option α)) => vals ++ [val])
    (budget m.heap) t none 0 [] tracks.enough tracks.owns
  refine ⟨⟨h, m.root, true⟩, t.postorder.map Entry.val, ?_, ?_, owns⟩
  · have collects : ∀ (entries : List (Entry α)) (vals : List (Option α)),
        destroyed (some fun val vals => vals ++ [val]) entries vals =
          vals ++ entries.map Entry.val := by
      intro entries
      induction entries with
      | nil => simp [destroyed]
      | cons e entries ih =>
        intro vals
        have later := ih (vals ++ [e.val])
        simp only [destroyed, List.foldl_cons, callDestructor] at later ⊢
        simp [later]
    rw [collects, List.nil_append] at ran
    rw [tsMapDestroy, tracks.root, ran]
    rfl
  · rw [toList_eq tracks.sorted.increasing tracks.enumerates, List.map_map]
    exact t.postorder_perm.map _

/-! ### Sequences of calls -/

theorem call_refines {m : TsMap α} {abs : KeyMap α} (refines : Refines m abs) (call : Call α) :
    ∃ m', m.call call = some ((abs.call call).1, m') ∧ Refines m' (abs.call call).2 := by
  cases call with
  | insert key val =>
    obtain ⟨m', ran, refines'⟩ := insert_refines refines key val
    exact ⟨m', by rw [TsMap.call, ran]; rfl, refines'⟩
  | find key =>
    obtain ⟨m', ran, refines'⟩ := find_refines refines key
    exact ⟨m', by rw [TsMap.call, ran]; rfl, refines'⟩
  | has key =>
    obtain ⟨m', ran, refines'⟩ := has_refines refines key
    exact ⟨m', by rw [TsMap.call, ran]; rfl, refines'⟩
  | erase key =>
    obtain ⟨m', ran, refines'⟩ := erase_refines refines key
    exact ⟨m', by rw [TsMap.call, ran]; rfl, refines'⟩
  | size => exact ⟨m, by rw [TsMap.call, size_refines refines]; rfl, refines⟩
  | «forall» => exact ⟨m, by rw [TsMap.call, forall_refines refines]; rfl, refines⟩

theorem calls_refines {m : TsMap α} {abs : KeyMap α} (refines : Refines m abs)
    (calls : List (Call α)) :
    ∃ m', m.calls calls = some ((abs.calls calls).1, m') ∧ Refines m' (abs.calls calls).2 := by
  induction calls generalizing m abs with
  | nil => exact ⟨m, rfl, refines⟩
  | cons call later ih =>
    obtain ⟨m₁, ran₁, refines₁⟩ := call_refines refines call
    obtain ⟨m₂, ran₂, refines₂⟩ := ih refines₁
    exact ⟨m₂, by simp [TsMap.calls, KeyMap.calls, ran₁, ran₂], refines₂⟩

theorem KeyMap.calls_append (abs : KeyMap α) (first later : List (Call α)) :
    abs.calls (first ++ later) =
      ((abs.calls first).1 ++ ((abs.calls first).2.calls later).1,
        ((abs.calls first).2.calls later).2) := by
  induction first generalizing abs with
  | nil => rfl
  | cons call first ih => simp [KeyMap.calls, ih]

theorem KeyMap.length_calls (abs : KeyMap α) (calls : List (Call α)) :
    (abs.calls calls).1.length = calls.length := by
  induction calls generalizing abs with
  | nil => rfl
  | cons call later ih => simp [KeyMap.calls, ih]

/-- A call that gives an answer between the answers of the other calls and changes none. -/
def Transparent (lookup : Call α) : Prop :=
  ∀ first later : List (Call α), ∃ before answer after,
    (tsMapInit.calls (first ++ lookup :: later)).map Prod.fst = some (before ++ answer :: after) ∧
    (tsMapInit.calls (first ++ later)).map Prod.fst = some (before ++ after) ∧
    before.length = first.length

theorem transparent_of_same {lookup : Call α} (same : ∀ abs : KeyMap α, (abs.call lookup).2 = abs) :
    Transparent lookup := by
  intro first later
  obtain ⟨m, ran, _⟩ := calls_refines tsMapInit_refines (first ++ lookup :: later)
  obtain ⟨m', ran', _⟩ := calls_refines tsMapInit_refines (first ++ later)
  refine ⟨_, ((KeyMap.calls ∅ first).2.call lookup).1, ((KeyMap.calls ∅ first).2.calls later).1, ?_,
    ?_, KeyMap.length_calls ∅ first⟩
  · rw [ran, KeyMap.calls_append]
    simp [KeyMap.calls, same]
  · rw [ran', KeyMap.calls_append]
    rfl

/-- Every sequence of calls on an initialised map gives the answers of the finite map, whose
list is in strictly increasing order of the keys; lookups change no other answer; and
`ts_map_destroy` then hands each stored value to the destructor exactly once. -/
theorem tsMap_refines_keyMap (calls : List (Call α)) :
    (∃ m, tsMapInit.calls calls = some ((KeyMap.calls ∅ calls).1, m) ∧
      ∃ m' vals, tsMapDestroy (some fun val vals => vals ++ [val]) m [] = some (m', vals) ∧
        vals.Perm ((KeyMap.calls ∅ calls).2.toList.map Prod.snd)) ∧
    (KeyMap.calls ∅ calls).2.toList.Pairwise (fun x y => x.1 < y.1) ∧
    ∀ key, Transparent (.find key : Call α) ∧ Transparent (.has key : Call α) := by
  obtain ⟨m, ran, refines⟩ := calls_refines tsMapInit_refines calls
  obtain ⟨m', vals, destroyed, perm, _⟩ := destroy_refines refines
  refine ⟨⟨m, ran, m', vals, destroyed, perm⟩, ?_, ?_⟩
  · exact ExtTreeMap.ordered_keys_toList.imp fun less => compare_eq_lt.mp less
  · intro key
    exact ⟨transparent_of_same fun _ => rfl, transparent_of_same fun _ => rfl⟩

end AcosChat

import AcosChat.ConnMgr.Memory

/-!
# The connection manager's memory refines its maps

Every uid of `uid_to_sid` points to a set of its own, and there are no other sets. Every call
that changes the maps runs, and leaves such a memory again.
-/
namespace AcosChat

open Std Store BinaryTree OrderedMap TsMap

variable {α σ : Type}

/-! ### Walks over a map -/

theorem Refines.forall_folds {m : TsMap α} {abs : KeyMap α} (refines : Refines m abs)
    (callback : UInt64 → Option α → σ → σ) (state : σ) :
    tsMapForall callback m state = some (abs.toList.foldl (fun s e => callback e.1 e.2 s) state) := by
  obtain ⟨t, tracks⟩ := refines
  rw [tsMapForall, tracks.root, forallHelper_spec _ _ t none 0 state tracks.enough tracks.owns,
    toList_eq tracks.sorted.increasing tracks.enumerates, List.foldl_map]
  rfl

theorem Refines.destroy_folds {m : TsMap α} {abs : KeyMap α} (refines : Refines m abs)
    (destructor : Option (Option α → σ → σ)) (state : σ) :
    ∃ (m' : TsMap α) (vals : List (Option α)), tsMapDestroy destructor m state =
        some (m', vals.foldl (fun s val => callDestructor destructor val s) state) ∧
      vals.Perm (abs.toList.map Prod.snd) ∧ Owns m'.heap 0 := by
  obtain ⟨t, tracks⟩ := refines
  obtain ⟨h, ran, owns⟩ := nodeDestroy_spec destructor (budget m.heap) t none 0 state tracks.enough
    tracks.owns
  refine ⟨⟨h, m.root, true⟩, t.postorder.map Entry.val, ?_, ?_, owns⟩
  · rw [tsMapDestroy, tracks.root, ran, List.foldl_map]
    rfl
  · rw [toList_eq tracks.sorted.increasing tracks.enumerates, List.map_map]
    exact t.postorder_perm.map _

theorem insertIfNew_of_mem {abs : KeyMap α} {key : UInt64} {val : Option α} (inside : key ∈ abs) :
    abs.insertIfNew key val = abs := by
  apply ExtTreeMap.ext_getElem?
  intro w
  simp [ExtTreeMap.getElem?_insertIfNew, inside]

theorem get_insertIfNew {abs : KeyMap α} {key : UInt64} {val : Option α} (outside : key ∉ abs) :
    (abs.insertIfNew key val)[key]? = some val := by
  rw [ExtTreeMap.getElem?_insertIfNew, if_pos ⟨Std.compare_eq_iff_eq.mpr rfl, outside⟩]

/-! ### What the memory stands for -/

/-- The maps of the memory have the sockets and the uids of the manager; every uid points to a
set of its own, and every set that is allocated is that of a uid. -/
structure Embodies (mem : MgrMemory) (addrs : KeyMap Nat) (mgr : ConnMgr) : Prop where
  sids : Refines mem.sidToUid mgr.sidToUid
  uids : Refines mem.uidToSid addrs
  absent : ∀ w : UInt64, addrs[w]? = none → mgr.uidToSid[w]? = none
  present : ∀ (w : UInt64) p, addrs[w]? = some p → ∃ a m set, p = some a ∧ mem.sets.read a = some m ∧
    mgr.uidToSid[w]? = some (some set) ∧ Refines m set
  apart : ∀ (w w' : UInt64) a, addrs[w]? = some (some a) → addrs[w']? = some (some a) → w = w'
  used : ∀ a m, mem.sets.read a = some m → ∃ w : UInt64, addrs[w]? = some (some a)
  bounded : Bounded mem.sets
  freed : ∀ m ∈ mem.freed, Owns m.heap 0

def Stands (mem : MgrMemory) (mgr : ConnMgr) : Prop := ∃ addrs, Embodies mem addrs mgr

theorem init_stands : Stands MgrMemory.init initConnMgr := by
  refine ⟨∅, tsMapInit_refines, tsMapInit_refines, ?_, ?_, ?_, ?_, ?_, ?_⟩
  · intro w _
    simp [initConnMgr]
  · intro w p there
    simp at there
  · intro w w' a there
    simp at there
  · intro a m there
    simp [MgrMemory.init, Store.empty, Store.read] at there
  · intro a m there
    simp [MgrMemory.init, Store.empty] at there
  · intro m member
    simp [MgrMemory.init] at member

namespace Embodies

variable {mem : MgrMemory} {addrs : KeyMap Nat} {mgr : ConnMgr} {ρ : Type}

/-- The map of sockets is replaced in both. -/
theorem setSids (embodies : Embodies mem addrs mgr) {map : TsMap UInt64} {abs : KeyMap UInt64}
    (refines : Refines map abs) :
    Embodies { mem with sidToUid := map } addrs { mgr with sidToUid := abs } :=
  { embodies with sids := refines }

/-- `find` splays the tree of uids. -/
theorem setUids (embodies : Embodies mem addrs mgr) {map : TsMap Nat} (refines : Refines map addrs) :
    Embodies { mem with uidToSid := map } addrs mgr :=
  { embodies with uids := refines }

/-- A call on the set of a uid. -/
theorem callOn (embodies : Embodies mem addrs mgr) {w : UInt64} {a : Nat} {set : Sessions}
    (there : addrs[w]? = some (some a)) (known : mgr.uidToSid[w]? = some (some set))
    {f : TsMap Unit → Option (ρ × TsMap Unit)} {answer : ρ} {set' : Sessions}
    (runs : ∀ m, Refines m set → ∃ m', f m = some (answer, m') ∧ Refines m' set') :
    ∃ mem', mem.callOn a f = some (answer, mem') ∧
      Embodies mem' addrs { mgr with uidToSid := mgr.uidToSid.insert w (some set') } := by
  obtain ⟨a', m, set₀, same, read, known', refines⟩ := embodies.present w _ there
  cases same
  rw [known] at known'
  cases known'
  obtain ⟨m', ran, refines'⟩ := runs m refines
  obtain ⟨sets', modified⟩ : ∃ sets', mem.sets.modify a (fun _ => m') = some sets' :=
    ⟨_, by rw [Store.modify, show mem.sets.cells a = some m from read, Option.map_some]⟩
  obtain ⟨m₀, _, next, reads⟩ := modify_eq_some modified
  refine ⟨{ mem with sets := sets' }, by simp [MgrMemory.callOn, read, ran, modified], ?_⟩
  constructor
  · exact embodies.sids
  · exact embodies.uids
  · intro w' missing
    have other : w ≠ w' := by
      rintro rfl
      rw [there] at missing
      cases missing
    simp [ExtTreeMap.getElem?_insert, other, embodies.absent w' missing]
  · intro w' p there'
    obtain ⟨b, n, other, rfl, read', known', refines₀⟩ := embodies.present w' p there'
    by_cases same : w = w'
    · -- the set of this uid
      subst same
      rw [there] at there'
      cases there'
      exact ⟨a, m', set', rfl, by simp [reads], by simp, refines'⟩
    · -- the set of another uid is at another address
      have distinct : b ≠ a := by
        rintro rfl
        exact same (embodies.apart w w' b there there')
      refine ⟨b, n, other, rfl, by simp [reads, distinct, read'], ?_, refines₀⟩
      simp [ExtTreeMap.getElem?_insert, same, known']
  · exact embodies.apart
  · intro b n read'
    by_cases same : b = a
    · exact ⟨w, same ▸ there⟩
    · exact embodies.used b n (by simpa [reads, same] using read')
  · intro b n found
    change sets'.read b = some n at found
    rw [next]
    by_cases same : b = a
    · exact same ▸ embodies.bounded a m read
    · have read' := reads b
      rw [if_neg same] at read'
      exact embodies.bounded b n (read'.symm.trans found)
  · exact embodies.freed

/-- `ts_map_find` gives the null pointer or the address of the set. -/
theorem findSet (embodies : Embodies mem addrs mgr) (uid : Int32) :
    ∃ map, mem.findSet uid = some ((addrs[wordOfInt uid]?).join, { mem with uidToSid := map }) ∧
      Embodies { mem with uidToSid := map } addrs mgr := by
  obtain ⟨map, ran, refines⟩ := find_refines embodies.uids (wordOfInt uid)
  exact ⟨map, by rw [MgrMemory.findSet, ran]; rfl, embodies.setUids refines⟩

/-- A call on the set that is found, as the finite maps have it. -/
theorem updateSet (embodies : Embodies mem addrs mgr) (uid : Int32)
    {f : TsMap Unit → Option (ρ × TsMap Unit)} {answer : Sessions → ρ} {g : Sessions → Sessions}
    (runs : ∀ m set, mgr.sessions uid = some set → Refines m set →
      ∃ m', f m = some (answer set, m') ∧ Refines m' (g set)) :
    ∃ mem', mem.updateSet uid f = some ((mgr.sessions uid).map answer, mem') ∧
      Embodies mem' addrs (mgr.updateSessions uid g) := by
  obtain ⟨map, found, embodies₁⟩ := embodies.findSet uid
  cases there : addrs[wordOfInt uid]? with
  | none =>
    have null : mgr.sessions uid = none := by rw [ConnMgr.sessions, embodies.absent _ there]; rfl
    refine ⟨_, ?_, by rw [ConnMgr.updateSessions, null]; exact embodies₁⟩
    simp [MgrMemory.updateSet, found, there, null]
  | some p =>
    obtain ⟨a, m, set, rfl, _, known, _⟩ := embodies.present _ p there
    have set_eq : mgr.sessions uid = some set := by rw [ConnMgr.sessions, known]; rfl
    obtain ⟨mem', ran, embodies'⟩ := embodies₁.callOn there known fun m => runs m set set_eq
    refine ⟨mem', ?_, by rw [ConnMgr.updateSessions, set_eq]; exact embodies'⟩
    simp [MgrMemory.updateSet, found, there, set_eq, ran]

/-- A call on a set that leaves it as it is. -/
theorem readSet (embodies : Embodies mem addrs mgr) (uid : Int32)
    (f : TsMap Unit → Option (ρ × TsMap Unit)) (answer : Sessions → ρ)
    (runs : ∀ m set, mgr.sessions uid = some set → Refines m set → f m = some (answer set, m)) :
    ∃ mem', mem.updateSet uid f = some ((mgr.sessions uid).map answer, mem') ∧ Embodies mem' addrs mgr := by
  obtain ⟨mem', ran, embodies'⟩ := embodies.updateSet uid (g := id)
    (fun m set known refines => ⟨m, runs m set known refines, refines⟩)
  refine ⟨mem', ran, ?_⟩
  have same : mgr.updateSessions uid id = mgr := by
    rw [ConnMgr.updateSessions]
    cases known : mgr.sessions uid with
    | none => rfl
    | some set =>
      obtain ⟨sids, uids⟩ := mgr
      have stored : uids[wordOfInt uid]? = some (some set) := Option.join_eq_some_iff.mp known
      simp only [id_eq, ConnMgr.mk.injEq, true_and]
      apply ExtTreeMap.ext_getElem?
      intro w
      by_cases same : wordOfInt uid = w
      · subst same
        simp [stored]
      · simp [ExtTreeMap.getElem?_insert, same]
  rwa [same] at embodies'

theorem eraseSid (embodies : Embodies mem addrs mgr) (key : UInt64) :
    ∃ mem', mem.eraseSid key = some ((mgr.sidToUid[key]?).join, mem') ∧
      Embodies mem' addrs { mgr with sidToUid := mgr.sidToUid.erase key } := by
  obtain ⟨map, ran, refines⟩ := erase_refines embodies.sids key
  exact ⟨_, by rw [MgrMemory.eraseSid, ran]; rfl, embodies.setSids refines⟩

theorem insertSid (embodies : Embodies mem addrs mgr) (sid : Int32) (uid : Option UInt64) :
    ∃ mem', mem.insertSid sid uid = some mem' ∧
      Embodies mem' addrs { mgr with sidToUid := mgr.sidToUid.insertIfNew (wordOfInt sid) uid } := by
  obtain ⟨map, ran, refines⟩ := insert_refines embodies.sids (wordOfInt sid) uid
  exact ⟨_, by rw [MgrMemory.insertSid, ran]; rfl, embodies.setSids refines⟩

/-! ### The calls -/

/-- The set of a uid loses or gains a socket. -/
theorem eraseFrom (embodies : Embodies mem addrs mgr) (uid sid : Int32) :
    ∃ answer mem', mem.updateSet uid (fun m => tsMapErase m (wordOfInt sid)) = some (answer, mem') ∧
      Embodies mem' addrs (mgr.updateSessions uid fun m => m.erase (wordOfInt sid)) := by
  obtain ⟨mem', ran, embodies'⟩ := embodies.updateSet uid
    (fun _ _ _ refines => erase_refines refines (wordOfInt sid))
  exact ⟨_, mem', ran, embodies'⟩

theorem insertInto (embodies : Embodies mem addrs mgr) (uid sid : Int32) :
    ∃ answer mem', mem.updateSet uid (fun m => tsMapInsert m (wordOfInt sid) none) = some (answer, mem') ∧
      Embodies mem' addrs (mgr.updateSessions uid fun m => m.insertIfNew (wordOfInt sid) none) := by
  obtain ⟨mem', ran, embodies'⟩ := embodies.updateSet uid
    (fun _ _ _ refines => insert_refines refines (wordOfInt sid) none)
  exact ⟨_, mem', ran, embodies'⟩

theorem delSid (embodies : Embodies mem addrs mgr) (sid : Int32) :
    ∃ mem', mem.delSid sid = some mem' ∧ Embodies mem' addrs (mgr.delSid sid) := by
  obtain ⟨mem₁, ran₁, embodies₁⟩ := embodies.eraseSid (wordOfInt sid)
  obtain ⟨_, mem₂, ran₂, embodies₂⟩ :=
    embodies₁.eraseFrom (ptrUid (mgr.sidToUid[wordOfInt sid]?).join) sid
  exact ⟨mem₂, by simp [MgrMemory.delSid, ran₁, ran₂], embodies₂⟩

theorem connectSidUid (embodies : Embodies mem addrs mgr) (sid uid : Int32) :
    ∃ mem', mem.connectSidUid sid uid = some mem' ∧ Embodies mem' addrs (mgr.connectSidUid sid uid) := by
  obtain ⟨map, has, refines⟩ := has_refines embodies.sids (wordOfInt sid)
  have embodies₀ := embodies.setSids refines
  cases known : mgr.sidToUid.contains (wordOfInt sid) with
  | false =>
    refine ⟨{ mem with sidToUid := map }, by simp [MgrMemory.connectSidUid, has, known], ?_⟩
    rw [ConnMgr.connectSidUid, known, if_neg (by simp)]
    exact embodies₀
  | true =>
    obtain ⟨mem₁, ran₁, embodies₁⟩ := embodies₀.eraseSid (wordOfInt sid)
    obtain ⟨_, mem₂, ran₂, embodies₂⟩ :=
      embodies₁.eraseFrom (ptrUid (mgr.sidToUid[wordOfInt sid]?).join) sid
    obtain ⟨mem₃, ran₃, embodies₃⟩ := embodies₂.insertSid sid (uidPtr uid)
    obtain ⟨_, mem₄, ran₄, embodies₄⟩ := embodies₃.insertInto uid sid
    refine ⟨mem₄, by simp [MgrMemory.connectSidUid, has, known, ran₁, ran₂, ran₃, ran₄], ?_⟩
    rw [ConnMgr.connectSidUid, known, if_pos rfl]
    exact embodies₄

/-- A set is emptied and freed. -/
theorem discard_runs (mem : MgrMemory) {a : Nat} {m : TsMap Unit} {set : Sessions}
    (there : mem.sets.read a = some m) (refines : Refines m set) :
    ∃ sets' m', mem.discard a = some { mem with sets := sets', freed := mem.freed ++ [m'] } ∧
      sets'.next = mem.sets.next ∧ (∀ b, sets'.read b = if b = a then none else mem.sets.read b) ∧
      Owns m'.heap 0 := by
  obtain ⟨m', _, destroyed, empty⟩ := destroy_runs refines none ()
  obtain ⟨sets', freed⟩ : ∃ sets', mem.sets.free a = some sets' :=
    ⟨_, by rw [Store.free, show mem.sets.cells a = some m from there, Option.map_some]⟩
  obtain ⟨_, _, next, reads⟩ := free_eq_some freed
  exact ⟨sets', m', by simp [MgrMemory.discard, there, destroyed, freed], next, reads, empty⟩

/-- The sets are those of before, but for one that has been allocated and freed again. -/
theorem sameSets (embodies : Embodies mem addrs mgr) {map : TsMap Nat} {sets' : Store (TsMap Unit)}
    {m' : TsMap Unit} (refines : Refines map addrs) (reads : ∀ b, sets'.read b = mem.sets.read b)
    (next : sets'.next = mem.sets.next + 1) (empty : Owns m'.heap 0) :
    Embodies { mem with uidToSid := map, sets := sets', freed := mem.freed ++ [m'] } addrs mgr := by
  refine { embodies with uids := refines, present := ?_, used := ?_, bounded := ?_, freed := ?_ }
  · intro w q there
    obtain ⟨a, m, set, isAddr, read, known, refines'⟩ := embodies.present w q there
    exact ⟨a, m, set, isAddr, (reads a).trans read, known, refines'⟩
  · intro a m there
    exact embodies.used a m ((reads a).symm.trans there)
  · intro a m there
    have bound := embodies.bounded a m ((reads a).symm.trans there)
    change a < sets'.next
    omega
  · intro m member
    rcases List.mem_append.mp member with member | member
    · exact embodies.freed m member
    · rw [List.mem_singleton.mp member]
      exact empty

/-- Nothing is at the address that is given out next. -/
theorem unused (embodies : Embodies mem addrs mgr) : mem.sets.read mem.sets.next = none := by
  cases there : mem.sets.read mem.sets.next with
  | none => rfl
  | some m => exact absurd (embodies.bounded _ m there) (Nat.lt_irrefl _)

/-- A uid that has no set gets a new one. -/
theorem adopt (embodies : Embodies mem addrs mgr) {key : UInt64} (known : addrs[key]? = none)
    {map : TsMap Nat} (refines : Refines map (addrs.insertIfNew key (some mem.sets.next))) :
    Embodies { mem with sets := (mem.sets.alloc tsMapInit).2, uidToSid := map }
      (addrs.insertIfNew key (some mem.sets.next))
      { mgr with uidToSid := mgr.uidToSid.insertIfNew key (some ∅) } := by
  have outside : key ∉ addrs := by
    rw [ExtTreeMap.mem_iff_isSome_getElem?, known]
    simp
  have outside' : key ∉ mgr.uidToSid := by
    rw [ExtTreeMap.mem_iff_isSome_getElem?, embodies.absent _ known]
    simp
  have reads := read_alloc mem.sets (tsMapInit : TsMap Unit)
  have old : ∀ w, key ≠ w → (addrs.insertIfNew key (some mem.sets.next))[w]? = addrs[w]? := by
    intro w other
    simp [ExtTreeMap.getElem?_insertIfNew, other]
  have new : (addrs.insertIfNew key (some mem.sets.next))[key]? = some (some mem.sets.next) :=
    get_insertIfNew outside
  -- no other uid has the new address
  have notYet : ∀ w : UInt64, addrs[w]? ≠ some (some mem.sets.next) := by
    intro w there
    obtain ⟨a, m, _, isAddr, read, _⟩ := embodies.present w _ there
    cases isAddr
    rw [embodies.unused] at read
    cases read
  constructor
  · exact embodies.sids
  · exact refines
  · intro w missing
    by_cases same : key = w
    · rw [← same, new] at missing
      cases missing
    · rw [old w same] at missing
      simp [ExtTreeMap.getElem?_insertIfNew, same, embodies.absent w missing]
  · intro w p there
    by_cases same : key = w
    · rw [← same, new] at there
      cases there
      exact ⟨mem.sets.next, tsMapInit, ∅, rfl, by simp [reads], same ▸ get_insertIfNew outside',
        tsMapInit_refines⟩
    · rw [old w same] at there
      obtain ⟨a, m, set, rfl, read, known', refines'⟩ := embodies.present w p there
      have other : a ≠ mem.sets.next := by
        rintro rfl
        exact notYet w there
      refine ⟨a, m, set, rfl, by simp [reads, other, read], ?_, refines'⟩
      simp [ExtTreeMap.getElem?_insertIfNew, same, known']
  · intro w w' a there there'
    by_cases same : key = w
    · by_cases same' : key = w'
      · rw [← same, same']
      · rw [← same, new] at there
        cases there
        exact absurd ((old w' same').symm.trans there') (notYet w')
    · rw [old w same] at there
      by_cases same' : key = w'
      · rw [← same', new] at there'
        cases there'
        exact absurd there (notYet w)
      · rw [old w' same'] at there'
        exact embodies.apart w w' a there there'
  · intro a m there
    rw [reads] at there
    by_cases fresh : a = mem.sets.next
    · subst fresh
      exact ⟨key, new⟩
    · rw [if_neg fresh] at there
      obtain ⟨w, known'⟩ := embodies.used a m there
      have other : key ≠ w := by
        rintro rfl
        rw [known] at known'
        cases known'
      exact ⟨w, (old w other).trans known'⟩
  · intro a m there
    have there' := reads a
    by_cases fresh : a = mem.sets.next
    · exact fresh ▸ Nat.lt_succ_self _
    · rw [if_neg fresh] at there'
      exact Nat.lt_succ_of_lt (embodies.bounded a m (there'.symm.trans there))
  · exact embodies.freed

/-- `conn_mgr_add_uid` frees its set again if the uid has one already. -/
theorem addUid (embodies : Embodies mem addrs mgr) (uid : Int32) :
    ∃ mem', mem.addUid uid = some mem' ∧ Stands mem' (mgr.addUid uid) := by
  obtain ⟨map, inserted, refines⟩ :=
    insert_refines embodies.uids (wordOfInt uid) (some mem.sets.next)
  cases known : addrs[wordOfInt uid]? with
  | none =>
    have outside : wordOfInt uid ∉ addrs := by
      rw [ExtTreeMap.mem_iff_isSome_getElem?, known]
      simp
    refine ⟨_, ?_, _, embodies.adopt known refines⟩
    simp only [MgrMemory.addUid, Store.alloc, inserted]
    simp [outside]
  | some p =>
    obtain ⟨_, _, _, _, _, known', _⟩ := embodies.present _ p known
    have inside : wordOfInt uid ∈ addrs := by
      rw [ExtTreeMap.mem_iff_isSome_getElem?, known, Option.isSome_some]
    have inside' : wordOfInt uid ∈ mgr.uidToSid := by
      rw [ExtTreeMap.mem_iff_isSome_getElem?, known', Option.isSome_some]
    rw [insertIfNew_of_mem inside] at refines
    obtain ⟨sets', m', ran, next, reads, empty⟩ := discard_runs
      { mem with sets := (mem.sets.alloc tsMapInit).2, uidToSid := map }
      (a := mem.sets.next) (by simp [read_alloc]) (tsMapInit_refines (α := Unit))
    have reads' : ∀ b, sets'.read b = mem.sets.read b := by
      intro b
      rw [reads, read_alloc]
      by_cases fresh : b = mem.sets.next
      · simp [fresh, embodies.unused]
      · simp [fresh]
    refine ⟨{ mem with uidToSid := map, sets := sets', freed := mem.freed ++ [m'] }, ?_, addrs, ?_⟩
    · simp only [MgrMemory.addUid, Store.alloc, inserted] at ran ⊢
      simp [inside, ran]
    · rw [ConnMgr.addUid, insertIfNew_of_mem inside']
      exact embodies.sameSets refines reads' next empty

/-- `del_uid_helper` for every socket of a set. -/
theorem delUidHelper_runs (entries : List (UInt64 × Option Unit)) (mem : MgrMemory)
    {sids : KeyMap UInt64} (refines : Refines mem.sidToUid sids) :
    ∃ map, entries.foldl (fun mem e => MgrMemory.delUidHelper e.1 mem) (some mem) =
        some { mem with sidToUid := map } ∧
      Refines map (entries.foldl (fun sids e => sids.erase e.1) sids) := by
  induction entries generalizing mem sids with
  | nil => exact ⟨mem.sidToUid, rfl, refines⟩
  | cons e entries ih =>
    obtain ⟨map, erased, refines'⟩ := erase_refines refines e.1
    obtain ⟨map', ran, refines''⟩ := ih { mem with sidToUid := map } refines'
    refine ⟨map', ?_, refines''⟩
    rw [List.foldl_cons, ← ran]
    simp [MgrMemory.delUidHelper, MgrMemory.eraseSid, erased]

theorem delUidHelper_eq (entries : List (UInt64 × Option Unit)) (mgr : ConnMgr) :
    entries.foldl (fun mgr e => mgr.delUidHelper e.1) mgr =
      { mgr with sidToUid := entries.foldl (fun sids e => sids.erase e.1) mgr.sidToUid } := by
  induction entries generalizing mgr with
  | nil => rfl
  | cons e entries ih => rw [List.foldl_cons, ih]; rfl

/-- A uid without a set is taken out of the maps. -/
theorem eraseAbsent (embodies : Embodies mem addrs mgr) {key : UInt64} (known : addrs[key]? = none)
    {map : TsMap Nat} (refines : Refines map (addrs.erase key)) :
    Embodies { mem with uidToSid := map } (addrs.erase key)
      { mgr with uidToSid := mgr.uidToSid.erase key } := by
  have same : addrs.erase key = addrs := by
    apply ExtTreeMap.ext_getElem?
    intro w
    by_cases same : key = w
    · simp [← same, known]
    · simp [ExtTreeMap.getElem?_erase, same]
  have same' : mgr.uidToSid.erase key = mgr.uidToSid := by
    apply ExtTreeMap.ext_getElem?
    intro w
    by_cases same : key = w
    · simp [← same, embodies.absent key known]
    · simp [ExtTreeMap.getElem?_erase, same]
  rw [same] at refines ⊢
  rw [same']
  exact embodies.setUids refines

/-- A uid is taken out of the maps, and its set is freed. -/
theorem abandon (embodies : Embodies mem addrs mgr) {key : UInt64} {a : Nat}
    (known : addrs[key]? = some (some a)) {map : TsMap Nat} (refines : Refines map (addrs.erase key))
    {sids : TsMap UInt64} {abs : KeyMap UInt64} (refines' : Refines sids abs)
    {sets' : Store (TsMap Unit)} {m' : TsMap Unit} (next : sets'.next = mem.sets.next)
    (reads : ∀ b, sets'.read b = if b = a then none else mem.sets.read b) (empty : Owns m'.heap 0) :
    Embodies ⟨sids, map, sets', mem.freed ++ [m']⟩ (addrs.erase key)
      ⟨abs, mgr.uidToSid.erase key⟩ := by
  have gone : (addrs.erase key)[key]? = none := by simp
  have old : ∀ w, key ≠ w → (addrs.erase key)[w]? = addrs[w]? := by
    intro w other
    simp [ExtTreeMap.getElem?_erase, other]
  -- the other uids have other addresses
  have elsewhere : ∀ w b, key ≠ w → addrs[w]? = some (some b) → b ≠ a := by
    rintro w b other there rfl
    exact other (embodies.apart key w b known there)
  constructor
  · exact refines'
  · exact refines
  · intro w missing
    by_cases same : key = w
    · simp [← same]
    · rw [old w same] at missing
      simp [ExtTreeMap.getElem?_erase, same, embodies.absent w missing]
  · intro w p there
    have other : key ≠ w := by
      rintro rfl
      rw [gone] at there
      cases there
    rw [old w other] at there
    obtain ⟨b, m, set, rfl, read, known', refines₀⟩ := embodies.present w p there
    refine ⟨b, m, set, rfl, by simp [reads, elsewhere w b other there, read], ?_, refines₀⟩
    simp [ExtTreeMap.getElem?_erase, other, known']
  · intro w w' b there there'
    have other : key ≠ w := by
      rintro rfl
      rw [gone] at there
      cases there
    have other' : key ≠ w' := by
      rintro rfl
      rw [gone] at there'
      cases there'
    exact embodies.apart w w' b ((old w other).symm.trans there) ((old w' other').symm.trans there')
  · intro b m there
    have there' : (if b = a then none else mem.sets.read b) = some m := (reads b).symm.trans there
    by_cases same : b = a
    · rw [if_pos same] at there'
      cases there'
    · rw [if_neg same] at there'
      obtain ⟨w, known'⟩ := embodies.used b m there'
      have other : key ≠ w := by
        rintro rfl
        rw [known] at known'
        cases known'
        exact same rfl
      exact ⟨w, (old w other).trans known'⟩
  · intro b m there
    have there' : (if b = a then none else mem.sets.read b) = some m := (reads b).symm.trans there
    by_cases same : b = a
    · rw [if_pos same] at there'
      cases there'
    · rw [if_neg same] at there'
      change b < sets'.next
      rw [next]
      exact embodies.bounded b m there'
  · intro m member
    rcases List.mem_append.mp member with member | member
    · exact embodies.freed m member
    · rw [List.mem_singleton.mp member]
      exact empty

theorem delUid (embodies : Embodies mem addrs mgr) (uid : Int32) :
    ∃ mem', mem.delUid uid = some mem' ∧ Stands mem' (mgr.delUid uid) := by
  obtain ⟨map, erased, refines⟩ := erase_refines embodies.uids (wordOfInt uid)
  cases known : addrs[wordOfInt uid]? with
  | none =>
    refine ⟨{ mem with uidToSid := map }, by simp [MgrMemory.delUid, erased, known],
      addrs.erase (wordOfInt uid), ?_⟩
    have null : mgr.sessions uid = none := by rw [ConnMgr.sessions, embodies.absent _ known]; rfl
    rw [ConnMgr.delUid, null]
    exact embodies.eraseAbsent known refines
  | some p =>
    obtain ⟨a, m, set, rfl, read, known', refines₀⟩ := embodies.present _ p known
    obtain ⟨sids, walked, refines'⟩ :=
      delUidHelper_runs set.toList { mem with uidToSid := map } embodies.sids
    obtain ⟨sets', m', ran, next, reads, empty⟩ := discard_runs
      { mem with sidToUid := sids, uidToSid := map } read refines₀
    refine ⟨⟨sids, map, sets', mem.freed ++ [m']⟩, ?_, addrs.erase (wordOfInt uid), ?_⟩
    · have visited := refines₀.forall_folds (fun key _ mem => MgrMemory.delUidHelper key mem)
        (some { mem with uidToSid := map })
      rw [walked] at visited
      simp [MgrMemory.delUid, erased, known, read, visited, ran]
    · have set_eq : mgr.sessions uid = some set := by rw [ConnMgr.sessions, known']; rfl
      rw [ConnMgr.delUid, set_eq]
      simp only
      rw [delUidHelper_eq]
      exact embodies.abandon known refines refines' next reads empty

end Embodies

theorem Stands.call {mem : MgrMemory} {mgr : ConnMgr} (stands : Stands mem mgr) (call : ConnCall) :
    ∃ mem', mem.call call = some mem' ∧ Stands mem' (mgr.call call) := by
  obtain ⟨addrs, embodies⟩ := stands
  cases call with
  | addSid sid =>
    obtain ⟨mem', ran, embodies'⟩ := embodies.insertSid sid none
    exact ⟨mem', ran, addrs, embodies'⟩
  | addUid uid => exact embodies.addUid uid
  | delSid sid =>
    obtain ⟨mem', ran, embodies'⟩ := embodies.delSid sid
    exact ⟨mem', ran, addrs, embodies'⟩
  | delUid uid => exact embodies.delUid uid
  | connectSidUid sid uid =>
    obtain ⟨mem', ran, embodies'⟩ := embodies.connectSidUid sid uid
    exact ⟨mem', ran, addrs, embodies'⟩

end AcosChat

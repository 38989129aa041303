import AcosChat.ConnMgr.Refinement

/-!
# The answers of the connection manager, and its end

The functions that read the maps give the answers of the finite maps, and so does every
sequence of calls; `destroy_conn_mgr` frees the nodes of both maps, and every set once.
-/
namespace AcosChat

open Std Store OrderedMap TsMap

namespace Embodies

variable {mem : MgrMemory} {addrs : KeyMap Nat} {mgr : ConnMgr} {σ : Type}

theorem getUid (embodies : Embodies mem addrs mgr) (sid : Int32) :
    ∃ mem', mem.getUid sid = some (mgr.getUid sid, mem') ∧ Embodies mem' addrs mgr := by
  obtain ⟨map, ran, refines⟩ := find_refines embodies.sids (wordOfInt sid)
  exact ⟨_, by rw [MgrMemory.getUid, ran]; rfl, embodies.setSids refines⟩

theorem forallUid (embodies : Embodies mem addrs mgr) (uid : Int32) (callback : UInt64 → σ → σ)
    (state : σ) : ∃ mem', mem.forallUid uid callback state = some (mgr.forallUid uid callback state, mem') ∧
      Embodies mem' addrs mgr := by
  obtain ⟨mem', ran, embodies'⟩ := embodies.readSet uid
    (fun m => (tsMapForall (fun key _ state => callback key state) m state).map fun state => (state, m))
    (fun set => set.toList.foldl (fun state e => callback e.1 state) state) (by
      intro m set _ refines
      rw [refines.forall_folds]
      rfl)
  refine ⟨mem', ?_, embodies'⟩
  simp only [MgrMemory.forallUid, ran, ConnMgr.forallUid, Option.bind_eq_bind, Option.bind_some]
  cases mgr.sessions uid <;> rfl

theorem getNumberOfSessions (embodies : Embodies mem addrs mgr) (uid : Int32) :
    ∃ mem', mem.getNumberOfSessions uid = some (mgr.getNumberOfSessions uid, mem') ∧
      Embodies mem' addrs mgr := by
  obtain ⟨mem', ran, embodies'⟩ := embodies.readSet uid
    (fun m => (numberOfSessions (some m)).map fun ans => (ans, m))
    (fun _ => mgr.getNumberOfSessions uid) (by
      intro m set known refines
      rw [ConnMgr.getNumberOfSessions_eq_read known refines]
      rfl)
  refine ⟨mem', ?_, embodies'⟩
  simp only [MgrMemory.getNumberOfSessions, ran, Option.bind_eq_bind, Option.bind_some]
  cases known : mgr.sessions uid with
  | none => simp [ConnMgr.getNumberOfSessions, known]
  | some set => rfl

/-- The uids of the map of addresses, with their sets. -/
theorem toList_eq_map (embodies : Embodies mem addrs mgr) :
    mgr.uidToSid.toList = addrs.toList.map fun e => (e.1, (mgr.uidToSid[e.1]?).join) := by
  apply toList_eq
  · exact List.pairwise_map.mpr ExtTreeMap.ordered_keys_toList
  · intro key value
    constructor
    · intro known
      cases there : addrs[key]? with
      | none =>
        rw [embodies.absent key there] at known
        cases known
      | some p =>
        obtain ⟨_, _, set, _, _, known', _⟩ := embodies.present key p there
        refine List.mem_map.mpr ⟨(key, p), ExtTreeMap.mem_toList_iff_getElem?_eq_some.mpr there, ?_⟩
        rw [known] at known'
        cases known'
        simp [known]
    · intro member
      obtain ⟨⟨w, p⟩, there, pair⟩ := List.mem_map.mp member
      obtain ⟨_, _, set, _, _, known, _⟩ :=
        embodies.present w p (ExtTreeMap.mem_toList_iff_getElem?_eq_some.mp there)
      cases pair
      simp [known]

/-- `user_list_callback` for some of the uids. -/
theorem userListCallback_folds (embodies : Embodies mem addrs mgr) (entries : List (UInt64 × Option Nat))
    (there : ∀ e ∈ entries, addrs[e.1]? = some e.2) (users : List Int32) :
    ∃ uids, entries.foldl (fun users e => mem.userListCallback e.1 e.2 users) (some users) = some uids ∧
      (entries.map fun e => (e.1, (mgr.uidToSid[e.1]?).join)).foldlM
        (fun users entry => userListCallback entry users) users = some uids := by
  induction entries generalizing users with
  | nil => exact ⟨users, rfl, rfl⟩
  | cons e entries ih =>
    obtain ⟨a, m, set, isAddr, read, known, refines⟩ :=
      embodies.present e.1 e.2 (there e List.mem_cons_self)
    obtain ⟨uids, walked, walked'⟩ := ih (fun x member => there x (List.mem_cons_of_mem e member))
      (if set.size ≠ 0 ∧ intOfWord e.1 ≠ nullUid then users ++ [intOfWord e.1] else users)
    refine ⟨uids, ?_, ?_⟩
    · rw [List.foldl_cons, ← walked]
      simp [MgrMemory.userListCallback, isAddr, read, size_refines refines]
    · rw [List.map_cons, List.foldlM_cons, ← walked']
      simp [userListCallback, known]

theorem userList (embodies : Embodies mem addrs mgr) :
    ∃ uids, mem.userList = some uids ∧ userList mgr = some uids := by
  obtain ⟨uids, walked, walked'⟩ := embodies.userListCallback_folds addrs.toList
    (fun e member => ExtTreeMap.mem_toList_iff_getElem?_eq_some.mp member) []
  refine ⟨uids, ?_, ?_⟩
  · rw [MgrMemory.userList, embodies.uids.forall_folds, walked]
    rfl
  · rw [AcosChat.userList, embodies.toList_eq_map, walked']

end Embodies

theorem Stands.answer {mem : MgrMemory} {mgr : ConnMgr} (stands : Stands mem mgr) (request : MgrRequest) :
    ∃ mem', mem.answer request = some ((mgr.answer request).1, mem') ∧
      Stands mem' (mgr.answer request).2 := by
  cases request with
  | change call =>
    obtain ⟨mem', ran, stands'⟩ := stands.call call
    exact ⟨mem', by rw [MgrMemory.answer, ran]; rfl, stands'⟩
  | getUid sid =>
    obtain ⟨addrs, embodies⟩ := stands
    obtain ⟨mem', ran, embodies'⟩ := embodies.getUid sid
    exact ⟨mem', by rw [MgrMemory.answer, ran]; rfl, addrs, embodies'⟩
  | forallUid uid =>
    obtain ⟨addrs, embodies⟩ := stands
    obtain ⟨mem', ran, embodies'⟩ := embodies.forallUid uid (fun key keys => keys ++ [key]) []
    exact ⟨mem', by rw [MgrMemory.answer, ran]; rfl, addrs, embodies'⟩
  | getNumberOfSessions uid =>
    obtain ⟨addrs, embodies⟩ := stands
    obtain ⟨mem', ran, embodies'⟩ := embodies.getNumberOfSessions uid
    exact ⟨mem', by rw [MgrMemory.answer, ran]; rfl, addrs, embodies'⟩
  | userList =>
    obtain ⟨addrs, embodies⟩ := stands
    obtain ⟨uids, ran, known⟩ := embodies.userList
    exact ⟨mem, by rw [MgrMemory.answer, ran, ConnMgr.answer, known]; rfl, addrs, embodies⟩

theorem Stands.answers {mem : MgrMemory} {mgr : ConnMgr} (stands : Stands mem mgr)
    (requests : List MgrRequest) :
    ∃ mem', mem.answers requests = some ((mgr.answers requests).1, mem') ∧
      Stands mem' (mgr.answers requests).2 := by
  induction requests generalizing mem mgr with
  | nil => exact ⟨mem, rfl, stands⟩
  | cons request later ih =>
    obtain ⟨mem₁, ran₁, stands₁⟩ := stands.answer request
    obtain ⟨mem₂, ran₂, stands₂⟩ := ih stands₁
    exact ⟨mem₂, by simp [MgrMemory.answers, ConnMgr.answers, ran₁, ran₂], stands₂⟩

/-! ### The end -/

/-- No node of a map and no set is allocated any more, and every set that has been freed had
been emptied before. -/
structure Released (mem : MgrMemory) : Prop where
  sids : Owns mem.sidToUid.heap 0
  uids : Owns mem.uidToSid.heap 0
  sets : ∀ a, mem.sets.read a = none
  freed : ∀ m ∈ mem.freed, Owns m.heap 0

/-- `map_destroyer` for pointers to different sets. -/
theorem mapDestroyer_runs (vals : List (Option Nat)) (mem : MgrMemory) (nodup : vals.Nodup)
    (there : ∀ val ∈ vals, ∃ a m set, val = some a ∧ mem.sets.read a = some m ∧ Refines (α := Unit) m set)
    (freed : ∀ m ∈ mem.freed, Owns m.heap 0) :
    ∃ mem', vals.foldl (fun mem val => Option.bind mem fun mem => Option.bind val mem.discard) (some mem) =
        some mem' ∧ mem'.sidToUid = mem.sidToUid ∧
      (∀ b, mem'.sets.read b = if some b ∈ vals then none else mem.sets.read b) ∧
      ∀ m ∈ mem'.freed, Owns m.heap 0 := by
  induction vals generalizing mem with
  | nil => exact ⟨mem, rfl, rfl, by simp, freed⟩
  | cons val vals ih =>
    obtain ⟨a, m, set, rfl, read, refines⟩ := there val List.mem_cons_self
    obtain ⟨sets', m', ran, _, reads, empty⟩ := Embodies.discard_runs mem read refines
    obtain ⟨outside, nodup'⟩ := List.nodup_cons.mp nodup
    have there' : ∀ val ∈ vals, ∃ b n set, val = some b ∧ sets'.read b = some n ∧ Refines (α := Unit) n set := by
      intro val member
      obtain ⟨b, n, set, rfl, read', refines'⟩ := there val (List.mem_cons_of_mem _ member)
      have other : b ≠ a := by
        rintro rfl
        exact outside member
      exact ⟨b, n, set, rfl, by simp [reads, other, read'], refines'⟩
    obtain ⟨mem', walked, sids, reads', freed'⟩ :=
      ih { mem with sets := sets', freed := mem.freed ++ [m'] } nodup' there' (by
        intro n member
        rcases List.mem_append.mp member with member | member
        · exact freed n member
        · rw [List.mem_singleton.mp member]
          exact empty)
    refine ⟨mem', ?_, sids, ?_, freed'⟩
    · rw [List.foldl_cons, ← walked]
      simp [ran]
    · intro b
      rw [reads', reads]
      by_cases same : b = a
      · simp [same]
      · simp [same]

theorem Embodies.destroy {mem : MgrMemory} {addrs : KeyMap Nat} {mgr : ConnMgr}
    (embodies : Embodies mem addrs mgr) : ∃ mem', mem.destroy = some mem' ∧ Released mem' := by
  obtain ⟨sids, _, destroyed, _, emptySids⟩ := embodies.sids.destroy_folds none ()
  obtain ⟨uids, vals, destroyed', perm, emptyUids⟩ := embodies.uids.destroy_folds
    (some fun val (mem : Option MgrMemory) => mem.bind fun mem => val.bind mem.discard)
    (some { mem with sidToUid := sids })
  -- a pointer is the value of one uid only
  have pointer : ∀ val, val ∈ vals ↔ ∃ w : UInt64, addrs[w]? = some val := by
    intro val
    rw [perm.mem_iff, List.mem_map]
    constructor
    · rintro ⟨⟨w, _⟩, member, rfl⟩
      exact ⟨w, ExtTreeMap.mem_toList_iff_getElem?_eq_some.mp member⟩
    · rintro ⟨w, there⟩
      exact ⟨(w, val), ExtTreeMap.mem_toList_iff_getElem?_eq_some.mpr there, rfl⟩
  have nodup : vals.Nodup := by
    have ordered : Increasing addrs.toList := ExtTreeMap.ordered_keys_toList
    rw [perm.nodup_iff]
    apply ordered.nodup.map_on
    rintro ⟨w, p⟩ member ⟨w', p'⟩ member' rfl
    have there := ExtTreeMap.mem_toList_iff_getElem?_eq_some.mp member
    obtain ⟨a, _, _, rfl, _⟩ := embodies.present w _ there
    rw [embodies.apart w w' a there (ExtTreeMap.mem_toList_iff_getElem?_eq_some.mp member')]
  obtain ⟨mem', walked, sids_eq, reads, freed⟩ := mapDestroyer_runs vals
    { mem with sidToUid := sids } nodup (by
      intro val member
      obtain ⟨w, there⟩ := (pointer val).mp member
      obtain ⟨a, m, set, rfl, read, _, refines⟩ := embodies.present w val there
      exact ⟨a, m, set, rfl, read, refines⟩) embodies.freed
  refine ⟨{ mem' with uidToSid := uids }, ?_, ?_, emptyUids, ?_, freed⟩
  · simp only [callDestructor] at destroyed'
    rw [walked] at destroyed'
    simp [MgrMemory.destroy, destroyed, destroyed']
  · change Owns mem'.sidToUid.heap 0
    rw [sids_eq]
    exact emptySids
  · intro a
    change mem'.sets.read a = none
    rw [reads]
    by_cases member : some a ∈ vals
    · rw [if_pos member]
    · rw [if_neg member]
      cases there : mem.sets.read a with
      | none => rfl
      | some m => exact absurd ((pointer _).mpr (embodies.used a m there)) member

/-- Every sequence of calls on an initialised manager runs without an access to memory that is
not allocated, and gives the answers of the two finite maps; `destroy_conn_mgr` then frees
every node of every map, and every set exactly once. -/
theorem mgrMemory_refines_connMgr (requests : List MgrRequest) :
    ∃ mem, MgrMemory.init.answers requests = some ((initConnMgr.answers requests).1, mem) ∧
      ∃ mem', mem.destroy = some mem' ∧ Released mem' := by
  obtain ⟨mem, ran, addrs, embodies⟩ := init_stands.answers requests
  exact ⟨mem, ran, embodies.destroy⟩

end AcosChat

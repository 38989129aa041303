import AcosChat.ConnMgr.Model

/-!
# The two indexes of the connection manager agree

A socket is in the set of a uid exactly if the uid is the one that the socket is mapped
to. The uid 0 has no set and is the same null pointer as an absent socket. Every
operation is first described by what it makes of `get_uid` and of membership.
-/
namespace AcosChat

open Std OrderedMap

/-! ### Integers as keys -/

@[simp] theorem intOfWord_wordOfInt (i : Int32) : intOfWord (wordOfInt i) = i := by
  rw [intOfWord, wordOfInt, Int64.toInt64_toUInt64, Int32.toInt32_toInt64]

@[simp] theorem wordOfInt_inj {i j : Int32} : wordOfInt i = wordOfInt j ↔ i = j := by
  constructor
  · intro same
    rw [← intOfWord_wordOfInt i, same, intOfWord_wordOfInt]
  · rintro rfl
    rfl

@[simp] theorem ptrUid_uidPtr (uid : Int32) : ptrUid (uidPtr uid) = uid := by
  unfold uidPtr
  split
  next null =>
    have zero : uid = 0 := wordOfInt_inj.mp (null.trans (by decide : (0 : UInt64) = wordOfInt 0))
    rw [zero]
    decide
  next => rw [ptrUid, Option.getD_some, intOfWord_wordOfInt]

@[simp] theorem ptrUid_none : ptrUid none = 0 := by decide

/-! ### The operations, seen through `get_uid` and the sets -/

namespace ConnMgr

/-- The socket is in the set of the uid. -/
def Member (mgr : ConnMgr) (sid uid : Int32) : Prop :=
  ∃ m, mgr.sessions uid = some m ∧ wordOfInt sid ∈ m

variable (mgr : ConnMgr) (sid uid s u : Int32)

section Sets

variable (f : Sessions → Sessions)

@[simp] theorem sidToUid_updateSessions : (mgr.updateSessions uid f).sidToUid = mgr.sidToUid := by
  unfold updateSessions
  split <;> rfl

@[simp] theorem getUid_updateSessions : (mgr.updateSessions uid f).getUid s = mgr.getUid s := by
  rw [getUid, sidToUid_updateSessions, getUid]

theorem sessions_updateSessions : (mgr.updateSessions uid f).sessions u =
    if u = uid then (mgr.sessions u).map f else mgr.sessions u := by
  unfold updateSessions
  by_cases same : u = uid
  · subst same
    rw [if_pos rfl]
    cases found : mgr.sessions u with
    | none => exact found
    | some m => simp [sessions]
  · rw [if_neg same]
    cases mgr.sessions uid with
    | none => rfl
    | some m => simp [sessions, ExtTreeMap.getElem?_insert, Ne.symm same]

theorem member_erase : (mgr.updateSessions uid fun m => m.erase (wordOfInt sid)).Member s u ↔
    mgr.Member s u ∧ ¬(u = uid ∧ s = sid) := by
  unfold Member
  rw [sessions_updateSessions]
  by_cases same : u = uid
  · rw [if_pos same]
    simp only [Option.map_eq_some_iff, same, true_and]
    constructor
    · rintro ⟨_, ⟨m, found, rfl⟩, inside⟩
      rw [ExtTreeMap.mem_erase] at inside
      exact ⟨⟨m, found, inside.2⟩, by rintro rfl; simp at inside⟩
    · rintro ⟨⟨m, found, inside⟩, other⟩
      exact ⟨_, ⟨m, found, rfl⟩, by rw [ExtTreeMap.mem_erase]; simp [inside, Ne.symm other]⟩
  · rw [if_neg same]
    simp [same]

theorem member_insert :
    (mgr.updateSessions uid fun m => m.insertIfNew (wordOfInt sid) none).Member s u ↔
      mgr.Member s u ∨ (u = uid ∧ s = sid ∧ mgr.sessions uid ≠ none) := by
  unfold Member
  rw [sessions_updateSessions]
  by_cases same : u = uid
  · subst same
    rw [if_pos rfl]
    simp only [Option.map_eq_some_iff, true_and]
    constructor
    · rintro ⟨_, ⟨m, found, rfl⟩, inside⟩
      rw [ExtTreeMap.mem_insertIfNew] at inside
      rcases inside with same | inside
      · rw [Std.compare_eq_iff_eq, wordOfInt_inj] at same
        exact .inr ⟨same.symm, by simp [found]⟩
      · exact .inl ⟨m, found, inside⟩
    · rintro (⟨m, found, inside⟩ | ⟨rfl, found⟩)
      · exact ⟨_, ⟨m, found, rfl⟩, by rw [ExtTreeMap.mem_insertIfNew]; exact .inr inside⟩
      · obtain ⟨m, found⟩ := Option.ne_none_iff_exists'.mp found
        exact ⟨_, ⟨m, found, rfl⟩, by rw [ExtTreeMap.mem_insertIfNew]; simp⟩
  · rw [if_neg same]
    simp [same]

end Sets

theorem getUid_erase : getUid { mgr with sidToUid := mgr.sidToUid.erase (wordOfInt sid) } s =
    if s = sid then 0 else mgr.getUid s := by
  simp only [getUid, ExtTreeMap.getElem?_erase, Std.compare_eq_iff_eq, wordOfInt_inj]
  by_cases same : sid = s
  · subst same
    simp
  · simp [same, Ne.symm same]

theorem getUid_addSid : (mgr.addSid sid).getUid s = mgr.getUid s := by
  simp only [getUid, addSid, ExtTreeMap.getElem?_insertIfNew]
  split
  next new =>
    have same : wordOfInt sid = wordOfInt s := Std.compare_eq_iff_eq.mp new.1
    rw [← same, ExtTreeMap.getElem?_eq_none new.2]
    rfl
  next => rfl

theorem sessions_addUid : (mgr.addUid uid).sessions u =
    if u = uid ∧ wordOfInt uid ∉ mgr.uidToSid then some ∅ else mgr.sessions u := by
  simp only [sessions, addUid, ExtTreeMap.getElem?_insertIfNew, Std.compare_eq_iff_eq,
    wordOfInt_inj, eq_comm (a := uid)]
  split <;> simp_all

theorem member_addUid : (mgr.addUid uid).Member s u ↔ mgr.Member s u := by
  unfold Member
  rw [sessions_addUid]
  split
  next new =>
    have none_ : mgr.sessions u = none := by
      rw [sessions, new.1, ExtTreeMap.getElem?_eq_none new.2]
      rfl
    simp [none_]
  next => rfl

theorem getUid_delSid : (mgr.delSid sid).getUid s = if s = sid then 0 else mgr.getUid s := by
  rw [delSid, getUid_updateSessions, getUid_erase]

theorem member_delSid : (mgr.delSid sid).Member s u ↔
    mgr.Member s u ∧ ¬(u = mgr.getUid sid ∧ s = sid) :=
  member_erase { mgr with sidToUid := mgr.sidToUid.erase (wordOfInt sid) } sid (mgr.getUid sid) s u

theorem sessions_delSid_ne_none : (mgr.delSid sid).sessions u ≠ none ↔ mgr.sessions u ≠ none := by
  rw [delSid, sessions_updateSessions]
  split
  · rw [ne_eq, Option.map_eq_none_iff]
    rfl
  · rfl

/-! ### The deletion of a uid -/

theorem sidToUid_foldl_delUidHelper (entries : List (UInt64 × Option Unit)) (w : UInt64) :
    (entries.foldl (fun mgr entry => mgr.delUidHelper entry.1) mgr).sidToUid[w]? =
      if w ∈ entries.map Prod.fst then none else mgr.sidToUid[w]? := by
  induction entries generalizing mgr with
  | nil => simp
  | cons entry entries ih =>
    rw [List.foldl_cons, ih, delUidHelper]
    simp only [ExtTreeMap.getElem?_erase, Std.compare_eq_iff_eq, List.map_cons, List.mem_cons,
      eq_comm (a := w)]
    by_cases here : entry.1 = w
    · simp [here]
    · simp [here]

theorem uidToSid_foldl_delUidHelper (entries : List (UInt64 × Option Unit)) :
    (entries.foldl (fun mgr entry => mgr.delUidHelper entry.1) mgr).uidToSid = mgr.uidToSid := by
  induction entries generalizing mgr with
  | nil => rfl
  | cons entry entries ih => rw [List.foldl_cons, ih, delUidHelper]

theorem uidToSid_delUid : (mgr.delUid uid).uidToSid = mgr.uidToSid.erase (wordOfInt uid) := by
  unfold delUid
  cases mgr.sessions uid with
  | none => rfl
  | some m => exact uidToSid_foldl_delUidHelper _ _

theorem mem_map_fst_toList {β : Type} (m : KeyMap β) (w : UInt64) :
    w ∈ m.toList.map Prod.fst ↔ w ∈ m := by
  rw [ExtTreeMap.map_fst_toList_eq_keys, ExtTreeMap.mem_keys]

open Classical in
theorem getUid_delUid : (mgr.delUid uid).getUid s = if mgr.Member s uid then 0 else mgr.getUid s := by
  unfold delUid Member
  cases found : mgr.sessions uid with
  | none => simp [getUid]
  | some m =>
    simp only [getUid, sidToUid_foldl_delUidHelper, mem_map_fst_toList, Option.some.injEq,
      exists_eq_left']
    split <;> simp

theorem sessions_delUid : (mgr.delUid uid).sessions u = if u = uid then none else mgr.sessions u := by
  rw [sessions, uidToSid_delUid, ExtTreeMap.getElem?_erase]
  simp only [Std.compare_eq_iff_eq, wordOfInt_inj, eq_comm (a := uid)]
  split <;> rfl

theorem member_delUid : (mgr.delUid uid).Member s u ↔ mgr.Member s u ∧ u ≠ uid := by
  unfold Member
  rw [sessions_delUid]
  split
  next same => simp [same]
  next other => simp [other]

/-! ### Connecting a socket and a uid -/

theorem getUid_insert (absent : wordOfInt sid ∉ mgr.sidToUid) :
    getUid { mgr with sidToUid := mgr.sidToUid.insertIfNew (wordOfInt sid) (uidPtr uid) } s =
      if s = sid then uid else mgr.getUid s := by
  simp only [getUid, ExtTreeMap.getElem?_insertIfNew, Std.compare_eq_iff_eq, wordOfInt_inj, absent,
    not_false_eq_true, and_true, eq_comm (a := sid)]
  split <;> simp

theorem not_mem_delSid : wordOfInt sid ∉ (mgr.delSid sid).sidToUid := by
  rw [delSid, sidToUid_updateSessions, ExtTreeMap.mem_erase]
  simp

theorem getUid_connectSidUid (connected : mgr.sidToUid.contains (wordOfInt sid) = true) :
    (mgr.connectSidUid sid uid).getUid s = if s = sid then uid else mgr.getUid s := by
  rw [connectSidUid, if_pos connected, getUid_updateSessions,
    getUid_insert _ _ _ _ (mgr.not_mem_delSid sid), getUid_delSid]
  split <;> rfl

theorem member_connectSidUid (connected : mgr.sidToUid.contains (wordOfInt sid) = true) :
    (mgr.connectSidUid sid uid).Member s u ↔
      (mgr.Member s u ∧ ¬(u = mgr.getUid sid ∧ s = sid)) ∨
        (u = uid ∧ s = sid ∧ mgr.sessions uid ≠ none) := by
  rw [connectSidUid, if_pos connected, member_insert, ← sessions_delSid_ne_none mgr sid uid,
    ← member_delSid]
  rfl

end ConnMgr

/-! ### The invariant -/

/-- The keys of a set are sockets. -/
def OfSockets (m : Sessions) : Prop := ∀ w ∈ m, ∃ s : Int32, 0 < s ∧ w = wordOfInt s

/-- The keys of `uid_to_sid` are uids, and every one has a set of sockets. -/
def OfUids (uidToSid : KeyMap Sessions) : Prop :=
  ∀ w ptr, uidToSid[w]? = some ptr →
    ∃ u m, u ≠ nullUid ∧ w = wordOfInt u ∧ ptr = some m ∧ OfSockets m

/-- The invariant: the keys are sockets and uids, every registered uid has a set, and the
two indexes agree. -/
structure Agrees (mgr : ConnMgr) (registered : Int32 → Bool) : Prop where
  sockets : ∀ w ∈ mgr.sidToUid, ∃ s : Int32, 0 < s ∧ w = wordOfInt s
  sets : OfUids mgr.uidToSid
  present : ∀ u, registered u = true → mgr.sessions u ≠ none
  agree : ∀ s u, u ≠ nullUid → (mgr.Member s u ↔ mgr.getUid s = u)

namespace Agrees

variable {mgr : ConnMgr} {registered : Int32 → Bool}

theorem sessions_null (agrees : Agrees mgr registered) : mgr.sessions nullUid = none := by
  rw [ConnMgr.sessions]
  cases found : mgr.uidToSid[wordOfInt nullUid]? with
  | none => rfl
  | some ptr =>
    obtain ⟨u, _, nonzero, same, _⟩ := agrees.sets _ ptr found
    exact absurd (wordOfInt_inj.mp same).symm nonzero

theorem not_member_null (agrees : Agrees mgr registered) (s : Int32) : ¬mgr.Member s nullUid := by
  rintro ⟨m, found, _⟩
  rw [agrees.sessions_null] at found
  cases found

theorem ofUids_update {mgr : ConnMgr} (sets : OfUids mgr.uidToSid) (uid : Int32)
    (f : Sessions → Sessions) (keeps : ∀ m, OfSockets m → OfSockets (f m)) :
    OfUids (mgr.updateSessions uid f).uidToSid := by
  intro w ptr found
  unfold ConnMgr.updateSessions at found
  cases there : mgr.sessions uid with
  | none =>
    rw [there] at found
    exact sets w ptr found
  | some m =>
    rw [there] at found
    simp only [ExtTreeMap.getElem?_insert, Std.compare_eq_iff_eq] at found
    split at found
    next same =>
      subst same
      cases found
      cases inside : mgr.uidToSid[wordOfInt uid]? with
      | none => simp [ConnMgr.sessions, inside] at there
      | some ptr =>
        obtain ⟨u, m', nonzero, same, rfl, sockets⟩ := sets _ ptr inside
        simp only [ConnMgr.sessions, inside, Option.join_some, Option.some.injEq] at there
        subst there
        exact ⟨u, f m', nonzero, same, rfl, keeps m' sockets⟩
    next => exact sets w ptr found

theorem init : Agrees initConnMgr fun _ => false := by
  constructor
  · intro w inside
    simp [initConnMgr] at inside
  · intro w ptr found
    simp [initConnMgr] at found
  · intro u wrong
    cases wrong
  · intro s u nonzero
    have none_ : initConnMgr.getUid s = 0 := by simp [ConnMgr.getUid, initConnMgr]
    rw [none_]
    constructor
    · rintro ⟨m, found, _⟩
      simp [ConnMgr.sessions, initConnMgr] at found
    · intro same
      exact absurd same.symm nonzero

theorem addSid (agrees : Agrees mgr registered) (sid : Int32) (positive : 0 < sid) :
    Agrees (mgr.addSid sid) registered := by
  constructor
  · intro w inside
    rw [ConnMgr.addSid, ExtTreeMap.mem_insertIfNew, Std.compare_eq_iff_eq] at inside
    rcases inside with same | inside
    · exact ⟨sid, positive, same.symm⟩
    · exact agrees.sockets w inside
  · exact agrees.sets
  · exact agrees.present
  · intro s u nonzero
    rw [ConnMgr.getUid_addSid]
    exact agrees.agree s u nonzero

theorem addUid (agrees : Agrees mgr registered) (uid : Int32) (nonzero : uid ≠ nullUid) :
    Agrees (mgr.addUid uid) fun u => u = uid || registered u := by
  constructor
  · exact agrees.sockets
  · intro w ptr found
    rw [ConnMgr.addUid, ExtTreeMap.getElem?_insertIfNew] at found
    split at found
    next new =>
      cases found
      exact ⟨uid, ∅, nonzero, (Std.compare_eq_iff_eq.mp new.1).symm, rfl, by
        intro w inside
        simp at inside⟩
    next => exact agrees.sets w ptr found
  · intro u known
    rw [ConnMgr.sessions_addUid]
    split
    next => simp
    next old =>
      by_cases same : u = uid
      · subst same
        -- The uid was there before, and a uid that is there has a set.
        have inside : wordOfInt u ∈ mgr.uidToSid := by
          by_contra absent
          exact old ⟨rfl, absent⟩
        obtain ⟨ptr, found⟩ := Option.isSome_iff_exists.mp
          (ExtTreeMap.mem_iff_isSome_getElem?.mp inside)
        obtain ⟨_, m, _, _, rfl, _⟩ := agrees.sets _ ptr found
        simp [ConnMgr.sessions, found]
      · apply agrees.present
        simpa [same] using known
  · intro s u other
    rw [ConnMgr.member_addUid]
    exact agrees.agree s u other

theorem erase_ofSockets (sid : Int32) (m : Sessions) (sockets : OfSockets m) :
    OfSockets (m.erase (wordOfInt sid)) := by
  intro w inside
  exact sockets w (ExtTreeMap.mem_of_mem_erase inside)

theorem delSid (agrees : Agrees mgr registered) (sid : Int32) :
    Agrees (mgr.delSid sid) registered := by
  constructor
  · intro w inside
    rw [ConnMgr.delSid, ConnMgr.sidToUid_updateSessions] at inside
    exact agrees.sockets w (ExtTreeMap.mem_of_mem_erase inside)
  · have sets : OfUids { mgr with sidToUid := mgr.sidToUid.erase (wordOfInt sid) }.uidToSid :=
      agrees.sets
    exact ofUids_update sets _ _ (erase_ofSockets sid)
  · intro u known
    rw [ConnMgr.sessions_delSid_ne_none]
    exact agrees.present u known
  · intro s u nonzero
    have before := agrees.agree s u nonzero
    rw [ConnMgr.member_delSid, ConnMgr.getUid_delSid, before]
    -- The socket is in no set and mapped to no uid; the others stay.
    by_cases same : s = sid
    · subst same
      simp only [if_true, and_true]
      constructor
      · rintro ⟨here, other⟩
        exact absurd here.symm other
      · intro zero
        exact absurd zero.symm nonzero
    · simp [same]

theorem delUid (agrees : Agrees mgr registered) (uid : Int32) :
    Agrees (mgr.delUid uid) fun u => registered u && u ≠ uid := by
  constructor
  · intro w inside
    apply agrees.sockets
    rw [ExtTreeMap.mem_iff_isSome_getElem?] at inside ⊢
    unfold ConnMgr.delUid at inside
    cases found : mgr.sessions uid with
    | none => simpa only [found] using inside
    | some m =>
      simp only [found, ConnMgr.sidToUid_foldl_delUidHelper] at inside
      split at inside
      · cases inside
      · exact inside
  · intro w ptr found
    rw [ConnMgr.uidToSid_delUid, ExtTreeMap.getElem?_erase] at found
    split at found
    · cases found
    · exact agrees.sets w ptr found
  · intro u known
    simp only [Bool.and_eq_true, decide_eq_true_eq] at known
    rw [ConnMgr.sessions_delUid, if_neg known.2]
    exact agrees.present u known.1
  · intro s u nonzero
    have before := agrees.agree s u nonzero
    rw [ConnMgr.member_delUid, ConnMgr.getUid_delUid]
    -- The sockets of the set are the ones that are erased.
    split
    next here =>
      have mapped : uid ≠ nullUid → mgr.getUid s = uid := fun other => (agrees.agree s uid other).mp here
      have other : uid ≠ nullUid := by
        rintro rfl
        exact agrees.not_member_null s here
      rw [before, mapped other]
      constructor
      · rintro ⟨same, different⟩
        exact absurd same.symm different
      · intro zero
        exact absurd zero.symm nonzero
    next outside =>
      rw [before]
      constructor
      · exact And.left
      · intro same
        refine ⟨same, ?_⟩
        rintro rfl
        exact outside (before.mpr same)

theorem connectSidUid (agrees : Agrees mgr registered) (sid uid : Int32)
    (known : registered uid = true) : Agrees (mgr.connectSidUid sid uid) registered := by
  cases connected : mgr.sidToUid.contains (wordOfInt sid) with
  | false =>
    rw [ConnMgr.connectSidUid, connected]
    exact agrees
  | true =>
    obtain ⟨socket, positive, same⟩ := agrees.sockets _ (ExtTreeMap.contains_iff_mem.mp connected)
    obtain rfl := wordOfInt_inj.mp same
    have kept := agrees.delSid sid
    -- First it does what `conn_mgr_del_sid` does, and then it inserts.
    have shape : mgr.connectSidUid sid uid = ConnMgr.updateSessions
        ⟨(mgr.delSid sid).sidToUid.insertIfNew (wordOfInt sid) (uidPtr uid),
          (mgr.delSid sid).uidToSid⟩ uid fun m => m.insertIfNew (wordOfInt sid) none := by
      rw [ConnMgr.connectSidUid, if_pos connected]
    constructor
    · intro w inside
      rw [shape, ConnMgr.sidToUid_updateSessions, ExtTreeMap.mem_insertIfNew] at inside
      rcases inside with here | inside
      · exact ⟨sid, positive, (Std.compare_eq_iff_eq.mp here).symm⟩
      · exact kept.sockets w inside
    · have sets : OfUids (ConnMgr.mk
          ((mgr.delSid sid).sidToUid.insertIfNew (wordOfInt sid) (uidPtr uid))
          (mgr.delSid sid).uidToSid).uidToSid := kept.sets
      rw [shape]
      apply ofUids_update sets
      intro m sockets w inside
      rw [ExtTreeMap.mem_insertIfNew] at inside
      rcases inside with here | inside
      · exact ⟨sid, positive, (Std.compare_eq_iff_eq.mp here).symm⟩
      · exact sockets w inside
    · intro u known'
      rw [shape, ConnMgr.sessions_updateSessions]
      have before := kept.present u known'
      split
      · rw [ne_eq, Option.map_eq_none_iff]
        exact before
      · exact before
    · intro s u nonzero
      have before := agrees.agree s u nonzero
      have present := agrees.present uid known
      rw [ConnMgr.member_connectSidUid _ _ _ _ _ connected,
        ConnMgr.getUid_connectSidUid _ _ _ _ connected, before]
      by_cases same : s = sid
      · subst same
        simp only [and_true, if_true, present, ne_eq, not_false_eq_true]
        -- It has left the set of its old uid and is in that of the new one.
        constructor
        · rintro (⟨here, other⟩ | rfl)
          · exact absurd here.symm other
          · rfl
        · rintro rfl
          exact .inr rfl
      · simp [same]

end Agrees

/-! ### Runs of calls -/

/-- The calls that change the connection manager. -/
inductive ConnCall where
  | addSid (sid : Int32)
  | addUid (uid : Int32)
  | delSid (sid : Int32)
  | delUid (uid : Int32)
  | connectSidUid (sid uid : Int32)
deriving DecidableEq, Repr

def ConnMgr.call (mgr : ConnMgr) : ConnCall → ConnMgr
  | .addSid sid => mgr.addSid sid
  | .addUid uid => mgr.addUid uid
  | .delSid sid => mgr.delSid sid
  | .delUid uid => mgr.delUid uid
  | .connectSidUid sid uid => mgr.connectSidUid sid uid

/-- The uids that are registered after a call. -/
def ConnCall.registers (registered : Int32 → Bool) : ConnCall → Int32 → Bool
  | .addUid uid, u => u = uid || registered u
  | .delUid uid, u => registered u && u ≠ uid
  | _, u => registered u

/-- A socket that `accept_connection` adds is positive, uids are not null, and a uid is
connected only while it is registered. -/
def ConnCall.Permitted (registered : Int32 → Bool) : ConnCall → Prop
  | .addSid sid => 0 < sid
  | .addUid uid | .delUid uid => uid ≠ nullUid
  | .delSid _ => True
  | .connectSidUid _ uid => uid ≠ nullUid ∧ registered uid = true

instance (registered : Int32 → Bool) (call : ConnCall) : Decidable (call.Permitted registered) := by
  cases call <;> unfold ConnCall.Permitted <;> infer_instance

def PermittedCalls (registered : Int32 → Bool) : List ConnCall → Prop
  | [] => True
  | call :: calls => call.Permitted registered ∧ PermittedCalls (call.registers registered) calls

theorem Agrees.call {mgr : ConnMgr} {registered : Int32 → Bool} (agrees : Agrees mgr registered)
    (call : ConnCall) (permitted : call.Permitted registered) :
    Agrees (mgr.call call) (call.registers registered) := by
  cases call with
  | addSid sid => exact agrees.addSid sid permitted
  | addUid uid => exact agrees.addUid uid permitted
  | delSid sid => exact agrees.delSid sid
  | delUid uid => exact agrees.delUid uid
  | connectSidUid sid uid => exact agrees.connectSidUid sid uid permitted.2

theorem Agrees.calls {mgr : ConnMgr} {registered : Int32 → Bool} (agrees : Agrees mgr registered)
    (calls : List ConnCall) (permitted : PermittedCalls registered calls) :
    ∃ registered', Agrees (calls.foldl ConnMgr.call mgr) registered' := by
  induction calls generalizing mgr registered with
  | nil => exact ⟨registered, agrees⟩
  | cons call calls ih => exact ih (agrees.call call permitted.1) permitted.2

/-! ### What the indexes are read for -/

/-- The sockets of a set, as `kick_callback` reads them. -/
def socketsOf (m : Sessions) : List Int32 := m.keys.map intOfWord

theorem wordOfInt_of_mem {m : Sessions} (sockets : OfSockets m) {w : UInt64} (inside : w ∈ m) :
    0 < intOfWord w ∧ wordOfInt (intOfWord w) = w := by
  obtain ⟨s, positive, rfl⟩ := sockets w inside
  rw [intOfWord_wordOfInt]
  exact ⟨positive, rfl⟩

theorem mem_socketsOf {m : Sessions} (sockets : OfSockets m) (s : Int32) :
    s ∈ socketsOf m ↔ wordOfInt s ∈ m := by
  constructor
  · intro member
    obtain ⟨w, there, rfl⟩ := List.mem_map.mp member
    have inside := ExtTreeMap.mem_keys.mp there
    rw [(wordOfInt_of_mem sockets inside).2]
    exact inside
  · intro inside
    exact List.mem_map.mpr ⟨_, ExtTreeMap.mem_keys.mpr inside, intOfWord_wordOfInt s⟩

theorem nodup_socketsOf {m : Sessions} (sockets : OfSockets m) : (socketsOf m).Nodup := by
  apply List.Nodup.map_on _ ExtTreeMap.nodup_keys
  intro x inX y inY same
  rw [← (wordOfInt_of_mem sockets (ExtTreeMap.mem_keys.mp inX)).2, same,
    (wordOfInt_of_mem sockets (ExtTreeMap.mem_keys.mp inY)).2]

/-- There are fewer sockets than an `int` can count. -/
theorem size_lt {m : Sessions} (sockets : OfSockets m) : m.size < 2 ^ 31 := by
  have positive : ∀ s ∈ socketsOf m, s.toInt.toNat ∈ Finset.Ico 1 (2 ^ 31) := by
    intro s member
    obtain ⟨w, there, rfl⟩ := List.mem_map.mp member
    have low := Int32.lt_iff_toInt_lt.mp (wordOfInt_of_mem sockets (ExtTreeMap.mem_keys.mp there)).1
    have high := Int32.toInt_lt (intOfWord w)
    rw [Int32.toInt_zero] at low
    rw [Finset.mem_Ico]
    omega
  have distinct : ((socketsOf m).map fun s => s.toInt.toNat).Nodup := by
    apply List.Nodup.map_on _ (nodup_socketsOf sockets)
    intro x inX y inY same
    have lowX := (Finset.mem_Ico.mp (positive x inX)).1
    have lowY := (Finset.mem_Ico.mp (positive y inY)).1
    exact Int32.toInt_inj.mp (by omega)
  -- distinct numbers from an interval are not more than it has
  have inside : ((socketsOf m).map fun s => s.toInt.toNat).toFinset ⊆ Finset.Ico 1 (2 ^ 31) := by
    intro n member
    obtain ⟨s, there, rfl⟩ := List.mem_map.mp (List.mem_toFinset.mp member)
    exact positive s there
  have bound := Finset.card_le_card inside
  rw [List.toFinset_card_of_nodup distinct, Nat.card_Ico, List.length_map, socketsOf, List.length_map,
    ExtTreeMap.length_keys] at bound
  omega

theorem foldl_append_map {β γ : Type} (f : β → γ) (xs : List β) (ys : List γ) :
    xs.foldl (fun ys x => ys ++ [f x]) ys = ys ++ xs.map f := by
  induction xs generalizing ys with
  | nil => simp
  | cons x xs ih => simp [ih]

theorem ConnMgr.forallUid_eq (mgr : ConnMgr) (uid : Int32) :
    mgr.forallUid uid (fun word visited => visited ++ [intOfWord word]) [] =
      ((mgr.sessions uid).map socketsOf).getD [] := by
  unfold ConnMgr.forallUid
  cases mgr.sessions uid with
  | none => rfl
  | some m =>
    simp only [Option.map_some, Option.getD_some, socketsOf]
    rw [foldl_append_map, List.nil_append, ← ExtTreeMap.map_fst_toList_eq_keys, List.map_map]
    rfl

namespace Agrees

variable {mgr : ConnMgr} {registered : Int32 → Bool}

theorem ofSockets (agrees : Agrees mgr registered) {u : Int32} {m : Sessions}
    (found : mgr.sessions u = some m) : OfSockets m := by
  unfold ConnMgr.sessions at found
  cases inside : mgr.uidToSid[wordOfInt u]? with
  | none => simp [inside] at found
  | some ptr =>
    obtain ⟨_, m', _, _, rfl, sockets⟩ := agrees.sets _ ptr inside
    simp only [inside, Option.join_some, Option.some.injEq] at found
    exact found ▸ sockets

/-- The kick targets of a uid. -/
theorem visited (agrees : Agrees mgr registered) (u : Int32) (nonzero : u ≠ nullUid) :
    let visited := mgr.forallUid u (fun word visited => visited ++ [intOfWord word]) []
    visited.Nodup ∧ (∀ s, s ∈ visited ↔ mgr.getUid s = u) ∧
      (mgr.getNumberOfSessions u).toInt = visited.length := by
  have agree : ∀ s, mgr.Member s u ↔ mgr.getUid s = u := fun s => agrees.agree s u nonzero
  simp only [ConnMgr.forallUid_eq, ← agree, ConnMgr.getNumberOfSessions, ConnMgr.Member]
  cases found : mgr.sessions u with
  | none => simp
  | some m =>
    have sockets := agrees.ofSockets found
    refine ⟨nodup_socketsOf sockets, ?_, ?_⟩
    · intro s
      simp [mem_socketsOf sockets]
    · simp only [Option.map_some, Option.getD_some, Int32.toInt_ofNat_of_lt (size_lt sockets)]
      rw [socketsOf, List.length_map, ExtTreeMap.length_keys]

/-- The sessions of a uid are the sockets that are mapped to it. -/
theorem sessions_ncard (agrees : Agrees mgr registered) (u : Int32) (nonzero : u ≠ nullUid) :
    (mgr.getNumberOfSessions u).toInt = ({s | mgr.getUid s = u} : Set Int32).ncard := by
  obtain ⟨distinct, members, count⟩ := agrees.visited u nonzero
  have same : ({s | mgr.getUid s = u} : Set Int32) =
      ((mgr.forallUid u (fun word visited => visited ++ [intOfWord word]) []).toFinset : Set Int32) := by
    ext s
    rw [List.coe_toFinset, Set.mem_ofPred_eq, Set.mem_ofPred_eq]
    exact (members s).symm
  rw [same, Set.ncard_coe_finset, List.toFinset_card_of_nodup distinct]
  exact count

theorem userListCallback_fold (entries : List (UInt64 × Option Sessions)) (users : List Int32)
    (sets : ∀ entry ∈ entries, ∃ u m, u ≠ nullUid ∧ entry = (wordOfInt u, some m)) :
    ∃ users', entries.foldlM (fun users entry => userListCallback entry users) users = some users' ∧
      ∀ u, u ∈ users' ↔ u ∈ users ∨ (u ≠ nullUid ∧ ∃ m, (wordOfInt u, some m) ∈ entries ∧ m.size ≠ 0) := by
  induction entries generalizing users with
  | nil => exact ⟨users, rfl, by simp⟩
  | cons entry entries ih =>
    obtain ⟨v, m, nonzero, rfl⟩ := sets entry (by simp)
    obtain ⟨users', ran, members⟩ := ih (if m.size ≠ 0 ∧ v ≠ nullUid then users ++ [v] else users)
      (fun entry member => sets entry (by simp [member]))
    -- The entry is collected first, and then those of the rest.
    refine ⟨users', ?_, ?_⟩
    · rw [List.foldlM_cons, userListCallback]
      simpa using ran
    · intro u
      rw [members]
      simp only [List.mem_cons, Prod.mk.injEq, wordOfInt_inj, Option.some.injEq]
      by_cases empty : m.size = 0
      · rw [if_neg (by simp [empty])]
        constructor
        · rintro (old | ⟨other, m', later, filled⟩)
          · exact .inl old
          · exact .inr ⟨other, m', .inr later, filled⟩
        · rintro (old | ⟨other, m', ⟨_, rfl⟩ | later, filled⟩)
          · exact .inl old
          · exact absurd empty filled
          · exact .inr ⟨other, m', later, filled⟩
      · rw [if_pos ⟨empty, nonzero⟩, List.mem_append, List.mem_singleton]
        constructor
        · rintro ((old | rfl) | ⟨other, m', later, filled⟩)
          · exact .inl old
          · exact .inr ⟨nonzero, m, .inl ⟨rfl, rfl⟩, empty⟩
          · exact .inr ⟨other, m', .inr later, filled⟩
        · rintro (old | ⟨other, m', ⟨rfl, rfl⟩ | later, filled⟩)
          · exact .inl (.inl old)
          · exact .inl (.inr rfl)
          · exact .inr ⟨other, m', later, filled⟩

/-- The uids that LIST collects. -/
theorem users (agrees : Agrees mgr registered) :
    ∃ users, userList mgr = some users ∧
      ∀ u, u ∈ users ↔ u ≠ nullUid ∧ ∃ s, mgr.getUid s = u := by
  have stored : ∀ u m, (wordOfInt u, some m) ∈ mgr.uidToSid.toList ↔ mgr.sessions u = some m := by
    intro u m
    rw [ExtTreeMap.mem_toList_iff_getElem?_eq_some, ConnMgr.sessions, Option.join_eq_some_iff]
  obtain ⟨users, ran, members⟩ := userListCallback_fold mgr.uidToSid.toList [] (by
    rintro ⟨w, ptr⟩ member
    obtain ⟨u, m, nonzero, rfl, rfl, _⟩ :=
      agrees.sets w ptr (ExtTreeMap.mem_toList_iff_getElem?_eq_some.mp member)
    exact ⟨u, m, nonzero, rfl⟩)
  refine ⟨users, ran, ?_⟩
  intro u
  rw [members]
  simp only [List.not_mem_nil, false_or, stored]
  apply and_congr_right
  intro nonzero
  have agree : ∀ s, mgr.Member s u ↔ mgr.getUid s = u := fun s => agrees.agree s u nonzero
  simp only [← agree, ConnMgr.Member]
  constructor
  · rintro ⟨m, found, filled⟩
    -- A set that is not empty has a socket.
    have sockets := agrees.ofSockets found
    obtain ⟨w, inside⟩ := List.exists_mem_of_length_pos
      (by rw [ExtTreeMap.length_keys]; omega : 0 < m.keys.length)
    have inside := ExtTreeMap.mem_keys.mp inside
    refine ⟨intOfWord w, m, found, ?_⟩
    rw [(wordOfInt_of_mem sockets inside).2]
    exact inside
  · rintro ⟨s, m, found, inside⟩
    refine ⟨m, found, ?_⟩
    intro empty
    have some_ := List.length_pos_of_mem (ExtTreeMap.mem_keys.mpr inside)
    rw [ExtTreeMap.length_keys] at some_
    omega

end Agrees

/-- After any sequence of calls a socket is in the set of a uid exactly if it is mapped to
it, so in at most one; the number of sessions, the kick targets and the users of LIST are
those of this relation. -/
theorem connMgr_indexes_agree (calls : List ConnCall)
    (permitted : PermittedCalls (fun _ => false) calls) :
    let mgr := calls.foldl ConnMgr.call initConnMgr
    (∀ s u, u ≠ nullUid → (mgr.Member s u ↔ mgr.getUid s = u)) ∧
    (∀ s u v, mgr.Member s u → mgr.Member s v → u = v) ∧
    (∀ u, u ≠ nullUid →
      (mgr.getNumberOfSessions u).toInt = ({s | mgr.getUid s = u} : Set Int32).ncard ∧
      let visited := mgr.forallUid u (fun word visited => visited ++ [intOfWord word]) []
      visited.Nodup ∧ ∀ s, s ∈ visited ↔ mgr.getUid s = u) ∧
    ∃ users, userList mgr = some users ∧
      ∀ u, u ∈ users ↔ u ≠ nullUid ∧ ∃ s, mgr.getUid s = u := by
  intro mgr
  obtain ⟨registered, agrees⟩ := Agrees.init.calls calls permitted
  refine ⟨agrees.agree, ?_, ?_, agrees.users⟩
  · intro s u v inU inV
    have mapped : ∀ w, mgr.Member s w → mgr.getUid s = w := by
      intro w inside
      apply (agrees.agree s w _).mp inside
      rintro rfl
      exact agrees.not_member_null s inside
    exact (mapped u inU).symm.trans (mapped v inV)
  · intro u nonzero
    obtain ⟨distinct, members, _⟩ := agrees.visited u nonzero
    exact ⟨agrees.sessions_ncard u nonzero, distinct, members⟩

/-- Two sockets under one account, one of which then moves to another and is closed. -/
theorem connMgr_indexes_agree_moved :
    let mgr := [ConnCall.addSid 5, .addSid 6, .addUid 1, .connectSidUid 5 1, .connectSidUid 6 1,
      .addUid 2, .connectSidUid 5 2, .delSid 5].foldl ConnMgr.call initConnMgr
    (∀ s u, u ≠ nullUid → (mgr.Member s u ↔ mgr.getUid s = u)) ∧
    (∀ s u v, mgr.Member s u → mgr.Member s v → u = v) ∧
    (∀ u, u ≠ nullUid →
      (mgr.getNumberOfSessions u).toInt = ({s | mgr.getUid s = u} : Set Int32).ncard ∧
      let visited := mgr.forallUid u (fun word visited => visited ++ [intOfWord word]) []
      visited.Nodup ∧ ∀ s, s ∈ visited ↔ mgr.getUid s = u) ∧
    ∃ users, userList mgr = some users ∧
      ∀ u, u ∈ users ↔ u ≠ nullUid ∧ ∃ s, mgr.getUid s = u :=
  connMgr_indexes_agree _ (by simp only [PermittedCalls]; decide)

end AcosChat

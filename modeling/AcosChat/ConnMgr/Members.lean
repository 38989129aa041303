import AcosChat.ConnMgr.Agreement

/-!
# Every member of a set is mapped to its uid

This half of the agreement of the two indexes holds for the uid 0 too, so it needs no
assumption on the uids that are passed in.
-/
namespace AcosChat

open Std

/-- The members of every set are connected sockets that are mapped to its uid. -/
def MembersMapped (mgr : ConnMgr) : Prop :=
  ∀ u m, mgr.sessions u = some m → ∀ w ∈ m, ∃ s, w = wordOfInt s ∧ w ∈ mgr.sidToUid ∧ mgr.getUid s = u

namespace MembersMapped

variable {mgr : ConnMgr}

theorem init : MembersMapped initConnMgr := by
  intro u m found
  simp [ConnMgr.sessions, initConnMgr] at found

theorem addSid (mapped : MembersMapped mgr) (sid : Int32) : MembersMapped (mgr.addSid sid) := by
  intro u m found w inside
  obtain ⟨s, rfl, connected, here⟩ := mapped u m found w inside
  refine ⟨s, rfl, ?_, ?_⟩
  · rw [ConnMgr.addSid, ExtTreeMap.mem_insertIfNew]
    exact .inr connected
  · rw [ConnMgr.getUid_addSid]
    exact here

theorem addUid (mapped : MembersMapped mgr) (uid : Int32) : MembersMapped (mgr.addUid uid) := by
  intro u m found w inside
  rw [ConnMgr.sessions_addUid] at found
  split at found
  · cases found
    simp at inside
  · exact mapped u m found w inside

theorem delSid (mapped : MembersMapped mgr) (sid : Int32) : MembersMapped (mgr.delSid sid) := by
  intro u m found w inside
  -- It was a member before, and is not the socket that is erased.
  have kept : ∃ m', mgr.sessions u = some m' ∧ w ∈ m' ∧ (u = mgr.getUid sid → w ≠ wordOfInt sid) := by
    rw [ConnMgr.delSid, ConnMgr.sessions_updateSessions] at found
    split at found
    next same =>
      obtain ⟨m', there, rfl⟩ := Option.map_eq_some_iff.mp found
      rw [ExtTreeMap.mem_erase] at inside
      refine ⟨m', there, inside.2, ?_⟩
      rintro _ rfl
      simp at inside
    next other => exact ⟨m, found, inside, fun same => absurd same other⟩
  obtain ⟨m', there, inside', apart⟩ := kept
  obtain ⟨s, rfl, connected, here⟩ := mapped u m' there w inside'
  have different : s ≠ sid := by
    rintro rfl
    exact apart here.symm rfl
  refine ⟨s, rfl, ?_, ?_⟩
  · rw [ConnMgr.delSid, ConnMgr.sidToUid_updateSessions, ExtTreeMap.mem_erase]
    refine ⟨?_, connected⟩
    rw [ne_eq, Std.compare_eq_iff_eq, wordOfInt_inj]
    exact different.symm
  · rw [ConnMgr.getUid_delSid, if_neg different]
    exact here

theorem connectSidUid (mapped : MembersMapped mgr) (sid uid : Int32) :
    MembersMapped (mgr.connectSidUid sid uid) := by
  cases connected : mgr.sidToUid.contains (wordOfInt sid) with
  | false =>
    rw [ConnMgr.connectSidUid, connected]
    exact mapped
  | true =>
    have without := mapped.delSid sid
    intro u m found w inside
    have added : ∀ w', w' ∈ (mgr.connectSidUid sid uid).sidToUid ↔
        w' = wordOfInt sid ∨ w' ∈ (mgr.delSid sid).sidToUid := by
      intro w'
      rw [ConnMgr.connectSidUid, if_pos connected, ConnMgr.sidToUid_updateSessions,
        ExtTreeMap.mem_insertIfNew, Std.compare_eq_iff_eq, eq_comm (a := wordOfInt sid)]
    -- The member is the socket itself, or was one before.
    have kept : (u = uid ∧ w = wordOfInt sid) ∨ ∃ m', (mgr.delSid sid).sessions u = some m' ∧ w ∈ m' := by
      rw [ConnMgr.connectSidUid, if_pos connected, ConnMgr.sessions_updateSessions] at found
      split at found
      next same =>
        obtain ⟨m', there, rfl⟩ := Option.map_eq_some_iff.mp found
        rw [ExtTreeMap.mem_insertIfNew, Std.compare_eq_iff_eq] at inside
        rcases inside with here | inside
        · exact .inl ⟨same, here.symm⟩
        · exact .inr ⟨m', there, inside⟩
      next => exact .inr ⟨m, found, inside⟩
    rcases kept with ⟨rfl, rfl⟩ | ⟨m', there, inside'⟩
    · refine ⟨sid, rfl, (added _).mpr (.inl rfl), ?_⟩
      rw [ConnMgr.getUid_connectSidUid _ _ _ _ connected, if_pos rfl]
    · obtain ⟨s, rfl, still, here⟩ := without u m' there w inside'
      have different : s ≠ sid := by
        rintro rfl
        exact ConnMgr.not_mem_delSid mgr s still
      refine ⟨s, rfl, (added _).mpr (.inr still), ?_⟩
      rw [ConnMgr.getUid_delSid, if_neg different] at here
      rw [ConnMgr.getUid_connectSidUid _ _ _ _ connected, if_neg different]
      exact here

end MembersMapped

/-- A connected socket stays connected, and no other is. -/
theorem ConnMgr.mem_connectSidUid (mgr : ConnMgr) (sid uid : Int32) (w : UInt64)
    (connected : wordOfInt sid ∈ mgr.sidToUid) :
    w ∈ (mgr.connectSidUid sid uid).sidToUid ↔ w ∈ mgr.sidToUid := by
  rw [ConnMgr.connectSidUid, if_pos (ExtTreeMap.contains_iff_mem.mpr connected),
    ConnMgr.sidToUid_updateSessions, ExtTreeMap.mem_insertIfNew, ConnMgr.delSid,
    ConnMgr.sidToUid_updateSessions, ExtTreeMap.mem_erase, ne_eq, Std.compare_eq_iff_eq]
  constructor
  · rintro (rfl | ⟨_, inside⟩)
    · exact connected
    · exact inside
  · intro inside
    by_cases same : wordOfInt sid = w
    · exact .inl same
    · exact .inr ⟨same, inside⟩

end AcosChat

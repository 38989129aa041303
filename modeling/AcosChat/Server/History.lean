import AcosChat.Db.Browsing
import AcosChat.Lib.Latest
import AcosChat.Lib.Run
import AcosChat.Server.SendMessage

/-!
# The history of messages

What `browse_history` yields of the messages that `broadcast_message_event_handler` has stored.
`get_tstamp` packs the seconds into the upper half of a `uint64_t`, and the column is signed:
from 2^31 seconds on the times are negative, and come before all others.
-/
namespace AcosChat

open Run Latest

/-! ### Times -/

/-- A time of `gettimeofday` whose seconds fit the upper half of a time stamp. -/
structure Timeval where
  sec : Nat
  usec : Nat
  sec_lt : sec < 4294967296
  usec_lt : usec < 1000000
deriving DecidableEq, Repr

/-- The order of times. -/
def Timeval.le (x y : Timeval) : Prop := x.sec < y.sec ∨ x.sec = y.sec ∧ x.usec ≤ y.usec

/-- `get_tstamp`, at this time. -/
def getTstamp (tv : Timeval) : UInt64 :=
  UInt64.ofNat tv.sec <<< 32 ||| (UInt64.ofNat tv.usec).toUInt32.toUInt64

/-- `parse_tstamp`: the seconds and the microseconds. -/
def parseTstamp (tstamp : UInt64) : Nat × Nat := ((tstamp >>> 32).toNat, tstamp.toUInt32.toNat)

theorem toNat_getTstamp (tv : Timeval) : (getTstamp tv).toNat = tv.sec * 4294967296 + tv.usec := by
  have sec := tv.sec_lt
  have usec := tv.usec_lt
  have low : ((UInt64.ofNat tv.usec).toUInt32.toUInt64).toNat = tv.usec := by
    simp
    omega
  have high : (UInt64.ofNat tv.sec <<< 32).toNat = tv.sec * 4294967296 := by
    rw [UInt64.toNat_shiftLeft, UInt64.toNat_ofNat', show UInt64.toNat 32 % 64 = 32 from rfl,
      Nat.shiftLeft_eq, @Nat.mod_eq_of_lt tv.sec _ (by omega), Nat.mod_eq_of_lt (by omega)]
  have joined := @Nat.shiftLeft_add_eq_or_of_lt 32 tv.usec (by omega) tv.sec
  rw [Nat.shiftLeft_eq] at joined
  rw [getTstamp, UInt64.toNat_or, low, high]
  exact joined.symm

/-- What the client parses is the time of the server. -/
theorem parseTstamp_getTstamp (tv : Timeval) : parseTstamp (getTstamp tv) = (tv.sec, tv.usec) := by
  have usec := tv.usec_lt
  rw [parseTstamp, UInt64.toNat_shiftRight, UInt64.toNat_toUInt32, toNat_getTstamp, Nat.shiftRight_eq_div_pow]
  change ((tv.sec * 4294967296 + tv.usec) / 4294967296, _) = _
  congr 1 <;> omega

/-- The column is signed. -/
theorem toInt_getTstamp (tv : Timeval) : (getTstamp tv).toInt64.toInt =
    if tv.sec < 2147483648 then (tv.sec : Int) * 4294967296 + tv.usec
    else (tv.sec : Int) * 4294967296 + tv.usec - 18446744073709551616 := by
  have sec := tv.sec_lt
  have usec := tv.usec_lt
  have word : (getTstamp tv).toInt64.toInt = if 2 * (getTstamp tv).toNat < 18446744073709551616
      then ((getTstamp tv).toNat : Int) else (getTstamp tv).toNat - 18446744073709551616 :=
    BitVec.toInt_eq_toNat_cond (getTstamp tv).toBitVec
  rw [word, toNat_getTstamp]
  split <;> split <;> omega

/-- Whether the time stamp is negative in the column. -/
def Timeval.Late (tv : Timeval) : Prop := 2147483648 ≤ tv.sec

/-- On either side of 2^31 seconds the column is ordered as the times are. -/
theorem getTstamp_le_iff {x y : Timeval} (half : x.Late ↔ y.Late) :
    (getTstamp x).toInt64 ≤ (getTstamp y).toInt64 ↔ x.le y := by
  have usec := x.usec_lt
  have usec' := y.usec_lt
  unfold Timeval.Late at half
  rw [Int64.le_iff_toInt_le, toInt_getTstamp, toInt_getTstamp, Timeval.le]
  split <;> split <;> omega

/-- Across it the later time is the lesser one. -/
theorem getTstamp_lt {early late : Timeval} (first : ¬early.Late) (second : late.Late) :
    (getTstamp late).toInt64 < (getTstamp early).toInt64 ∧ ¬late.le early := by
  have usec := late.usec_lt
  have sec := late.sec_lt
  unfold Timeval.Late at first second
  rw [Int64.lt_iff_toInt_lt, toInt_getTstamp, toInt_getTstamp, Timeval.le]
  split <;> split <;> omega

/-! ### Storing and browsing -/

/-- A message that has been stored, and the time at which its event was made. -/
structure KeptMessage where
  message : StoredMessage
  time : Timeval

/-- `broadcast_message_event_handler` for an event made at this time. -/
structure StoreAction where
  noise : List Noise
  evt : Broadcast
  time : Timeval

def storeStep : Step Db StoreAction KeptMessage
  | db, ⟨noise, evt, time⟩ => do
    let after ← storeBroadcast noise { evt with tstamp := getTstamp time } db
    some ((after.messages.drop db.messages.length).map fun message => ⟨message, time⟩, some after)

/-- The table is what has been stored, each message with its own time. -/
structure Keeps (kept : List KeptMessage) (db : Db) : Prop where
  messages : db.messages = kept.map KeptMessage.message
  times : ∀ k ∈ kept, k.message.tstamp = (getTstamp k.time).toInt64

theorem storeBroadcast_cases {noise : List Noise} {evt : Broadcast} {db db' : Db}
    (stored : storeBroadcast noise evt db = some db') :
    db' = db ∨ db' = { db with messages := db.messages ++ [⟨evt.uid, evt.msg, evt.tstamp.toInt64⟩] } := by
  unfold storeBroadcast at stored
  split at stored
  · unfold insertMessage at stored
    split at stored <;> cases stored
    · exact .inl rfl
    · exact .inr rfl
  · cases stored
    exact .inl rfl

theorem keeps_of_ran {db : Db} (empty : db.messages = []) {kept : List KeptMessage} {after : Db}
    (ran : Ran storeStep (fun _ _ => True) db kept after) : Keeps kept after := by
  induction ran with
  | start => exact ⟨empty, by simp⟩
  | @step kept before after action did _ _ taken keeps =>
    obtain ⟨noise, evt, time⟩ := action
    obtain ⟨after', stored, same⟩ := Option.bind_eq_some_iff.mp taken
    cases same
    rcases storeBroadcast_cases stored with rfl | rfl
    · simpa using keeps
    · refine ⟨by simp [keeps.messages], ?_⟩
      intro k member
      rcases List.mem_append.mp member with old | new
      · exact keeps.times k old
      · simp only [List.drop_left, List.map_cons, List.map_nil, List.mem_singleton] at new
        rw [new]

/-- These rows are the latest of the messages that have been stored, in order of their times, and
each time can be read back. -/
def ChronologicalTail (cnt : Int32) (kept : List KeptMessage) (rows : List StoredMessage) : Prop :=
  ∃ yielded omitted : List KeptMessage, (yielded ++ omitted).Perm kept ∧
    rows = yielded.map KeptMessage.message ∧
    (yielded.length : Int) = min (min (max cnt.toInt 0) maxHistoryLength) kept.length ∧
    (yielded.Pairwise fun x y => x.time.le y.time) ∧
    (∀ x ∈ omitted, ∀ y ∈ yielded, x.time.le y.time) ∧
    ∀ y ∈ yielded, parseTstamp y.message.tstamp.toUInt64 = (y.time.sec, y.time.usec)

/-- All of the times are on one side of 2^31 seconds. -/
def OneHalf (kept : List KeptMessage) : Prop :=
  (∀ k ∈ kept, ¬k.time.Late) ∨ ∀ k ∈ kept, k.time.Late

theorem OneHalf.iff {kept : List KeptMessage} (oneHalf : OneHalf kept) {x y : KeptMessage} (first : x ∈ kept)
    (second : y ∈ kept) : x.time.Late ↔ y.time.Late := by
  rcases oneHalf with early | late
  · exact iff_of_false (early x first) (early y second)
  · exact iff_of_true (late x first) (late y second)

/-! ### What is yielded -/

def byTstamp (x y : StoredMessage) : Bool := x.tstamp ≤ y.tstamp

theorem byTstamp_trans (x y z : StoredMessage) (first : byTstamp x y = true) (second : byTstamp y z = true) :
    byTstamp x z = true := by
  simp only [byTstamp, decide_eq_true_eq] at first second ⊢
  exact Int64.le_trans first second

theorem byTstamp_total (x y : StoredMessage) : (byTstamp x y || byTstamp y x) = true := by
  simp only [byTstamp, Bool.or_eq_true, decide_eq_true_eq]
  exact Int64.le_total _ _

theorem selectHistory_eq_latest (db : Db) (limit : Nat) :
    selectHistory db limit = Latest.latest byTstamp limit db.messages := rfl

/-- The order of the column over the messages that have been stored. -/
def byColumn (x y : KeptMessage) : Bool := byTstamp x.message y.message

theorem Keeps.byColumn_iff {kept : List KeptMessage} {db : Db} (keeps : Keeps kept db) {x y : KeptMessage}
    (first : x ∈ kept) (second : y ∈ kept) : byColumn x y = true ↔
      (getTstamp x.time).toInt64 ≤ (getTstamp y.time).toInt64 := by
  rw [byColumn, byTstamp, decide_eq_true_eq, keeps.times x first, keeps.times y second]

theorem byColumn_trans (x y z : KeptMessage) : byColumn x y = true → byColumn y z = true → byColumn x z = true :=
  byTstamp_trans x.message y.message z.message

theorem byColumn_total (x y : KeptMessage) : (byColumn x y || byColumn y x) = true :=
  byTstamp_total x.message y.message

theorem toNat_toRange (cnt : Int32) :
    ((toRange 0 cnt.toInt maxHistoryLength).toNat : Int) = min (max cnt.toInt 0) maxHistoryLength := by
  unfold toRange maxHistoryLength
  split
  · omega
  · split <;> omega

/-- The count, and what the limit omits, are right on any table. -/
theorem Keeps.latest {kept : List KeptMessage} {db : Db} (keeps : Keeps kept db) (limit : Nat) :
    selectHistory db limit = (Latest.latest byColumn limit kept).map KeptMessage.message := by
  rw [selectHistory_eq_latest, keeps.messages]
  exact (map_latest limit kept KeptMessage.message fun _ _ => rfl).symm

theorem mem_of_latest {limit : Nat} {kept : List KeptMessage} {k : KeptMessage}
    (member : k ∈ Latest.latest byColumn limit kept ∨ k ∈ omitted byColumn limit kept) : k ∈ kept :=
  (latest_append_omitted byColumn limit kept).mem_iff.mp (List.mem_append.mpr member)

/-- On one side of 2^31 seconds the rows are the chronological tail. -/
theorem Keeps.chronologicalTail {kept : List KeptMessage} {db : Db} (keeps : Keeps kept db) (cnt : Int32)
    (fine : cnt.toInt ≤ 0 ∨ OneHalf kept) :
    ChronologicalTail cnt kept (selectHistory db (toRange 0 cnt.toInt maxHistoryLength).toNat) := by
  have limit := toNat_toRange cnt
  generalize (toRange 0 cnt.toInt maxHistoryLength).toNat = n at limit ⊢
  -- the column is a signed integer, whose order is that of the times within one half alone
  have ordered : ∀ x ∈ kept, ∀ y ∈ kept, byColumn x y = true → n ≠ 0 → x.time.le y.time := by
    intro x first y second column some_
    have oneHalf := fine.resolve_left (by unfold maxHistoryLength at limit; omega)
    rw [keeps.byColumn_iff first second, getTstamp_le_iff (oneHalf.iff first second)] at column
    exact column
  have size := length_latest byColumn n kept
  have nonempty : ∀ k ∈ Latest.latest byColumn n kept, n ≠ 0 := by
    rintro k member rfl
    rw [Nat.zero_min, List.length_eq_zero_iff] at size
    rw [size] at member
    cases member
  refine ⟨Latest.latest byColumn n kept, omitted byColumn n kept, latest_append_omitted _ _ _, keeps.latest n,
    ?_, ?_, ?_, ?_⟩
  · rw [size, ← limit]
    omega
  · have sorted := pairwise_latest n kept byColumn_trans byColumn_total
    apply sorted.imp_of_mem
    intro x y first second column
    exact ordered x (mem_of_latest (.inl first)) y (mem_of_latest (.inl second)) column (nonempty x first)
  · intro x cut y member
    have column := omitted_le_latest n kept byColumn_trans byColumn_total cut member
    exact ordered x (mem_of_latest (.inr cut)) y (mem_of_latest (.inl member)) column (nonempty y member)
  · intro y member
    rw [keeps.times y (mem_of_latest (.inl member)), UInt64.toUInt64_toInt64, parseTstamp_getTstamp]

/-- With messages from both sides the rows are not, unless none are asked for. -/
theorem Keeps.not_chronologicalTail {kept : List KeptMessage} {db : Db} (keeps : Keeps kept db) {cnt : Int32}
    (asked : 0 < cnt.toInt) {early late : KeptMessage} (first : early ∈ kept) (second : late ∈ kept)
    (isEarly : ¬early.time.Late) (isLate : late.time.Late) :
    ¬ChronologicalTail cnt kept (selectHistory db (toRange 0 cnt.toInt maxHistoryLength).toNat) := by
  rintro ⟨yielded, cut, whole, rows, size, sorted, later, _⟩
  have limit := toNat_toRange cnt
  generalize (toRange 0 cnt.toInt maxHistoryLength).toNat = n at limit rows
  have inKept : ∀ k, k ∈ yielded ∨ k ∈ cut → k ∈ kept := fun k member =>
    whole.mem_iff.mp (List.mem_append.mpr member)
  -- The rows are in the order of the column.
  have column : yielded.Pairwise fun x y => byColumn x y = true := by
    have sortedRows := pairwise_latest n db.messages byTstamp_trans byTstamp_total
    rw [← selectHistory_eq_latest, rows] at sortedRows
    exact List.pairwise_map.mp sortedRows
  have cutRows : (cut.map KeptMessage.message).Perm (omitted byTstamp n db.messages) := by
    have parts := latest_append_omitted byTstamp n db.messages
    have parts' := whole.map KeptMessage.message
    rw [← selectHistory_eq_latest, rows] at parts
    rw [List.map_append, ← keeps.messages] at parts'
    exact (List.perm_append_left_iff _).mp (parts'.trans parts.symm)
  -- The greatest one in that order is early.
  obtain ⟨top, inside, topEarly⟩ : ∃ top ∈ yielded, ¬top.time.Late := by
    rcases List.mem_append.mp (whole.mem_iff.mpr first) with here | omittedEarly
    · exact ⟨early, here, isEarly⟩
    have some_ : yielded ≠ [] := by
      rintro rfl
      have positive := List.length_pos_of_mem first
      simp only [List.length_nil, maxHistoryLength] at size
      omega
    obtain ⟨top, inside⟩ := List.exists_mem_of_ne_nil yielded some_
    refine ⟨top, inside, ?_⟩
    intro topLate
    have kept := omitted_le_latest n db.messages byTstamp_trans byTstamp_total
      (cutRows.mem_iff.mp (List.mem_map_of_mem omittedEarly))
      (by rw [← selectHistory_eq_latest, rows]; exact List.mem_map_of_mem inside)
    have least := (keeps.byColumn_iff first (inKept top (.inl inside))).mp kept
    exact absurd (getTstamp_lt isEarly topLate).1 (Int64.not_lt.mpr least)
  have conflict : ∀ x ∈ yielded, ¬x.time.Late → ∀ y ∈ yielded, y.time.Late → False := by
    intro x memberX earlyX y memberY lateY
    -- In the one order y comes before x, in the other one behind it.
    let R : KeptMessage → KeptMessage → Prop := fun x y =>
      (byColumn y x = false → x.time.le y.time) ∧ (byColumn x y = false → y.time.le x.time)
    have symmetric : Std.Symm R := ⟨fun _ _ both => ⟨both.2, both.1⟩⟩
    have ordered : yielded.Pairwise R := (column.and sorted).imp fun {x y} both =>
      ⟨fun _ => both.2, fun other => absurd both.1 (by simp [other])⟩
    have both := ordered.forall_of_forall (fun x _ => ⟨fun other => absurd (byColumn_total x x) (by simp [other]),
      fun other => absurd (byColumn_total x x) (by simp [other])⟩) memberY memberX
    obtain ⟨behind, wrong⟩ := getTstamp_lt earlyX lateY
    apply wrong (both.1 _)
    rw [Bool.eq_false_iff]
    intro column
    have least := (keeps.byColumn_iff (inKept x (.inl memberX)) (inKept y (.inl memberY))).mp column
    exact absurd behind (Int64.not_lt.mpr least)
  rcases List.mem_append.mp (whole.mem_iff.mpr second) with here | omittedLate
  · exact conflict top inside topEarly late here isLate
  · exact (getTstamp_lt topEarly isLate).2 (later late omittedLate top inside)

/-- What `browse_history` yields of the messages that have been stored is their chronological tail,
and each time is read back, if and only if none are asked for or their times are on one side
of 2^31 seconds. -/
theorem chronological_tail_iff (db : Db) (empty : db.messages = []) {kept : List KeptMessage} {after : Db}
    (ran : Ran storeStep (fun _ _ => True) db kept after) (cnt : Int32) (noise : List Noise)
    (rows : List StoredMessage) (browsed : browseHistory noise cnt.toInt after = some rows) :
    ChronologicalTail cnt kept rows ↔ cnt.toInt ≤ 0 ∨ OneHalf kept := by
  have keeps := keeps_of_ran empty ran
  rw [rows_of_browseHistory browsed]
  constructor
  · intro tail
    by_contra other
    rw [not_or, OneHalf, not_or] at other
    obtain ⟨asked, someLate, someEarly⟩ := other
    obtain ⟨late, second, isLate⟩ := not_forall₂.mp someLate
    obtain ⟨early, first, isEarly⟩ := not_forall₂.mp someEarly
    exact keeps.not_chronologicalTail (Int.not_le.mp asked) first second isEarly (not_not.mp isLate) tail
  · exact keeps.chronologicalTail cnt

/-- The last second before 2^31, and that second. -/
def lastEarly : Timeval := ⟨2147483647, 999999, by decide, by decide⟩

def firstLate : Timeval := ⟨2147483648, 0, by decide, by decide⟩

/-- A REGULAR message of root at each of these times. -/
def storedAt (times : List Timeval) : List StoreAction :=
  times.map fun time => ⟨[], ⟨0, messageServerRegular, none, [104, 105], rootUid⟩, time⟩

/-- Two messages of the earlier half. -/
theorem chronological_tail_iff_early : ∃ kept after rows,
    replay storeStep (⟨[], []⟩ : Db) (storedAt [lastEarly, lastEarly]) = some (kept, after) ∧
    browseHistory [] (50 : Int32).toInt after = some rows ∧ ChronologicalTail 50 kept rows := by
  have ran : ∃ kept after, replay storeStep (⟨[], []⟩ : Db) (storedAt [lastEarly, lastEarly]) = some (kept, after) ∧
      kept.map KeptMessage.time = [lastEarly, lastEarly] := ⟨_, _, rfl, rfl⟩
  obtain ⟨kept, after, replayed, times⟩ := ran
  refine ⟨kept, after, _, replayed, browseHistory_quiet (by simp) _ after, ?_⟩
  refine (chronological_tail_iff ⟨[], []⟩ rfl (ran_of_replay (meets_of_forall (fun _ _ => trivial) _ _) replayed)
    50 [] _ (browseHistory_quiet (by simp) _ after)).mpr (.inr (.inl ?_))
  intro k member
  have time : k.time ∈ [lastEarly, lastEarly] := times ▸ List.mem_map_of_mem member
  have same : k.time = lastEarly := by simpa using time
  simp [same, Timeval.Late, lastEarly]

/-- The message of the later second is yielded before that of the earlier one. -/
theorem history_out_of_order : ¬∀ (db : Db), db.messages = [] → ∀ (kept : List KeptMessage) (after : Db),
    Ran storeStep (fun _ _ => True) db kept after → ∀ (cnt : Int32) (noise : List Noise)
    (rows : List StoredMessage), browseHistory noise cnt.toInt after = some rows →
    ChronologicalTail cnt kept rows := by
  intro claim
  have ran : ∃ kept after early late,
      replay storeStep (⟨[], []⟩ : Db) (storedAt [lastEarly, firstLate]) = some (kept, after) ∧
      kept = [early, late] ∧ early.time = lastEarly ∧ late.time = firstLate :=
    ⟨_, _, _, _, rfl, rfl, rfl, rfl⟩
  obtain ⟨kept, after, early, late, replayed, whole, isEarly, isLate⟩ := ran
  have run := ran_of_replay (meets_of_forall (fun _ _ => trivial) _ _) replayed
  have tail := claim ⟨[], []⟩ rfl kept after run 50 [] _ (browseHistory_quiet (by simp) _ after)
  have keeps := keeps_of_ran rfl run
  have asked : 0 < (50 : Int32).toInt := by decide
  have firstThere : early ∈ kept := by simp [whole]
  have secondThere : late ∈ kept := by simp [whole]
  exact keeps.not_chronologicalTail asked firstThere secondThere
    (by simp [isEarly, Timeval.Late, lastEarly]) (by simp [isLate, Timeval.Late, firstLate]) tail

end AcosChat

import AcosChat.Message.Safety
import AcosChat.Connection.Model

/-!
# The calls of `recv`

`process_connection` with a record of the calls of `recv` that it makes. As long as the
two counters of a connection fit its buffers, every call stays inside the header or the
body, and the counters fit again, unless a header has announced a length that
`bytes_expected` cannot count. A call that has the header complete goes on to the body
at once, so it is the one that receives twice.
-/
namespace AcosChat

open Bytes

/-! ### The record -/

/-- A call of `recv`: the size of the block, where in it the bytes go, and how many are
asked for; for the body also what the header announces. -/
inductive RecvCall where
  | header (size : Nat) (offset len : Int)
  | body (bodySize : Int) (size : Nat) (offset len : Int)
deriving DecidableEq, Repr

/-- The calls, and how the receiving part ends. -/
abbrev Logged := List RecvCall × Received

/-- `receiveBody` -/
def loggedBody (conn : Connection) (bodySize : Int) (body : Block) (wire : Wire) : Logged :=
  ([.body bodySize body.length (conn.bytesRead - msgHeaderSize) (conn.bytesExpected - conn.bytesRead)],
    receiveBody conn body wire)

/-- `receiveRest` -/
def loggedRest (conn : Connection) (count : Nat) (wire : Wire) : Logged :=
  let conn := { conn with bytesRead := conn.bytesRead + count }
  if conn.bytesRead < (msgHeaderSize : Int) then ([], .unfinished conn wire)
  else match conn.header.bind announcedLength with
    | none => ([], .fault)
    | some bodySize =>
      if bodySize < 0 then ([], .lost conn wire .corrupted)
      else if bodySize = 0 then ([], checkComplete conn wire)
      else match conn.body with
        | some body => loggedBody conn bodySize body wire
        | none =>
          match malloc wire bodySize.toNat with
          | none => ([], .lost conn wire .badMalloc)
          | some body =>
            if 2147483647 < conn.bytesExpected + bodySize then ([], .fault)
            else
              loggedBody { conn with body := some body,
                                     bytesExpected := conn.bytesExpected + bodySize } bodySize body wire

/-- `receiveHeader` -/
def loggedHeader (conn : Connection) (header : Block) (wire : Wire) : Logged :=
  let len := conn.bytesExpected - conn.bytesRead
  let call := .header header.length conn.bytesRead len
  match recv len wire with
  | .blocks => ([call], .blocked conn)
  | .failed => ([call], .lost conn wire .badCount)
  | .data bytes wire =>
    match store header conn.bytesRead bytes with
    | none => ([call], .fault)
    | some header =>
      let (calls, rest) := loggedRest { conn with header := some header } bytes.length wire
      -- The second call, if there is one, follows without a poll between them.
      (call :: calls, rest)

/-- `receive` -/
def loggedReceive (conn : Connection) (wire : Wire) : Logged :=
  if conn.bytesRead < msgHeaderSize then
    match conn.header with
    | some header => loggedHeader conn header wire
    | none =>
      match malloc wire msgHeaderSize with
      | none => ([], .lost conn wire .badMalloc)
      | some header => loggedHeader { conn with header := some header } header wire
  else loggedRest conn 0 wire

theorem loggedRest_snd (conn : Connection) (count : Nat) (wire : Wire) :
    (loggedRest conn count wire).2 = receiveRest conn count wire := by
  simp only [loggedRest, receiveRest]
  by_cases short : conn.bytesRead + count < (msgHeaderSize : Int)
  · simp only [if_pos short]
  simp only [if_neg short]
  -- The two follow each other from branch to branch.
  cases conn.header.bind announcedLength with
  | none => rfl
  | some bodySize =>
    dsimp only
    by_cases negative : bodySize < 0
    · simp only [if_pos negative]
    by_cases empty : bodySize = 0
    · simp only [if_neg negative, if_pos empty]
    simp only [if_neg negative, if_neg empty]
    cases conn.body with
    | some body => rfl
    | none =>
      cases malloc wire bodySize.toNat with
      | none => rfl
      | some body => exact apply_ite Prod.snd _ _ _

theorem loggedHeader_snd (conn : Connection) (header : Block) (wire : Wire) :
    (loggedHeader conn header wire).2 = receiveHeader conn header wire := by
  simp only [loggedHeader, receiveHeader]
  cases recv (conn.bytesExpected - conn.bytesRead) wire with
  | blocks => rfl
  | failed => rfl
  | data bytes wire =>
    dsimp only
    cases store header conn.bytesRead bytes with
    | none => rfl
    | some header => exact loggedRest_snd _ _ _

/-- The record is one of `receive`. -/
theorem loggedReceive_snd (conn : Connection) (wire : Wire) :
    (loggedReceive conn wire).2 = receive conn wire := by
  simp only [loggedReceive, receive]
  by_cases short : conn.bytesRead < (msgHeaderSize : Int)
  · simp only [if_pos short]
    cases conn.header with
    | some header => exact loggedHeader_snd _ _ _
    | none =>
      cases malloc wire msgHeaderSize with
      | none => rfl
      | some header => exact loggedHeader_snd _ _ _
  · simp only [if_neg short]
    exact loggedRest_snd _ _ _

/-- The calls of `recv` that `process_connection` makes. -/
def recvCalls (conn : Connection) (wire : Wire) : List RecvCall := (loggedReceive conn wire).1

/-! ### Counters in range -/

/-- The counters of a connection fit its buffers. -/
structure InRange (conn : Connection) : Prop where
  nonneg : 0 ≤ conn.bytesRead
  le : conn.bytesRead ≤ conn.bytesExpected
  header : ∀ header, conn.header = some header → header.length = msgHeaderSize
  fresh : conn.header = none → conn.bytesRead = 0
  waiting : conn.body = none → conn.bytesExpected = msgHeaderSize
  /-- The body is as long as the header announces, and `bytes_expected` is an `int`. -/
  announced : ∀ body, conn.body = some body →
    conn.header.bind announcedLength = some (body.length : Int) ∧
    (msgHeaderSize : Int) ≤ conn.bytesRead ∧
    conn.bytesExpected = msgHeaderSize + body.length ∧ conn.bytesExpected ≤ 2147483647

theorem inRange_newConnection (sockid : Int32) : InRange (newConnection sockid) where
  nonneg := Int.le_refl 0
  le := by simp [newConnection, msgHeaderSize]
  header := nofun
  fresh _ := rfl
  waiting _ := rfl
  announced := nofun

theorem inRange_resetConnection (conn : Connection) : InRange (resetConnection conn) where
  nonneg := Int.le_refl 0
  le := by simp [resetConnection, msgHeaderSize]
  header := nofun
  fresh _ := rfl
  waiting _ := rfl
  announced := nofun

/-- The worker flag is none of the counters. -/
theorem InRange.setInWorker {conn : Connection} (range : InRange conn) (inWorker : Bool) :
    InRange { conn with inWorker := inWorker } :=
  ⟨range.nonneg, range.le, range.header, range.fresh, range.waiting, range.announced⟩

/-- The bytes go into `header[0, 5)` or into `body[0, body_size)`, and there are none with a
negative length. -/
def RecvCall.Inside : RecvCall → Prop
  | .header size offset len => size = msgHeaderSize ∧ 0 ≤ offset ∧ 0 ≤ len ∧ offset + len ≤ size
  | .body bodySize size offset len => (size : Int) = bodySize ∧ 0 ≤ offset ∧ 0 ≤ len ∧ offset + len ≤ size

def Received.InRange : Received → Prop
  | .blocked conn | .unfinished conn _ | .complete conn _ => AcosChat.InRange conn
  -- The connection is closed.
  | .lost .. => True
  | .fault => False

def Logged.InRange (logged : Logged) : Prop :=
  (∀ call ∈ logged.1, call.Inside) ∧ logged.2.InRange

/-- The calls are in range, or they end in a fault, which they do just under a condition. -/
def Logged.FaultsIff (logged : Logged) (cond : Prop) : Prop :=
  (logged.InRange ∧ ¬cond) ∨ (logged.2 = .fault ∧ cond)

theorem Logged.FaultsIff.inRange_iff {logged : Logged} {cond : Prop} (spec : logged.FaultsIff cond) :
    logged.InRange ↔ ¬cond := by
  rcases spec with ⟨range, fine⟩ | ⟨fault, past⟩
  · exact iff_of_true range fine
  · refine iff_of_false (fun range => ?_) (not_not_intro past)
    have ending := range.2
    rw [fault] at ending
    exact ending

theorem Logged.FaultsIff.congr {logged : Logged} {cond cond' : Prop} (spec : logged.FaultsIff cond)
    (same : cond ↔ cond') : logged.FaultsIff cond' := by
  rwa [FaultsIff, ← same]

/-! ### What a call has to do with the header -/

/-- The bytes that the header still lacks. -/
def missingHeader (conn : Connection) : Nat := (msgHeaderSize - conn.bytesRead).toNat

/-- The length that the header announces, if a call of `process_connection` has it complete. -/
def announcedBy (conn : Connection) (wire : Wire) : Option Int :=
  let missing := missingHeader conn
  -- `recv` returns all of what is missing, into a block that is there.
  if (conn.header = none → wire.mallocOk msgHeaderSize = true) ∧ missing ≤ wire.pending.length ∧
      ∀ cut ∈ wire.cuts.head?, missing ≤ max 1 cut then
    announcedLength ((conn.header.getD []).take conn.bytesRead.toNat ++ wire.pending.take missing)
  else none

/-- The header, complete, announces a length that `bytes_expected` cannot count, and
`malloc` serves it. -/
def Overflows (conn : Connection) (wire : Wire) : Prop :=
  conn.body = none ∧ ∃ length, announcedBy conn wire = some length ∧
    2147483647 - msgHeaderSize < length ∧ wire.mallocOk length.toNat = true

/-- The call has the header complete, and goes on to the block of a body. -/
def GoesOn (conn : Connection) (wire : Wire) : Prop :=
  conn.bytesRead < msgHeaderSize ∧ ∃ length, announcedBy conn wire = some length ∧
    0 < length ∧ length ≤ 2147483647 - msgHeaderSize ∧ wire.mallocOk length.toNat = true

/-! ### One `recv` -/

/-- What `recv` returns: at least one byte, and all that is asked for just when it is pending
and not cut. -/
theorem recv_eq_data {len : Int} {wire wire' : Wire} {bytes : Block} (nonneg : 0 ≤ len)
    (small : len ≤ 2147483647) (got : recv len wire = .data bytes wire') :
    0 < bytes.length ∧ (bytes.length : Int) ≤ len ∧ bytes = wire.pending.take bytes.length ∧
    wire'.mallocOk = wire.mallocOk ∧
    ((bytes.length : Int) = len ↔
      len ≤ wire.pending.length ∧ ∀ cut ∈ wire.cuts.head?, len ≤ (max 1 cut : Nat)) := by
  have size : sizeOfInt len = len.toNat := by
    unfold sizeOfInt
    omega
  unfold recv at got
  split at got
  next => cases got
  next nonzero =>
    split at got
    next =>
      -- Nothing is pending, and nothing is returned.
      split at got <;> cases got
    next some =>
      have there := List.length_pos_of_ne_nil some
      rw [size] at got
      dsimp only at got
      obtain ⟨rfl, rfl⟩ := RecvResult.data.inj got
      cases cuts : wire.cuts with
      | nil =>
        simp only [List.length_take, List.head?_nil, Option.mem_def, reduceCtorEq, false_implies,
          implies_true, and_true, true_and]
        refine ⟨by omega, by omega, ?_, by omega⟩
        congr 1
        omega
      | cons cut cuts =>
        simp only [List.length_take, List.head?_cons, Option.mem_def, Option.some.injEq, true_and,
          forall_eq']
        refine ⟨by omega, by omega, ?_, by omega⟩
        congr 1
        omega

theorem recv_eq_blocks {len : Int} {wire : Wire} (waits : recv len wire = .blocks) :
    wire.pending = [] ∧ wire.ending = .quiet := by
  unfold recv at waits
  split at waits
  next => cases waits
  next =>
    split at waits
    next empty =>
      split at waits
      next quiet => exact ⟨empty, quiet⟩
      next => cases waits
      next => cases waits
    next => cases waits

theorem recv_eq_failed {len : Int} {wire : Wire} (positive : 0 < len)
    (failed : recv len wire = .failed) : wire.pending = [] := by
  unfold recv at failed
  rw [if_neg (by omega)] at failed
  split at failed
  next empty => exact empty
  next => cases failed

/-- A write that fits. -/
theorem store_of_fits (block bytes : Block) (offset : Int) (nonneg : 0 ≤ offset)
    (fits : offset + bytes.length ≤ block.length) :
    store block offset bytes =
      some (block.take offset.toNat ++ bytes ++ block.drop (offset.toNat + bytes.length)) := by
  rw [store, if_pos ⟨nonneg, fits⟩]

/-! ### One call -/

theorem checkComplete_inRange {conn : Connection} (wire : Wire) (range : InRange conn) :
    (checkComplete conn wire).InRange := by
  unfold checkComplete
  split <;> exact range

theorem loggedBody_inRange {conn : Connection} {body : Block} (range : InRange conn)
    (there : conn.body = some body) (wire : Wire) :
    (loggedBody conn body.length body wire).InRange := by
  obtain ⟨announced, five, expected, int⟩ := range.announced body there
  have le := range.le
  constructor
  -- The call asks for what is missing of the body.
  · intro call member
    simp only [loggedBody, List.mem_singleton] at member
    subst call
    exact ⟨rfl, by omega, by omega, by omega⟩
  · simp only [loggedBody, receiveBody]
    cases got : recv (conn.bytesExpected - conn.bytesRead) wire with
    | blocks => exact range
    | failed => trivial
    | data bytes wire' =>
      obtain ⟨_, asked, _⟩ := recv_eq_data (by omega) (by omega) got
      have wrote := store_of_fits body bytes (conn.bytesRead - msgHeaderSize) (by omega) (by omega)
      have same := length_store _ _ _ _ wrote
      simp only [wrote]
      apply checkComplete_inRange
      refine ⟨?_, ?_, range.header, ?_, nofun, ?_⟩
      · have nonneg := range.nonneg
        dsimp only
        omega
      · dsimp only
        omega
      · -- Something has been read, so the header is there.
        intro absent
        rw [absent] at announced
        cases announced
      · intro body' stored
        cases stored
        rw [same]
        exact ⟨announced, by dsimp only; omega, expected, int⟩

/-- The length that a complete header announces. -/
def completeLength (conn : Connection) : Option Int :=
  if conn.bytesRead < (msgHeaderSize : Int) then none else conn.header.bind announcedLength

theorem loggedRest_counted (conn : Connection) (count : Nat) (wire : Wire) :
    loggedRest conn count wire =
      loggedRest { conn with bytesRead := conn.bytesRead + count } 0 wire := by
  simp only [loggedRest, Int.natCast_zero, Int.add_zero]

/-- What follows the header: at most one call, and one that stays in range unless the length
overflows. -/
theorem loggedRest_spec {conn : Connection} (range : InRange conn) (wire : Wire) :
    (loggedRest conn 0 wire).FaultsIff (conn.body = none ∧ ∃ length,
      completeLength conn = some length ∧ 2147483647 - msgHeaderSize < length ∧
      wire.mallocOk length.toNat = true) ∧
    (loggedRest conn 0 wire).1.length ≤ 1 ∧
    (conn.body = none → ((loggedRest conn 0 wire).1 ≠ [] ↔ ∃ length,
      completeLength conn = some length ∧ 0 < length ∧ length ≤ 2147483647 - msgHeaderSize ∧
      wire.mallocOk length.toNat = true)) := by
  have five : (msgHeaderSize : Int) = 5 := rfl
  obtain ⟨sockid, header, block, read, expected, inWorker⟩ := conn
  have nonneg := range.nonneg
  have le := range.le
  simp only [loggedRest, completeLength, Int.natCast_zero, Int.add_zero]
  dsimp only at nonneg le
  by_cases short : read < (msgHeaderSize : Int)
  · simp only [if_pos short]
    exact ⟨.inl ⟨⟨by simp, range⟩, by simp⟩, by simp, by simp⟩
  simp only [if_neg short]
  cases header with
  | none =>
    -- Five bytes are not read into no block.
    have zero := range.fresh rfl
    dsimp only at zero
    omega
  | some header =>
  obtain ⟨length, announced⟩ : ∃ length, announcedLength header = some length := by
    have size := range.header header rfl
    simp [announcedLength, load, size, msgHeaderSize]
  simp only [Option.bind_some, announced, Option.some.injEq, exists_eq_left']
  by_cases negative : length < 0
  · simp only [if_pos negative]
    refine ⟨.inl ⟨⟨by simp, trivial⟩, by omega⟩, by simp, ?_⟩
    · simp only [ne_eq, not_true_eq_false, false_iff]
      omega
  by_cases empty : length = 0
  · simp only [if_neg negative, if_pos empty]
    refine ⟨?_, by simp, ?_⟩
    · have complete : (checkComplete ⟨sockid, some header, block, read, expected, inWorker⟩ wire).InRange :=
        checkComplete_inRange wire range
      exact .inl ⟨⟨by simp, complete⟩, by omega⟩
    · simp only [ne_eq, not_true_eq_false, false_iff]
      omega
  simp only [if_neg negative, if_neg empty]
  cases block with
  | some body =>
    -- A later call for the same body.
    obtain ⟨same, _⟩ := range.announced body rfl
    rw [Option.bind_some, announced, Option.some.injEq] at same
    subst same
    exact ⟨.inl ⟨loggedBody_inRange range rfl wire, by simp⟩, by simp [loggedBody], by simp⟩
  | none =>
    have waiting := range.waiting rfl
    dsimp only at waiting
    simp only [malloc, true_and, forall_const]
    cases served : wire.mallocOk length.toNat with
    | false => exact ⟨.inl ⟨⟨by simp, trivial⟩, by simp⟩, by simp, by simp⟩
    | true =>
      simp only [ite_true, and_true]
      by_cases past : 2147483647 < expected + length
      · simp only [if_pos past]
        refine ⟨.inr ⟨rfl, by omega⟩, by simp, ?_⟩
        simp only [ne_eq, not_true_eq_false, false_iff]
        omega
      · simp only [if_neg past]
        have size : (List.replicate length.toNat (0 : UInt8)).length = length := by
          rw [List.length_replicate]
          omega
        have extended : InRange ⟨sockid, some header, some (List.replicate length.toNat 0), read,
            expected + length, inWorker⟩ := by
          refine ⟨nonneg, by dsimp only; omega, range.header, by simp, by simp, ?_⟩
          intro body there
          cases there
          rw [Option.bind_some, announced, size]
          exact ⟨rfl, by dsimp only; omega, by dsimp only; omega, by dsimp only; omega⟩
        have ranged := loggedBody_inRange extended rfl wire
        rw [size] at ranged
        refine ⟨.inl ⟨ranged, by omega⟩, by simp [loggedBody], ?_⟩
        refine iff_of_true ?_ (by omega)
        simp [loggedBody]

/-- Only a call of `recv` can wait, and it waits on a socket that has nothing to report. -/
theorem loggedRest_blocked (conn conn' : Connection) (count : Nat) (wire : Wire)
    (blocked : (loggedRest conn count wire).2 = .blocked conn') :
    (loggedRest conn count wire).1 ≠ [] ∧ wire.pending = [] ∧ wire.ending = .quiet := by
  -- The body is the only part that is received here.
  have body (conn : Connection) (bodySize : Int) (block : Block)
      (blocked : (loggedBody conn bodySize block wire).2 = .blocked conn') :
      (loggedBody conn bodySize block wire).1 ≠ [] ∧ wire.pending = [] ∧ wire.ending = .quiet := by
    refine ⟨by simp [loggedBody], ?_⟩
    simp only [loggedBody, receiveBody] at blocked
    split at blocked
    next waits => exact recv_eq_blocks waits
    next => cases blocked
    next =>
      split at blocked
      next => cases blocked
      next =>
        unfold checkComplete at blocked
        split at blocked <;> cases blocked
  simp only [loggedRest] at blocked ⊢
  by_cases short : conn.bytesRead + count < (msgHeaderSize : Int)
  · simp only [if_pos short] at blocked
    cases blocked
  simp only [if_neg short] at blocked ⊢
  cases announced : conn.header.bind announcedLength with
  | none =>
    simp only [announced] at blocked
    cases blocked
  | some bodySize =>
    simp only [announced] at blocked ⊢
    by_cases negative : bodySize < 0
    · simp only [if_pos negative] at blocked
      cases blocked
    by_cases empty : bodySize = 0
    · simp only [if_neg negative, if_pos empty, checkComplete] at blocked
      split at blocked <;> cases blocked
    simp only [if_neg negative, if_neg empty] at blocked ⊢
    cases there : conn.body with
    | some block =>
      simp only [there] at blocked ⊢
      exact body _ _ _ blocked
    | none =>
      simp only [there] at blocked ⊢
      cases served : malloc wire bodySize.toNat with
      | none =>
        simp only [served] at blocked
        cases blocked
      | some block =>
        simp only [served] at blocked ⊢
        by_cases past : 2147483647 < conn.bytesExpected + bodySize
        · simp only [if_pos past] at blocked
          cases blocked
        · simp only [if_neg past] at blocked ⊢
          exact body _ _ _ blocked

/-- A call that has something of the header to receive. -/
structure HeaderPhase (conn : Connection) (header : Block) : Prop where
  range : InRange conn
  there : conn.header = some header
  short : conn.bytesRead < (msgHeaderSize : Int)

namespace HeaderPhase

variable {conn : Connection} {header : Block}

theorem body_eq_none (phase : HeaderPhase conn header) : conn.body = none := by
  cases block : conn.body with
  | none => rfl
  | some body =>
    -- A body means that the header has been read.
    have read := (phase.range.announced body block).2.1
    have short := phase.short
    omega

/-- While nothing is pending the header is not completed. -/
theorem announcedBy_eq_none (phase : HeaderPhase conn header) {wire : Wire} (empty : wire.pending = []) :
    announcedBy conn wire = none := by
  have short := phase.short
  simp only [announcedBy, missingHeader, empty, List.length_nil]
  rw [if_neg (by omega)]

/-- What `recv` adds to the header. -/
theorem announcedBy_eq (phase : HeaderPhase conn header) {wire wire' : Wire} {bytes stored : Block}
    (got : recv (conn.bytesExpected - conn.bytesRead) wire = .data bytes wire')
    (wrote : store header conn.bytesRead bytes = some stored) :
    announcedBy conn wire =
      completeLength { conn with header := some stored, bytesRead := conn.bytesRead + bytes.length } := by
  have five : (msgHeaderSize : Int) = 5 := rfl
  have short := phase.short
  have nonneg := phase.range.nonneg
  have size := phase.range.header header phase.there
  have expected := phase.range.waiting phase.body_eq_none
  obtain ⟨_, asked, front, _, whole⟩ := recv_eq_data (by omega) (by omega) got
  have missing : ((msgHeaderSize - conn.bytesRead).toNat : Int) = conn.bytesExpected - conn.bytesRead := by
    omega
  have cut : (∀ cut ∈ wire.cuts.head?, (msgHeaderSize - conn.bytesRead).toNat ≤ max 1 cut) ↔
      ∀ cut ∈ wire.cuts.head?, conn.bytesExpected - conn.bytesRead ≤ (max 1 cut : Nat) := by
    refine forall₂_congr fun cut _ => ?_
    omega
  simp only [announcedBy, missingHeader, completeLength, phase.there, Option.getD_some, cut]
  by_cases all : (bytes.length : Int) = conn.bytesExpected - conn.bytesRead
  · -- The header is complete: its old bytes, then those received.
    obtain ⟨pending, uncut⟩ := whole.mp all
    rw [if_pos ⟨by simp, by omega, uncut⟩, if_neg (by omega)]
    rw [store_of_fits _ _ _ nonneg (by omega)] at wrote
    cases wrote
    have rest : header.drop (conn.bytesRead.toNat + bytes.length) = [] :=
      List.drop_eq_nil_of_le (by rw [size]; omega)
    have count : (msgHeaderSize - conn.bytesRead).toNat = bytes.length := by omega
    rw [rest, List.append_nil, Option.bind_some, count, ← front]
  · -- It is not, as less is pending or the read is cut.
    have partly : ¬(conn.bytesExpected - conn.bytesRead ≤ wire.pending.length ∧
        ∀ cut ∈ wire.cuts.head?, conn.bytesExpected - conn.bytesRead ≤ (max 1 cut : Nat)) :=
      fun whole' => all (whole.mpr whole')
    rw [if_neg (fun served => partly ⟨by omega, served.2.2⟩), if_pos (by omega)]

/-- What `recv` leaves is in range. -/
theorem received (phase : HeaderPhase conn header) {wire wire' : Wire} {bytes stored : Block}
    (got : recv (conn.bytesExpected - conn.bytesRead) wire = .data bytes wire')
    (wrote : store header conn.bytesRead bytes = some stored) :
    InRange { conn with header := some stored, bytesRead := conn.bytesRead + bytes.length } := by
  have five : (msgHeaderSize : Int) = 5 := rfl
  have short := phase.short
  have nonneg := phase.range.nonneg
  have le := phase.range.le
  have expected := phase.range.waiting phase.body_eq_none
  obtain ⟨_, asked, _⟩ := recv_eq_data (by omega) (by omega) got
  have size := length_store _ _ _ _ wrote
  refine ⟨by dsimp only; omega, by dsimp only; omega, ?_, nofun, fun _ => expected, ?_⟩
  · intro header' there
    cases there
    rw [size, phase.range.header header phase.there]
  · intro body block
    dsimp only at block
    rw [phase.body_eq_none] at block
    cases block

theorem spec (phase : HeaderPhase conn header) (wire : Wire) :
    (loggedHeader conn header wire).FaultsIff (Overflows conn wire) ∧
    ((loggedHeader conn header wire).1.length ≤ 1 ↔ ¬GoesOn conn wire) ∧
    (∀ conn', (loggedHeader conn header wire).1.length ≤ 1 →
      (loggedHeader conn header wire).2 = .blocked conn' → wire.pending = [] ∧ wire.ending = .quiet) := by
  have five : (msgHeaderSize : Int) = 5 := rfl
  have short := phase.short
  have nonneg := phase.range.nonneg
  have size := phase.range.header header phase.there
  have body := phase.body_eq_none
  have expected := phase.range.waiting body
  have inside : (RecvCall.header header.length conn.bytesRead
      (conn.bytesExpected - conn.bytesRead)).Inside :=
    ⟨size, nonneg, by omega, by omega⟩
  simp only [Overflows, GoesOn, body, short, true_and]
  cases got : recv (conn.bytesExpected - conn.bytesRead) wire with
  | blocks =>
    obtain ⟨empty, quiet⟩ := recv_eq_blocks got
    simp only [loggedHeader, got, phase.announcedBy_eq_none empty]
    refine ⟨.inl ⟨⟨?_, phase.range⟩, by simp⟩, by simp, fun _ _ _ => ⟨empty, quiet⟩⟩
    exact fun call member => List.mem_singleton.mp member ▸ inside
  | failed =>
    have empty := recv_eq_failed (by omega) got
    simp only [loggedHeader, got, phase.announcedBy_eq_none empty]
    refine ⟨.inl ⟨⟨?_, trivial⟩, by simp⟩, by simp, nofun⟩
    exact fun call member => List.mem_singleton.mp member ▸ inside
  | data bytes wire' =>
    obtain ⟨_, asked, _, mallocOk, _⟩ := recv_eq_data (by omega) (by omega) got
    have wrote := store_of_fits header bytes conn.bytesRead nonneg (by omega)
    have announced := phase.announcedBy_eq got wrote
    obtain ⟨ranged, once, goesOn⟩ := loggedRest_spec (phase.received got wrote) wire'
    rw [← announced, mallocOk] at ranged goesOn
    have ranged := ranged.congr (and_iff_right body)
    have blocked (conn') := loggedRest_blocked { conn with
      header := some (header.take conn.bytesRead.toNat ++ bytes ++
        header.drop (conn.bytesRead.toNat + bytes.length))
      bytesRead := conn.bytesRead + bytes.length } conn' 0 wire'
    simp only [loggedHeader, got, wrote, loggedRest_counted _ bytes.length]
    generalize loggedRest _ 0 wire' = rest at ranged once goesOn blocked
    obtain ⟨calls, ending⟩ := rest
    dsimp only at once goesOn blocked ⊢
    refine ⟨?_, ?_, ?_⟩
    · refine ranged.imp (fun ⟨range, fine⟩ => ⟨⟨?_, range.2⟩, fine⟩) fun ⟨fault, past⟩ => ⟨fault, past⟩
      simpa only [List.mem_cons, forall_eq_or_imp, inside, true_and] using range.1
    · rw [← goesOn body]
      cases calls <;> simp
    · intro conn' few waits
      -- With a second call the first one has returned, without it nothing waits.
      have some := (blocked conn' waits).1
      cases calls with
      | nil => exact absurd rfl some
      | cons call calls => simp at few

end HeaderPhase

/-- `POLLIN`: the next `recv` does not wait. -/
def Readable (wire : Wire) : Prop := wire.pending ≠ [] ∨ wire.ending ≠ .quiet

theorem not_readable {wire : Wire} (idle : wire.pending = [] ∧ wire.ending = .quiet) : ¬Readable wire := by
  rintro (some | ended)
  · exact some idle.1
  · exact ended idle.2

/-- A header with all its bytes announces the same, whatever `recv` has. -/
theorem announcedBy_of_complete {conn : Connection} (range : InRange conn)
    (complete : ¬conn.bytesRead < (msgHeaderSize : Int)) (wire : Wire) :
    announcedBy conn wire = completeLength conn := by
  have five : (msgHeaderSize : Int) = 5 := rfl
  have nothing : missingHeader conn = 0 := by
    unfold missingHeader
    omega
  cases there : conn.header with
  | none =>
    have fresh := range.fresh there
    omega
  | some header =>
    have size := range.header header there
    unfold announcedBy completeLength
    rw [if_pos ⟨by simp [there], by omega, fun _ _ => by omega⟩, if_neg complete, nothing, there,
      Option.getD_some, List.take_zero, List.append_nil, List.take_of_length_le (by rw [size]; omega),
      Option.bind_some]

/-- The header block that `process_connection` allocates announces nothing of its own. -/
theorem announcedBy_malloc {conn : Connection} (range : InRange conn) (absent : conn.header = none)
    {wire : Wire} (served : wire.mallocOk msgHeaderSize = true) (header : Block) :
    announcedBy { conn with header := some header } wire = announcedBy conn wire := by
  have zero := range.fresh absent
  simp [announcedBy, missingHeader, absent, served, zero]

/-- Where the calls of one `process_connection` go, how many there are, and which of them
waits. -/
theorem loggedReceive_spec {conn : Connection} (range : InRange conn) (wire : Wire) :
    (loggedReceive conn wire).FaultsIff (Overflows conn wire) ∧
    ((recvCalls conn wire).length ≤ 1 ↔ ¬GoesOn conn wire) ∧
    (∀ conn', (recvCalls conn wire).length ≤ 1 → Readable wire → receive conn wire ≠ .blocked conn') := by
  have waits {logged : Logged} (spec : ∀ conn', logged.1.length ≤ 1 → logged.2 = .blocked conn' →
      wire.pending = [] ∧ wire.ending = .quiet) (conn' : Connection) (few : logged.1.length ≤ 1)
      (readable : Readable wire) : logged.2 ≠ .blocked conn' :=
    fun blocked => not_readable (spec conn' few blocked) readable
  rw [← loggedReceive_snd]
  simp only [recvCalls, loggedReceive]
  by_cases short : conn.bytesRead < (msgHeaderSize : Int)
  · simp only [if_pos short]
    cases there : conn.header with
    | some header =>
      obtain ⟨ranged, once, spec⟩ := HeaderPhase.spec ⟨range, there, short⟩ wire
      exact ⟨ranged, once, waits spec⟩
    | none =>
      cases served : wire.mallocOk msgHeaderSize with
      | false =>
        -- The connection is closed before anything is received.
        simp only [malloc, served]
        have nothing : announcedBy conn wire = none := by simp [announcedBy, there, served]
        refine ⟨.inl ⟨⟨by simp, trivial⟩, by simp [Overflows, nothing]⟩, ?_, nofun⟩
        simp [GoesOn, nothing]
      | true =>
        simp only [malloc, served, ite_true]
        have allocated : InRange { conn with header := some (List.replicate msgHeaderSize 0) } := by
          refine ⟨range.nonneg, range.le, ?_, nofun, range.waiting, ?_⟩
          · intro header same
            cases same
            exact List.length_replicate
          · intro body block
            have read := (range.announced body block).2.1
            omega
        obtain ⟨ranged, once, spec⟩ := HeaderPhase.spec ⟨allocated, rfl, short⟩ wire
        have same := announcedBy_malloc range there served (List.replicate msgHeaderSize 0)
        rw [Overflows, same] at ranged
        rw [GoesOn, same] at once
        exact ⟨ranged, once, waits spec⟩
  · simp only [if_neg short]
    obtain ⟨ranged, once, _⟩ := loggedRest_spec range wire
    rw [← announcedBy_of_complete range short wire] at ranged
    refine ⟨ranged, iff_of_true once fun goesOn => short goesOn.1, waits ?_⟩
    exact fun _ _ blocked => (loggedRest_blocked _ _ _ _ blocked).2

/-! ### The server's call -/

def Processed.InRange : Processed → Prop
  | .blocked conn | .kept conn _ | .dispatched conn _ => AcosChat.InRange conn
  | .closed _ => True
  | .fault => False

/-- A call receives into its blocks only, and leaves the counters in range or closes the
connection. -/
def ReceivesInside (conn : Connection) (wire : Wire) : Prop :=
  (∀ call ∈ recvCalls conn wire, call.Inside) ∧ (processConnection conn wire).InRange

theorem processConnection_inRange_iff (conn : Connection) (wire : Wire) :
    (processConnection conn wire).InRange ↔ (receive conn wire).InRange := by
  unfold processConnection
  cases receive conn wire with
  | blocked conn => rfl
  | unfinished conn wire => rfl
  | complete conn wire =>
    -- in_worker is set with the frame complete.
    exact ⟨fun range => range.setInWorker conn.inWorker, fun range => range.setInWorker true⟩
  | lost conn wire why => rfl
  | fault => rfl

theorem receivesInside_iff {conn : Connection} (range : InRange conn) (wire : Wire) :
    ReceivesInside conn wire ↔ ¬Overflows conn wire := by
  rw [← (loggedReceive_spec range wire).1.inRange_iff, ReceivesInside, processConnection_inRange_iff,
    ← loggedReceive_snd]
  rfl

/-- Whatever the header announces: a call that returns leaves the counters in range. -/
theorem processConnection_inRange {conn : Connection} (range : InRange conn) (wire : Wire)
    (returned : processConnection conn wire ≠ .fault) : (processConnection conn wire).InRange := by
  rw [processConnection_inRange_iff, ← loggedReceive_snd]
  rcases (loggedReceive_spec range wire).1 with ⟨ranged, _⟩ | ⟨fault, _⟩
  · exact ranged.2
  · rw [loggedReceive_snd] at fault
    refine absurd ?_ returned
    rw [processConnection, fault]

end AcosChat

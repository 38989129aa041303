import AcosChat.Connection.Model
import AcosChat.Message.Safety

/-!
# Reassembly is independent of chunking

A connection in the middle of a frame holds the bytes of that frame received so far,
in its header buffer up to the fifth and in its body buffer behind them. One call of
`process_connection` moves this point forward by at least one byte and never past the
end of the frame, whatever pieces `recv` returns.
-/
namespace AcosChat

open Bytes

structure Frame where
  msgType : UInt8
  body : Block
deriving DecidableEq, Repr

namespace Frame

def header (f : Frame) : Block := wireHeader f.msgType f.body.length

def bytes (f : Frame) : Block := f.header ++ f.body

/-- A body length that `bytes_expected` can count. -/
def Countable (f : Frame) : Prop := f.body.length ≤ 2147483647 - msgHeaderSize

instance (f : Frame) : Decidable f.Countable :=
  inferInstanceAs (Decidable (f.body.length ≤ 2147483647 - msgHeaderSize))

theorem length_header (f : Frame) : f.header.length = 5 := length_wireHeader _ _

theorem length_bytes (f : Frame) : f.bytes.length = 5 + f.body.length := by
  rw [bytes, List.length_append, length_header]

theorem announcedLength_header (f : Frame) (countable : f.Countable) :
    announcedLength f.header = some (f.body.length : Int) := by
  have small : f.body.length < 2147483648 := by
    unfold Countable at countable
    omega
  have announced := announcedLength_wireHeader f.msgType f.body.length [] small
  rwa [List.append_nil] at announced

end Frame

/-- The byte stream of a sequence of frames. -/
def streamOf (frames : List Frame) : Block := frames.flatMap Frame.bytes

/-- The frames that lie completely inside the first `n` bytes of their stream. -/
def completeFrames : List Frame → Nat → List Frame
  | [], _ => []
  | f :: frames, n =>
    if f.bytes.length ≤ n then f :: completeFrames frames (n - f.bytes.length) else []

/-- The connection has received the first `k` bytes of a frame. -/
inductive Holds (f : Frame) : Nat → Connection → Prop
  | fresh (sockid : Int32) (inWorker : Bool) :
      Holds f 0 ⟨sockid, none, none, 0, 5, inWorker⟩
  | header (sockid : Int32) (inWorker : Bool) (k : Nat) (junk : Block) (unread : k < 5)
      (room : junk.length = 5 - k) :
      Holds f k ⟨sockid, some (f.header.take k ++ junk), none, k, 5, inWorker⟩
  | body (sockid : Int32) (inWorker : Bool) (k : Nat) (junk : Block) (unread : k < f.body.length)
      (room : junk.length = f.body.length - k) :
      Holds f (5 + k) ⟨sockid, some f.header, some (f.body.take k ++ junk), 5 + k,
        5 + f.body.length, inWorker⟩

/-- No failure: `recv` waits for more when nothing is pending, `malloc` succeeds. -/
def Healthy (wire : Wire) : Prop := wire.ending = .quiet ∧ ∀ size, wire.mallocOk size = true

/-! ### One `recv` -/

theorem prefix_take_drop {p s t : Block} (before : p <+: s ++ t) (c : Nat) (inP : c ≤ p.length)
    (inS : c ≤ s.length) : p.take c = s.take c ∧ p.drop c <+: s.drop c ++ t := by
  obtain ⟨rest, split⟩ := before
  have front := congrArg (List.take c) split
  have back := congrArg (List.drop c) split
  rw [List.take_append_of_le_length inP, List.take_append_of_le_length inS] at front
  rw [List.drop_append_of_le_length inP, List.drop_append_of_le_length inS] at back
  exact ⟨front, rest, back⟩

theorem recv_blocks {wire : Wire} (healthy : Healthy wire) (empty : wire.pending = [])
    (len : Nat) (positive : 0 < len) : recv len wire = .blocks := by
  have nonzero : (len : Int) ≠ 0 := by omega
  simp only [recv, if_neg nonzero, empty, ite_true, healthy.1]

theorem recv_data {wire : Wire} (healthy : Healthy wire) (some : wire.pending ≠ [])
    (len : Nat) (positive : 0 < len) (small : len < 4294967296) :
    ∃ count wire', 0 < count ∧ count ≤ len ∧ count ≤ wire.pending.length ∧
      recv len wire = .data (wire.pending.take count) wire' ∧
      wire'.pending = wire.pending.drop count ∧ Healthy wire' := by
  have nonzero : (len : Int) ≠ 0 := by omega
  have size : sizeOfInt len = len := by
    unfold sizeOfInt
    omega
  have there := List.length_pos_of_ne_nil some
  simp only [recv, if_neg nonzero, if_neg some, size]
  cases wire.cuts with
  | nil =>
    exact ⟨min len wire.pending.length, _, by omega, by omega, by omega, rfl, rfl, healthy⟩
  | cons cut cuts =>
    exact ⟨min (min len wire.pending.length) (max 1 cut), _, by omega, by omega, by omega, rfl, rfl,
      healthy⟩

/-! ### One call -/

/-- What a call makes of a connection that holds `k` bytes of a frame: it receives `j`
more, and returns, completes the frame, or waits for the next byte of it. -/
inductive Advances (f : Frame) (k : Nat) (wire : Wire) : Received → Prop
  | unfinished (j : Nat) (conn : Connection) (wire' : Wire) (moved : 0 < j)
      (there : j ≤ wire.pending.length) (missing : k + j < f.bytes.length)
      (holds : Holds f (k + j) conn) (rest : wire'.pending = wire.pending.drop j)
      (healthy : Healthy wire') : Advances f k wire (.unfinished conn wire')
  | complete (j : Nat) (conn : Connection) (wire' : Wire) (moved : 0 < j)
      (there : j ≤ wire.pending.length) (all : k + j = f.bytes.length)
      (header : conn.header = some f.header) (body : conn.body.getD [] = f.body)
      (rest : wire'.pending = wire.pending.drop j) (healthy : Healthy wire') :
      Advances f k wire (.complete conn wire')
  | blocked (conn : Connection) (missing : k + wire.pending.length < f.bytes.length) :
      Advances f k wire (.blocked conn)

/-- The part of a call that receives into the body, `j` bytes after the call started. -/
theorem receiveBody_advances (f : Frame) (countable : f.Countable) (k j i : Nat) (wire wire' : Wire)
    (sockid : Int32) (inWorker : Bool) (junk after : Block) (position : k + j = 5 + i)
    (unread : i < f.body.length) (room : junk.length = f.body.length - i)
    (there : j ≤ wire.pending.length) (rest : wire'.pending = wire.pending.drop j)
    (healthy : Healthy wire') (stream : wire'.pending <+: f.body.drop i ++ after) :
    Advances f k wire (receiveBody ⟨sockid, some f.header, some (f.body.take i ++ junk), 5 + i,
      5 + f.body.length, inWorker⟩ (f.body.take i ++ junk) wire') := by
  have total := f.length_bytes
  have request : (5 : Int) + f.body.length - (5 + i) = (f.body.length - i : Nat) := by omega
  have left : wire'.pending.length = wire.pending.length - j := by rw [rest, List.length_drop]
  unfold Frame.Countable at countable
  by_cases empty : wire'.pending = []
  · have waits := recv_blocks healthy empty (f.body.length - i) (by omega)
    simp only [receiveBody, request, waits]
    rw [empty, List.length_nil] at left
    exact .blocked _ (by omega)
  · obtain ⟨count, wire'', positive, asked, pending, got, rest', healthy'⟩ :=
      recv_data healthy empty (f.body.length - i) (by omega) (by omega)
    obtain ⟨bytes, _⟩ := prefix_take_drop stream count pending
      (by rw [List.length_drop]; omega)
    have offset : (5 : Int) + i - msgHeaderSize = (f.body.take i).length := by
      simp only [List.length_take, msgHeaderSize]
      omega
    -- What is received takes the place of as much of the block behind the front.
    obtain ⟨old, junk', rfl, oldLength⟩ : ∃ old junk', junk = old ++ junk' ∧ old.length = count :=
      ⟨junk.take count, junk.drop count, (List.take_append_drop _ _).symm, by
        rw [List.length_take]; omega⟩
    have size : (wire'.pending.take count).length = count := by
      rw [List.length_take]
      omega
    have wrote := store_append (f.body.take i) old (wire'.pending.take count) junk' _ offset
      (by rw [size, oldLength])
    have filled : f.body.take i ++ wire'.pending.take count = f.body.take (i + count) := by
      rw [bytes, List.take_add]
    rw [filled, List.append_assoc] at wrote
    simp only [receiveBody, request, got, wrote, size, checkComplete]
    rw [List.length_append] at room
    have dropped : wire''.pending = wire.pending.drop (j + count) := by
      rw [rest', rest, List.drop_drop]
    -- `check_complete` compares what has been read with what is expected.
    by_cases last : i + count = f.body.length
    · rw [if_pos (by omega)]
      refine .complete (j + count) _ wire'' (by omega) (by omega) (by omega) rfl ?_ dropped healthy'
      have full : junk' = [] := List.length_eq_zero_iff.mp (by omega)
      simp only [Option.getD_some, full, List.append_nil, last, List.take_length]
    · rw [if_neg (by omega)]
      refine .unfinished (j + count) _ wire'' (by omega) (by omega) (by omega) ?_ dropped healthy'
      have holds := Holds.body (f := f) sockid inWorker (i + count) junk' (by omega) (by omega)
      have read : (5 : Int) + i + count = 5 + (i + count : Nat) := by omega
      rw [read, show k + (j + count) = 5 + (i + count) by omega]
      exact holds

/-- The part of a call behind a header that has just been completed. -/
theorem receiveRest_advances (f : Frame) (countable : f.Countable) (k j : Nat) (wire wire' : Wire)
    (sockid : Int32) (inWorker : Bool) (after : Block) (position : k + j = 5)
    (there : j ≤ wire.pending.length) (rest : wire'.pending = wire.pending.drop j)
    (healthy : Healthy wire') (stream : wire'.pending <+: f.body ++ after) (moved : 0 < j) :
    Advances f k wire
      (receiveRest ⟨sockid, some f.header, none, k, 5, inWorker⟩ j wire') := by
  have total := f.length_bytes
  have read : (k : Int) + j = 5 := by omega
  have announced := f.announcedLength_header countable
  have signed : ¬((f.body.length : Int) < 0) := by omega
  have five : ¬((5 : Int) < (msgHeaderSize : Int)) := by decide
  simp only [receiveRest, read, if_neg five, Option.bind_some, announced, if_neg signed]
  -- A frame without a body is complete with its header.
  by_cases empty : f.body = []
  · rw [empty, List.length_nil] at total ⊢
    simp only [Int.natCast_zero, ite_true, checkComplete]
    exact .complete j _ wire' moved there (by omega) rfl (by simp [empty]) rest healthy
  · have positive := List.length_pos_of_ne_nil empty
    have nonzero : ¬((f.body.length : Int) = 0) := by omega
    unfold Frame.Countable msgHeaderSize at countable
    have inRange : ¬(2147483647 < (5 : Int) + f.body.length) := by omega
    simp only [if_neg nonzero, malloc, healthy.2, ite_true, if_neg inRange, Int.toNat_natCast]
    have body := receiveBody_advances f countable k j 0 wire wire' sockid inWorker
      (List.replicate f.body.length 0) after (by omega) positive (by simp) there rest healthy
      (by simpa using stream)
    simpa using body

/-- The part of a call that receives into the header. -/
theorem receiveHeader_advances (f : Frame) (countable : f.Countable) (k : Nat) (wire : Wire)
    (sockid : Int32) (inWorker : Bool) (junk after : Block) (unread : k < 5)
    (room : junk.length = 5 - k) (healthy : Healthy wire) (pending : wire.pending ≠ [])
    (stream : wire.pending <+: f.header.drop k ++ (f.body ++ after)) :
    Advances f k wire (receiveHeader ⟨sockid, some (f.header.take k ++ junk), none, k, 5, inWorker⟩
      (f.header.take k ++ junk) wire) := by
  have five := f.length_header
  have total := f.length_bytes
  have request : (5 : Int) - k = (5 - k : Nat) := by omega
  obtain ⟨count, wire', positive, asked, there, got, rest, healthy'⟩ :=
    recv_data healthy pending (5 - k) (by omega) (by omega)
  obtain ⟨bytes, stream'⟩ := prefix_take_drop stream count there (by rw [List.length_drop]; omega)
  have offset : (k : Int) = (f.header.take k).length := by
    rw [List.length_take]
    omega
  obtain ⟨old, junk', rfl, oldLength⟩ : ∃ old junk', junk = old ++ junk' ∧ old.length = count :=
    ⟨junk.take count, junk.drop count, (List.take_append_drop _ _).symm, by
      rw [List.length_take]; omega⟩
  have size : (wire.pending.take count).length = count := by
    rw [List.length_take]
    omega
  have wrote := store_append (f.header.take k) old (wire.pending.take count) junk' k offset
    (by rw [size, oldLength])
  have filled : f.header.take k ++ wire.pending.take count = f.header.take (k + count) := by
    rw [bytes, List.take_add]
  rw [filled, List.append_assoc] at wrote
  simp only [receiveHeader, request, got, wrote, size]
  rw [List.length_append] at room
  -- With its fifth byte the header is complete, and the call goes on with the body.
  by_cases last : k + count = 5
  · have full : junk' = [] := List.length_eq_zero_iff.mp (by omega)
    have whole : f.header.take (k + count) ++ junk' = f.header := by
      rw [full, List.append_nil, last, ← five, List.take_length]
    have consumed : f.header.drop (k + count) = [] := List.drop_eq_nil_of_le (by omega)
    rw [List.drop_drop, consumed, List.nil_append, ← rest] at stream'
    rw [whole]
    exact receiveRest_advances f countable k count wire wire' sockid inWorker after last there rest
      healthy' stream' positive
  · have short : (k : Int) + count < (msgHeaderSize : Int) := by
      simp only [msgHeaderSize]
      omega
    simp only [receiveRest, if_pos short]
    have holds := Holds.header (f := f) sockid inWorker (k + count) junk' (by omega) (by omega)
    exact .unfinished count _ wire' positive there (by omega) holds rest healthy'

/-- One call of `process_connection` on a connection with pending bytes. -/
theorem receive_advances (f : Frame) (countable : f.Countable) (k : Nat) (conn : Connection)
    (wire : Wire) (after : Block) (holds : Holds f k conn) (healthy : Healthy wire)
    (pending : wire.pending ≠ []) (stream : wire.pending <+: f.bytes.drop k ++ after) :
    Advances f k wire (receive conn wire) := by
  have five := f.length_header
  cases holds with
  | fresh sockid inWorker =>
    have blank : f.header.take 0 ++ List.replicate 5 0 = List.replicate 5 (0 : UInt8) := rfl
    have header := receiveHeader_advances f countable 0 wire sockid inWorker (List.replicate 5 0)
      after (by omega) (by simp) healthy pending (by simpa [Frame.bytes] using stream)
    simpa [receive, malloc, healthy.2, msgHeaderSize, blank] using header
  | header sockid inWorker k junk unread room =>
    have short : (k : Int) < (msgHeaderSize : Int) := by
      simp only [msgHeaderSize]
      omega
    rw [Frame.bytes, List.drop_append_of_le_length (by omega), List.append_assoc] at stream
    have header := receiveHeader_advances f countable k wire sockid inWorker junk after unread room
      healthy pending stream
    simpa only [receive, if_pos short] using header
  | body sockid inWorker i junk unread room =>
    -- the header is complete, and this call reads into the body alone
    have announced := f.announcedLength_header countable
    have read : (5 : Int) + i + (0 : Nat) = 5 + i := by omega
    have long : ¬((5 : Int) + i < (msgHeaderSize : Int)) := by
      simp only [msgHeaderSize]
      omega
    have signed : ¬((f.body.length : Int) < 0) := by omega
    have nonzero : ¬((f.body.length : Int) = 0) := by omega
    simp only [receive, if_neg long, receiveRest, read, Option.bind_some, announced, if_neg signed,
      if_neg nonzero]
    rw [Frame.bytes, ← five, List.drop_append, List.drop_eq_nil_of_le (by omega), List.nil_append,
      Nat.add_sub_cancel_left] at stream
    exact receiveBody_advances f countable (5 + i) 0 i wire wire sockid inWorker junk after (by omega)
      unread room (by omega) rfl healthy stream

end AcosChat

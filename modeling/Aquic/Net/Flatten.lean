import Aquic.Lib.Segments
import Aquic.Net.Types
import Aquic.Util.Timer.Wheel

/-!
# Received messages

`net/types.rs`: a message that is to be received (`RecvMsg`), and the iterator that goes through a list
of messages packet by packet (`MultiMsgFlattenIter`). The kernel may put several packets of one size
into a message, and the iterator cuts them apart.

The functions take the `Build`: debug assertions are evaluated in debug builds only. `none` is a panic.
-/

namespace Aquic.Net

open Aquic.Segments Aquic.Timer

/-- `a % b == 0`, without a division by zero. -/
def RemIsZero (a b : Nat) : Prop := b ≠ 0 ∧ a % b = 0

instance (a b : Nat) : Decidable (RemIsZero a b) := inferInstanceAs (Decidable (_ ∧ _))

/-- The trait `BufMut`: a slice as long as the capacity. -/
class BufMut (B : Type) where
  asSlice : B → List UInt8

/-- A packet, with the time at which the kernel has received it. -/
structure TimedPacket extends Packet where
  timestamp : Option Instant
  deriving DecidableEq

structure RecvMsg (B : Type) where
  buf : B
  read : Nat
  fromAddr : SocketAddr
  toAddr : IpAddr
  ecn : Ecn
  /-- Number of segments; a message that is not segmented has none or one. -/
  segmentCount : Nat
  timestamp : Option Instant

namespace RecvMsg

variable {B : Type} [BufMut B]

/-- `RecvMsg::new`. -/
def new (buf : B) : Option (RecvMsg B) :=
  if (BufMut.asSlice buf).length = 0 then none
  else
    some
      { buf, read := 0, fromAddr := ⟨.v4 #v[0, 0, 0, 0], 0⟩, toAddr := .v4 #v[0, 0, 0, 0]
        ecn := .nEct, segmentCount := 0, timestamp := none }

/-- `recv`: the bytes are in the buffer already. -/
def recv (build : Build) (msg : RecvMsg B) (read : Nat) (fromAddr : SocketAddr) (toAddr : IpAddr) (ecn : Ecn)
    (segmentCount : Nat) (timestamp : Option Instant) : Option (RecvMsg B) :=
  if fromAddr.isUnspecified then none
  else if toAddr.isUnspecified then none
  else if 1 < segmentCount ∧ read % segmentCount ≠ 0 then none
  else if build = .debug ∧ fromAddr.ip.sameFamily toAddr = false then none
  else some { msg with read, fromAddr, toAddr, ecn, segmentCount, timestamp }

/-- `has_packet`. -/
def HasPacket (msg : RecvMsg B) : Prop := msg.read ≠ 0

instance (msg : RecvMsg B) : Decidable msg.HasPacket := inferInstanceAs (Decidable (_ ≠ _))

/-- `segment_size`, without its assertion that there is a packet. -/
def segmentSize (msg : RecvMsg B) : Nat :=
  if msg.segmentCount = 0 then msg.read else msg.read / msg.segmentCount

end RecvMsg

theorem RecvMsg.segmentSize_eq {B : Type} (msg : RecvMsg B) :
    msg.segmentSize = msg.read / max msg.segmentCount 1 := by
  unfold segmentSize
  split
  · next hcount =>
    have hmax : max msg.segmentCount 1 = 1 := by omega
    rw [hmax, Nat.div_one]
  · next hcount =>
    have hmax : max msg.segmentCount 1 = msg.segmentCount := by omega
    rw [hmax]

structure MultiMsgFlattenIter (B : Type) where
  msgs : List (RecvMsg B)
  msgIndex : Nat
  msgOffset : Nat

namespace MultiMsgFlattenIter

variable {B : Type} [BufMut B]

/-- `MultiMsgFlattenIter::new`. -/
def new (msgs : List (RecvMsg B)) : MultiMsgFlattenIter B :=
  { msgs, msgIndex := 0, msgOffset := 0 }

/-- The loop of `peek`; the number of messages that are left is enough fuel. -/
def peekLoop (build : Build) : Nat → MultiMsgFlattenIter B →
    Option (MultiMsgFlattenIter B × Option TimedPacket)
  | 0, it => some (it, none)
  | fuel + 1, it =>
    match it.msgs[it.msgIndex]? with
    | none => some (it, none)
    | some msg =>
      if msg.read ≤ it.msgOffset then
        peekLoop build fuel { it with msgIndex := it.msgIndex + 1, msgOffset := 0 }
      else do
        debugAssert build msg.HasPacket
        debugAssert build (RemIsZero msg.read msg.segmentSize)
        debugAssert build (RemIsZero msg.read it.msgOffset)
        let slice := BufMut.asSlice msg.buf
        if slice.length < it.msgOffset + msg.segmentSize then none
        else
          some (it, some
            { fromAddr := msg.fromAddr
              toAddr := msg.toAddr
              ecn := msg.ecn
              timestamp := msg.timestamp
              payload := (slice.drop it.msgOffset).take msg.segmentSize })

/-- `peek`. -/
def peek (build : Build) (it : MultiMsgFlattenIter B) :
    Option (MultiMsgFlattenIter B × Option TimedPacket) :=
  peekLoop build (it.msgs.length - it.msgIndex) it

/-- `next`. -/
def next (build : Build) (it : MultiMsgFlattenIter B) : Option (MultiMsgFlattenIter B) :=
  match it.msgs[it.msgIndex]? with
  | none => some it
  | some msg => do
    debugAssert build msg.HasPacket
    let msgOffset := it.msgOffset + msg.segmentSize
    let it : MultiMsgFlattenIter B :=
      if msg.read ≤ msgOffset then { it with msgIndex := it.msgIndex + 1, msgOffset := 0 }
      else { it with msgOffset }
    debugAssert build (RemIsZero msg.read msg.segmentSize)
    debugAssert build (RemIsZero msg.read it.msgOffset)
    some it

end MultiMsgFlattenIter

/-! ## The packets of a message -/

namespace RecvMsg

variable {B : Type} [BufMut B] {msg : RecvMsg B}

/-- A message of the socket: a blank one, or one that the socket has filled. -/
inductive Received : RecvMsg B → Prop
  | blank {buf : B} {msg : RecvMsg B} (hnew : new buf = some msg) : Received msg
  | filled {build : Build} {buf : B} {blank msg : RecvMsg B} {read : Nat} {fromAddr : SocketAddr} {toAddr : IpAddr}
      {ecn : Ecn} {segmentCount : Nat} {timestamp : Option Instant} (hnew : new buf = some blank)
      (hread : read ≤ (BufMut.asSlice buf).length)
      (hrecv : blank.recv build read fromAddr toAddr ecn segmentCount timestamp = some msg) : Received msg

/-- The bytes are in the buffer, and they are whole segments. -/
structure Wf (msg : RecvMsg B) : Prop where
  read_le : msg.read ≤ (BufMut.asSlice msg.buf).length
  whole : max msg.segmentCount 1 ∣ msg.read

theorem Received.wf (h : msg.Received) : msg.Wf := by
  cases h with
  | blank hnew =>
    unfold new at hnew
    split at hnew
    · cases hnew
    · cases hnew
      exact ⟨Nat.zero_le _, Nat.dvd_zero _⟩
  | @filled _ buf blank _ read _ _ _ segmentCount _ hnew hread hrecv =>
    unfold new at hnew
    split at hnew
    · cases hnew
    · cases hnew
      unfold recv at hrecv
      split at hrecv
      · cases hrecv
      · split at hrecv
        · cases hrecv
        · split at hrecv
          · cases hrecv
          · next hwhole =>
            split at hrecv
            · cases hrecv
            cases hrecv
            refine ⟨hread, ?_⟩
            -- the bytes of one segment are not checked, and need not be
            rcases Nat.lt_or_ge 1 segmentCount with hsegmented | hsingle
            · have hmax : max segmentCount 1 = segmentCount := by omega
              show max segmentCount 1 ∣ read
              rw [hmax]
              exact Nat.dvd_of_mod_eq_zero (by_contra fun h => hwhole ⟨hsegmented, h⟩)
            · have hmax : max segmentCount 1 = 1 := by omega
              show max segmentCount 1 ∣ read
              rw [hmax]
              exact Nat.one_dvd read

theorem Wf.read_eq (h : msg.Wf) : msg.read = max msg.segmentCount 1 * msg.segmentSize := by
  rw [segmentSize_eq, Nat.mul_div_cancel' h.whole]

/-- A packet of a message. -/
def packet (msg : RecvMsg B) (payload : List UInt8) : TimedPacket where
  fromAddr := msg.fromAddr
  toAddr := msg.toAddr
  ecn := msg.ecn
  timestamp := msg.timestamp
  payload := payload

/-- The packets of a message: the equal segments of its bytes, and none if it has no bytes. -/
def packets (msg : RecvMsg B) : List TimedPacket :=
  if msg.read = 0 then []
  else (split msg.segmentCount ((BufMut.asSlice msg.buf).take msg.read)).map msg.packet

theorem Wf.packets_eq (h : msg.Wf) (hread : msg.read ≠ 0) :
    msg.packets = (slices msg.segmentSize (max msg.segmentCount 1)
      ((BufMut.asSlice msg.buf).take msg.read)).map msg.packet := by
  rw [packets, if_neg hread, split, List.length_take, Nat.min_eq_left h.read_le, ← segmentSize_eq]

/-- The packet at the `k`-th segment, and those behind it. -/
theorem Wf.packets_drop (h : msg.Wf) (hread : msg.read ≠ 0) {k : Nat}
    (hk : k < max msg.segmentCount 1) :
    msg.packets.drop k =
      msg.packet (((BufMut.asSlice msg.buf).drop (k * msg.segmentSize)).take msg.segmentSize) ::
        msg.packets.drop (k + 1) := by
  have hle : k * msg.segmentSize + msg.segmentSize ≤ msg.read := by
    rw [h.read_eq, ← Nat.succ_mul]
    exact Nat.mul_le_mul_right _ hk
  have hmin : min msg.segmentSize (msg.read - k * msg.segmentSize) = msg.segmentSize := by omega
  rw [h.packets_eq hread, ← List.map_drop, drop_slices_cons hk, List.map_cons, List.map_drop,
    List.drop_take, List.take_take, hmin]

theorem packets_eq_nil (hread : msg.read = 0) : msg.packets = [] := by
  rw [packets, if_pos hread]

/-- There are no packets behind the last segment. -/
theorem Wf.packets_drop_eq_nil (h : msg.Wf) {k : Nat} (hread : msg.read ≤ k * msg.segmentSize) :
    msg.packets.drop k = [] := by
  by_cases hzero : msg.read = 0
  · rw [packets_eq_nil hzero, List.drop_nil]
  · refine List.drop_eq_nil_of_le ?_
    rw [h.packets_eq hzero, List.length_map, length_slices]
    rw [h.read_eq] at hread hzero
    exact Nat.le_of_mul_le_mul_right hread (Nat.pos_of_ne_zero (Nat.ne_zero_of_mul_ne_zero_right hzero))

end RecvMsg

/-- The start of the messages behind `msg` is the start of the messages `after`. -/
theorem MultiMsgFlattenIter.behind_eq {B : Type} (before : List (RecvMsg B)) (msg : RecvMsg B)
    (after : List (RecvMsg B)) :
    (⟨before ++ msg :: after, before.length + 1, 0⟩ : MultiMsgFlattenIter B) =
      ⟨(before ++ [msg]) ++ after, (before ++ [msg]).length, 0⟩ := by
  rw [List.append_assoc, List.singleton_append, List.length_append, List.length_singleton]

namespace MultiMsgFlattenIter

variable {B : Type} [BufMut B]

/-! ## The position of an iterator -/

/-- The iterator is at the `k`-th segment of a message, or behind the last message. The list is what it
has not enumerated yet. -/
inductive At : MultiMsgFlattenIter B → List TimedPacket → Prop
  | stop (msgs : List (RecvMsg B)) : At ⟨msgs, msgs.length, 0⟩ []
  | within (before : List (RecvMsg B)) (msg : RecvMsg B) (after : List (RecvMsg B)) (k : Nat) :
      At ⟨before ++ msg :: after, before.length, k * msg.segmentSize⟩
        (msg.packets.drop k ++ after.flatMap RecvMsg.packets)

/-- A position at which `peek` does not move the iterator: there is a segment. -/
inductive Parked : MultiMsgFlattenIter B → List TimedPacket → Prop
  | stop (msgs : List (RecvMsg B)) : Parked ⟨msgs, msgs.length, 0⟩ []
  | within (before : List (RecvMsg B)) (msg : RecvMsg B) (after : List (RecvMsg B)) (k : Nat)
      (h : k * msg.segmentSize < msg.read) :
      Parked ⟨before ++ msg :: after, before.length, k * msg.segmentSize⟩
        (msg.packets.drop k ++ after.flatMap RecvMsg.packets)

theorem Parked.at {it : MultiMsgFlattenIter B} {rest : List TimedPacket} (h : Parked it rest) :
    At it rest := by
  cases h with
  | stop msgs => exact .stop msgs
  | within before msg after k h => exact .within before msg after k

/-- The start of the messages `after`. -/
theorem at_front (before after : List (RecvMsg B)) :
    At ⟨before ++ after, before.length, 0⟩ (after.flatMap RecvMsg.packets) := by
  cases after with
  | nil =>
    rw [List.append_nil]
    exact .stop before
  | cons msg after =>
    have h := At.within before msg after 0
    rw [Nat.zero_mul, List.drop_zero] at h
    exact h

/-- The start of the messages behind `msg`. -/
theorem at_behind (before : List (RecvMsg B)) (msg : RecvMsg B) (after : List (RecvMsg B)) :
    At ⟨before ++ msg :: after, before.length + 1, 0⟩ (after.flatMap RecvMsg.packets) := by
  rw [behind_eq]
  exact at_front (before ++ [msg]) after

theorem getElem?_zipper {α : Type} (before : List α) (x : α) (after : List α) :
    (before ++ x :: after)[before.length]? = some x := by
  rw [List.getElem?_append_right (Nat.le_refl _), Nat.sub_self, List.getElem?_cons_zero]

/-! ## Release builds -/

/-- The loop of `peek` moves on to a segment, by induction on the messages that are left. -/
theorem peekLoop_at {it : MultiMsgFlattenIter B} {rest : List TimedPacket} (h : At it rest)
    (hwf : ∀ msg ∈ it.msgs, msg.Wf) {fuel : Nat} (hfuel : it.msgs.length - it.msgIndex ≤ fuel) :
    ∃ it', peekLoop .release fuel it = some (it', rest.head?) ∧ Parked it' rest ∧
      it'.msgs = it.msgs := by
  induction fuel generalizing it rest with
  | zero =>
    cases h with
    | stop msgs => exact ⟨_, rfl, .stop msgs, rfl⟩
    | within before msg after k =>
      simp only [List.length_append, List.length_cons] at hfuel
      omega
  | succ fuel ih =>
    cases h with
    | stop msgs =>
      refine ⟨_, ?_, .stop msgs, rfl⟩
      rw [peekLoop]
      simp only [List.getElem?_eq_none (Nat.le_refl msgs.length)]
      rfl
    | within before msg after k =>
      have hmsg : msg.Wf := hwf msg (List.mem_append_right _ List.mem_cons_self)
      rw [peekLoop]
      simp only [getElem?_zipper]
      by_cases hend : msg.read ≤ k * msg.segmentSize
      · -- on to the next message
        rw [if_pos hend, hmsg.packets_drop_eq_nil hend, List.nil_append]
        refine ih (at_behind before msg after) hwf ?_
        simp only [List.length_append, List.length_cons] at hfuel ⊢
        omega
      · -- the segment is whole, and within the bytes that were read
        have hread : msg.read ≠ 0 := by omega
        have hk : k < max msg.segmentCount 1 := by
          rw [hmsg.read_eq] at hend
          exact Nat.lt_of_mul_lt_mul_right (Nat.lt_of_not_le hend)
        have hle : k * msg.segmentSize + msg.segmentSize ≤ msg.read := by
          rw [hmsg.read_eq, ← Nat.succ_mul]
          exact Nat.mul_le_mul_right _ hk
        have hslice : ¬ (BufMut.asSlice msg.buf).length < k * msg.segmentSize + msg.segmentSize :=
          Nat.not_lt_of_le (Nat.le_trans hle hmsg.read_le)
        refine ⟨_, ?_, .within before msg after k (Nat.lt_of_not_le hend), rfl⟩
        rw [if_neg hend, hmsg.packets_drop hread hk]
        simp only [debugAssert_release, if_neg hslice]
        rfl

/-- **`peek`** returns the next packet, and does not consume it. -/
theorem peek_at {it : MultiMsgFlattenIter B} {rest : List TimedPacket} (h : At it rest)
    (hwf : ∀ msg ∈ it.msgs, msg.Wf) :
    ∃ it', it.peek .release = some (it', rest.head?) ∧ Parked it' rest ∧ it'.msgs = it.msgs :=
  peekLoop_at h hwf (Nat.le_refl _)

/-- **`next`** consumes the packet that `peek` has returned. -/
theorem next_parked {it : MultiMsgFlattenIter B} {rest : List TimedPacket} (h : Parked it rest)
    (hwf : ∀ msg ∈ it.msgs, msg.Wf) :
    ∃ it', it.next .release = some it' ∧ At it' rest.tail ∧ it'.msgs = it.msgs := by
  cases h with
  | stop msgs =>
    refine ⟨_, ?_, .stop msgs, rfl⟩
    rw [next]
    simp only [List.getElem?_eq_none (Nat.le_refl msgs.length)]
  | within before msg after k h =>
    have hmsg : msg.Wf := hwf msg (List.mem_append_right _ List.mem_cons_self)
    have hread : msg.read ≠ 0 := by omega
    have hk : k < max msg.segmentCount 1 := by
      rw [hmsg.read_eq] at h
      exact Nat.lt_of_mul_lt_mul_right h
    rw [next, hmsg.packets_drop hread hk, List.cons_append, List.tail_cons]
    simp only [getElem?_zipper, debugAssert_release, ← Nat.succ_mul]
    by_cases hend : msg.read ≤ (k + 1) * msg.segmentSize
    · rw [if_pos hend, hmsg.packets_drop_eq_nil hend, List.nil_append]
      exact ⟨_, rfl, at_behind before msg after, rfl⟩
    · rw [if_neg hend]
      exact ⟨_, rfl, .within before msg after (k + 1), rfl⟩

/-! ## Runs -/

inductive Call where
  | peek
  | next
  deriving DecidableEq, Repr

/-- A sequence of calls, with what `peek` has returned. -/
def run (build : Build) : List Call → MultiMsgFlattenIter B →
    Option (MultiMsgFlattenIter B × List (Option TimedPacket))
  | [], it => some (it, [])
  | .peek :: calls, it => do
    let (it, packet) ← it.peek build
    let (it, packets) ← run build calls it
    some (it, packet :: packets)
  | .next :: calls, it => do
    let it ← it.next build
    run build calls it

/-- Visits of packets, one after the other: `peek`, as many more of it as the visit says, and `next`. -/
def alternating (visits : List Nat) : List Call :=
  visits.flatMap fun extra => List.replicate (extra + 1) .peek ++ [.next]

theorem alternating_cons (extra : Nat) (visits : List Nat) :
    alternating (extra :: visits) =
      .peek :: (List.replicate extra .peek ++ .next :: alternating visits) := by
  rw [alternating, List.flatMap_cons, List.replicate_succ, List.append_assoc]
  rfl

/-- What the visits have to see: each one the next packet, and nothing after the last one. -/
def seen : List Nat → List TimedPacket → List (Option TimedPacket)
  | [], _ => []
  | extra :: visits, packets =>
    List.replicate (extra + 1) packets.head? ++ seen visits packets.tail

/-- The loop `while let Some(packet) = in_packets.peek() { .. in_packets.next(); }` of a backend, which
breaks before the next packet after it has handled that many: the packets that it has handled. -/
def recvLoop (build : Build) : Nat → MultiMsgFlattenIter B →
    Option (MultiMsgFlattenIter B × List TimedPacket)
  | 0, it => do
    let (it, _) ← it.peek build
    some (it, [])
  | handled + 1, it => do
    match ← it.peek build with
    | (it, none) => some (it, [])
    | (it, some packet) =>
      let it ← it.next build
      let (it, packets) ← recvLoop build handled it
      some (it, packet :: packets)

/-- More calls of `peek` return the same packet. -/
theorem run_peeks {it : MultiMsgFlattenIter B} {rest : List TimedPacket} (h : Parked it rest)
    (hwf : ∀ msg ∈ it.msgs, msg.Wf) (extra : Nat) (calls : List Call) :
    ∃ it', Parked it' rest ∧ it'.msgs = it.msgs ∧
      run .release (List.replicate extra .peek ++ calls) it =
        (run .release calls it').map fun (it, packets) =>
          (it, List.replicate extra rest.head? ++ packets) := by
  induction extra generalizing it with
  | zero =>
    refine ⟨it, h, rfl, ?_⟩
    simp
  | succ extra ih =>
    obtain ⟨it₁, hpeek, hparked, hmsgs⟩ := peek_at h.at hwf
    obtain ⟨it', hparked', hmsgs', hrun⟩ := ih hparked (by rw [hmsgs]; exact hwf)
    refine ⟨it', hparked', hmsgs'.trans hmsgs, ?_⟩
    rw [List.replicate_succ, List.cons_append, run, hpeek]
    simp only [Option.bind_eq_bind, Option.bind_some, hrun]
    cases run .release calls it' <;> rfl

/-- **Visits**, by induction on them. -/
theorem run_alternating {it : MultiMsgFlattenIter B} {rest : List TimedPacket} (h : At it rest)
    (hwf : ∀ msg ∈ it.msgs, msg.Wf) (visits : List Nat) :
    ∃ it', run .release (alternating visits) it = some (it', seen visits rest) := by
  induction visits generalizing it rest with
  | nil => exact ⟨it, rfl⟩
  | cons extra visits ih =>
    obtain ⟨it₁, hpeek, hparked, hmsgs⟩ := peek_at h hwf
    obtain ⟨it₂, hparked₂, hmsgs₂, hrun⟩ := run_peeks hparked (by rw [hmsgs]; exact hwf) extra
      (.next :: alternating visits)
    have hwf₂ : ∀ msg ∈ it₂.msgs, msg.Wf := by
      rw [hmsgs₂, hmsgs]
      exact hwf
    obtain ⟨it₃, hnext, hat, hmsgs₃⟩ := next_parked hparked₂ hwf₂
    obtain ⟨it', hvisits⟩ := ih hat (by rw [hmsgs₃]; exact hwf₂)
    refine ⟨it', ?_⟩
    rw [alternating_cons, run, hpeek]
    simp only [Option.bind_eq_bind, Option.bind_some, hrun]
    rw [run, hnext, Option.bind_eq_bind, Option.bind_some, hvisits]
    rfl

/-- The loop of a backend, by induction on the packets that it handles. -/
theorem recvLoop_at {it : MultiMsgFlattenIter B} {rest : List TimedPacket} (h : At it rest)
    (hwf : ∀ msg ∈ it.msgs, msg.Wf) (handled : Nat) :
    ∃ it', recvLoop .release handled it = some (it', rest.take handled) := by
  induction handled generalizing it rest with
  | zero =>
    obtain ⟨it₁, hpeek, -, -⟩ := peek_at h hwf
    refine ⟨it₁, ?_⟩
    rw [recvLoop, hpeek]
    rfl
  | succ handled ih =>
    obtain ⟨it₁, hpeek, hparked, hmsgs⟩ := peek_at h hwf
    have hwf₁ : ∀ msg ∈ it₁.msgs, msg.Wf := by
      rw [hmsgs]
      exact hwf
    obtain ⟨it₂, hnext, hat, hmsgs₂⟩ := next_parked hparked hwf₁
    obtain ⟨it', hloop⟩ := ih hat (by rw [hmsgs₂]; exact hwf₁)
    rw [recvLoop, hpeek]
    cases rest with
    | nil => exact ⟨it₁, rfl⟩
    | cons packet rest =>
      rw [List.tail_cons] at hloop
      refine ⟨it', ?_⟩
      simp [hnext, hloop]

/-- **The iterator enumerates exactly the packets of its messages**, in order: each visit sees the next
one, no matter how often it peeks, and the ones after the last packet see nothing. The loop of a
backend handles all of them. -/
theorem enumerates_packets (msgs : List (RecvMsg B)) (h : ∀ msg ∈ msgs, msg.Received) :
    (∀ visits, ∃ it, run .release (alternating visits) (new msgs) =
      some (it, seen visits (msgs.flatMap RecvMsg.packets))) ∧
    ∀ handled, ∃ it, recvLoop .release handled (new msgs) =
      some (it, (msgs.flatMap RecvMsg.packets).take handled) := by
  have hat : At (new msgs) (msgs.flatMap RecvMsg.packets) := at_front [] msgs
  have hwf : ∀ msg ∈ (new msgs).msgs, msg.Wf := fun msg hmem => (h msg hmem).wf
  exact ⟨run_alternating hat hwf, recvLoop_at hat hwf⟩

/-! ## Debug builds

`peek` and `next` assert that the bytes of the message are a multiple of the offset of the iterator. The
offset is zero at the first segment of every message, and behind its last one:

    debug_assert_eq!(msg.read % self.msg_offset, 0);
-/

/-- The calls of `recv` of a backend with one iterator, each with the number of packets that it handles
before it breaks. -/
def recvs (build : Build) : List Nat → MultiMsgFlattenIter B → Option (MultiMsgFlattenIter B)
  | [], it => some it
  | handled :: calls, it => do
    let (it, _) ← recvLoop build handled it
    recvs build calls it

/-- All assertions of a debug build hold, and none of them divides by zero. -/
def AssertionsHold (msgs : List (RecvMsg B)) (calls : List Nat) : Prop :=
  ∃ it, recvs .debug calls (new msgs) = some it

/-- Blank messages are skipped in every build. -/
theorem peekLoop_blank (build : Build) (before : List (RecvMsg B)) {after : List (RecvMsg B)}
    {fuel : Nat} (hfuel : after.length ≤ fuel) (hblank : ∀ msg ∈ after, ¬ msg.HasPacket) :
    peekLoop build fuel ⟨before ++ after, before.length, 0⟩ =
      some (⟨before ++ after, (before ++ after).length, 0⟩, none) := by
  induction after generalizing before fuel with
  | nil =>
    rw [List.append_nil]
    cases fuel with
    | zero => rfl
    | succ fuel =>
      rw [peekLoop]
      simp only [List.getElem?_eq_none (Nat.le_refl before.length)]
  | cons msg after ih =>
    obtain ⟨fuel, rfl⟩ := Nat.exists_eq_add_of_le' (Nat.lt_of_lt_of_le (Nat.succ_pos _) hfuel)
    have hread : msg.read = 0 := not_not.mp (hblank msg List.mem_cons_self)
    have hrest := ih (before ++ [msg]) (Nat.le_of_succ_le_succ hfuel)
      fun msg' hmem => hblank msg' (List.mem_cons_of_mem _ hmem)
    rw [peekLoop]
    simp only [getElem?_zipper, hread, Nat.le_refl, if_true]
    rw [behind_eq, hrest, List.append_assoc, List.singleton_append]

/-- **The first segment of a message is at offset zero**, and `peek` divides by it. -/
theorem peekLoop_debug (before : List (RecvMsg B)) {after : List (RecvMsg B)} {fuel : Nat}
    (hfuel : after.length ≤ fuel) (hpacket : ∃ msg ∈ after, msg.HasPacket) :
    peekLoop .debug fuel ⟨before ++ after, before.length, 0⟩ = none := by
  induction after generalizing before fuel with
  | nil =>
    obtain ⟨msg, hmem, -⟩ := hpacket
    exact absurd hmem List.not_mem_nil
  | cons msg after ih =>
    obtain ⟨fuel, rfl⟩ := Nat.exists_eq_add_of_le' (Nat.lt_of_lt_of_le (Nat.succ_pos _) hfuel)
    rw [peekLoop]
    simp only [getElem?_zipper]
    by_cases hread : msg.read = 0
    · have hpacket' : ∃ msg ∈ after, msg.HasPacket := by
        obtain ⟨msg', hmem, hmsg'⟩ := hpacket
        rcases List.mem_cons.mp hmem with rfl | hmem
        · exact absurd hread hmsg'
        · exact ⟨msg', hmem, hmsg'⟩
      simp only [hread, Nat.le_refl, if_true]
      rw [behind_eq]
      exact ih (before ++ [msg]) (Nat.le_of_succ_le_succ hfuel) hpacket'
    · -- whatever the assertions before and behind it do, this one panics
      have hzero : debugAssert .debug (RemIsZero msg.read 0) = none :=
        if_pos ⟨rfl, fun h => h.1 rfl⟩
      rw [if_neg (by omega), hzero]
      cases debugAssert .debug msg.HasPacket with
      | none => rfl
      | some _ =>
        cases debugAssert .debug (RemIsZero msg.read msg.segmentSize) <;> rfl

theorem recvLoop_none {build : Build} {it : MultiMsgFlattenIter B} (h : it.peek build = none)
    (handled : Nat) : recvLoop build handled it = none := by
  cases handled with
  | zero =>
    rw [recvLoop, h]
    rfl
  | succ handled =>
    rw [recvLoop, h]
    rfl

theorem recvLoop_blank {build : Build} {it it' : MultiMsgFlattenIter B}
    (h : it.peek build = some (it', none)) (handled : Nat) :
    recvLoop build handled it = some (it', []) := by
  cases handled with
  | zero =>
    rw [recvLoop, h]
    rfl
  | succ handled =>
    rw [recvLoop, h]
    rfl

/-- There are no assertions behind the last message. -/
theorem recvs_stop (build : Build) (msgs : List (RecvMsg B)) (calls : List Nat) :
    recvs build calls ⟨msgs, msgs.length, 0⟩ = some ⟨msgs, msgs.length, 0⟩ := by
  have hpeek : peek build ⟨msgs, msgs.length, 0⟩ = some (⟨msgs, msgs.length, 0⟩, none) := by
    rw [peek, Nat.sub_self]
    rfl
  induction calls with
  | nil => rfl
  | cons handled calls ih =>
    rw [recvs, recvLoop_blank hpeek handled]
    exact ih

/-- **The assertions hold exactly if they are never evaluated**: there is no packet, or no call. -/
theorem assertionsHold_iff (msgs : List (RecvMsg B)) (calls : List Nat) :
    AssertionsHold msgs calls ↔ calls = [] ∨ ∀ msg ∈ msgs, ¬ msg.HasPacket := by
  unfold AssertionsHold
  cases calls with
  | nil => exact ⟨fun _ => .inl rfl, fun _ => ⟨_, rfl⟩⟩
  | cons handled calls =>
    rw [recvs]
    constructor
    · rintro ⟨it, hrecvs⟩
      refine .inr fun msg hmem hpacket => ?_
      have hpeek : (new msgs).peek .debug = none :=
        peekLoop_debug [] (Nat.le_refl _) ⟨msg, hmem, hpacket⟩
      rw [recvLoop_none hpeek] at hrecvs
      cases hrecvs
    · rintro (hnil | hblank)
      · cases hnil
      · have hpeek : (new msgs).peek .debug = some (⟨msgs, msgs.length, 0⟩, none) :=
          peekLoop_blank .debug [] (Nat.le_refl _) hblank
        refine ⟨⟨msgs, msgs.length, 0⟩, ?_⟩
        rw [recvLoop_blank hpeek]
        exact recvs_stop .debug msgs calls

/-- The assertion about the offset, at the `k`-th segment: it fails at the first one, and where the
offset is not a divisor. -/
theorem offset_assertion_iff {msg : RecvMsg B} (h : msg.Wf) (hpacket : msg.HasPacket) (k : Nat) :
    RemIsZero msg.read (k * msg.segmentSize) ↔ k ≠ 0 ∧ k ∣ max msg.segmentCount 1 := by
  have hpos : 0 < msg.segmentSize := by
    refine Nat.pos_of_ne_zero fun hzero => hpacket ?_
    rw [h.read_eq, hzero, Nat.mul_zero]
  unfold RemIsZero
  rw [h.read_eq, Nat.mul_mod_mul_right]
  constructor
  · rintro ⟨hne, hmod⟩
    refine ⟨Nat.ne_zero_of_mul_ne_zero_left hne, Nat.dvd_of_mod_eq_zero ?_⟩
    exact (Nat.mul_eq_zero.mp hmod).resolve_right (Nat.ne_of_gt hpos)
  · rintro ⟨hne, hdvd⟩
    refine ⟨Nat.mul_ne_zero hne (Nat.ne_of_gt hpos), ?_⟩
    rw [Nat.mod_eq_zero_of_dvd hdvd, Nat.zero_mul]

end MultiMsgFlattenIter

/-! ## Two messages -/

/-- `ConstBuf`, without the length of what was written to it. -/
structure ConstBuf (size : Nat) where
  storage : Vector UInt8 size
  deriving DecidableEq, Repr

instance {size : Nat} : BufMut (ConstBuf size) := ⟨fun buf => buf.storage.toList⟩

/-- A blank message. -/
def blankMsg : RecvMsg (ConstBuf 6) where
  buf := ⟨#v[1, 2, 3, 4, 0, 0]⟩
  read := 0
  fromAddr := ⟨.v4 #v[0, 0, 0, 0], 0⟩
  toAddr := .v4 #v[0, 0, 0, 0]
  ecn := .nEct
  segmentCount := 0
  timestamp := none

/-- A message of four bytes, in so many segments. -/
def filledMsg (segmentCount : Nat) : RecvMsg (ConstBuf 6) :=
  { blankMsg with read := 4, fromAddr := ⟨.localhost, 443⟩, toAddr := .localhost, segmentCount }

theorem new_blankMsg : RecvMsg.new (⟨#v[1, 2, 3, 4, 0, 0]⟩ : ConstBuf 6) = some blankMsg := rfl

theorem filledMsg_received {segmentCount : Nat} (h : 1 < segmentCount → 4 % segmentCount = 0) :
    (filledMsg segmentCount).Received := by
  have hrecv : blankMsg.recv .debug 4 ⟨.localhost, 443⟩ .localhost .nEct segmentCount none =
      some (filledMsg segmentCount) := by
    unfold RecvMsg.recv
    rw [if_neg (by decide), if_neg (by decide), if_neg fun hcount => hcount.2 (h hcount.1),
      if_neg (by decide)]
    rfl
  exact .filled new_blankMsg (by decide) hrecv

namespace MultiMsgFlattenIter

/-- Two segments, a blank message, and a message that is not segmented. -/
theorem enumerates_packets_three :
    ∃ it packets, recvLoop .release 5 (new [filledMsg 2, blankMsg, filledMsg 0]) =
        some (it, packets) ∧
      packets.map (·.payload) = [[1, 2], [3, 4], [1, 2, 3, 4]] := by
  have hmsgs : ∀ msg ∈ [filledMsg 2, blankMsg, filledMsg 0], msg.Received := by
    intro msg hmem
    rcases List.mem_cons.mp hmem with rfl | hmem
    · exact filledMsg_received (by decide)
    · rcases List.mem_cons.mp hmem with rfl | hmem
      · exact .blank new_blankMsg
      · obtain rfl := List.mem_singleton.mp hmem
        exact filledMsg_received (by decide)
  obtain ⟨it, hloop⟩ := (enumerates_packets _ hmsgs).2 5
  exact ⟨it, _, hloop, by decide +kernel⟩

/-- **The first `peek` of a debug build** divides by zero. -/
theorem first_peek_panics :
    (∀ msg ∈ [filledMsg 1], msg.Received) ∧ recvs .debug [1] (new [filledMsg 1]) = none ∧
    ¬ AssertionsHold [filledMsg 1] [1] := by
  have hpanic : recvs .debug [1] (new [filledMsg 1]) = none := rfl
  refine ⟨fun msg hmem => ?_, hpanic, ?_⟩
  · obtain rfl := List.mem_singleton.mp hmem
    exact filledMsg_received (by decide)
  · rintro ⟨it, hrecvs⟩
    rw [hpanic] at hrecvs
    cases hrecvs

end MultiMsgFlattenIter

end Aquic.Net

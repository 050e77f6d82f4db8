import Aquic.Backend.Quinn.Backend
import Aquic.Net.Datagram

/-!
# Transmits of quinn connections

`write_pending` makes one message of each transmit. Quinn says how large the segments of a transmit
are, and a message says how many there are:

    assert!(buffer_len.is_multiple_of(segment_size), ..);
    buffer_len / segment_size

The last datagram of a transmit may be shorter than the others. Such a transmit is a panic. In a debug
build, so is a transmit whose source and destination are of different address families.
-/

namespace Aquic.Backend.Quinn

open Aquic.Net Aquic.Segments Aquic.Timer

namespace Transmit

/-- What quinn promises of a transmit and the bytes in its buffer: they are a series of datagrams of the
segment size, the last of which may be shorter. -/
structure Filled (transmit : Transmit) (bytes : List UInt8) : Prop where
  size : bytes.length = transmit.size
  size_pos : 0 < transmit.size
  segmentSize : ∀ size, transmit.segmentSize = some size → 0 < size
  destination : transmit.destination.isUnspecified = false

/-- The datagrams of a transmit, in order. -/
def datagrams (listenAddr : IpAddr) (transmit : Transmit) (bytes : List UInt8) : List Datagram :=
  let payloads :=
    match transmit.segmentSize with
    | none => [bytes]
    | some size => series size bytes
  payloads.map fun payload =>
    { fromAddr := transmit.srcIp.getD listenAddr
      toAddr := transmit.destination
      ecn := ecnOf transmit.ecn
      payload }

/-- No datagram is shorter than the others. -/
def Whole (transmit : Transmit) (bytes : List UInt8) : Prop :=
  ∀ size, transmit.segmentSize = some size → size ∣ bytes.length

/-- The source, or the address of the socket where there is none, is of the family of the destination. -/
def OneFamily (listenAddr : IpAddr) (transmit : Transmit) : Prop :=
  (transmit.srcIp.getD listenAddr).sameFamily transmit.destination.ip = true

/-- What a build asks of a transmit. -/
structure Suits (build : Build) (listenAddr : IpAddr) (transmit : Transmit) (bytes : List UInt8) :
    Prop where
  whole : transmit.Whole bytes
  family : build = .debug → transmit.OneFamily listenAddr

end Transmit

namespace Io

variable {build : Build} {listenAddr : IpAddr}

/-- A transmit that suits the build becomes a message of the same datagrams. -/
theorem transmitToMsg_suits {transmit : Transmit} (buffer : VecBuf)
    (hfilled : transmit.Filled buffer.bytes) (hsuits : transmit.Suits build listenAddr buffer.bytes) :
    ∃ msg, transmitToMsg build listenAddr transmit buffer = some msg ∧
      msg.datagrams = transmit.datagrams listenAddr buffer.bytes := by
  have hsize := debugAssert_pos build hfilled.size
  have hbytes : buffer.bytes ≠ [] := by
    intro h
    have hpos := hfilled.size_pos
    rw [← hfilled.size, h] at hpos
    exact absurd hpos (Nat.lt_irrefl 0)
  cases hsegment : transmit.segmentSize with
  | none =>
    refine ⟨⟨buffer, transmit.srcIp.getD listenAddr, transmit.destination, ecnOf transmit.ecn, 1⟩,
      ?_, ?_⟩
    · simp only [transmitToMsg, hsize, hsegment, Option.bind_eq_bind, Option.bind_some]
      exact SendMsg.new_eq_some _ hbytes (Nat.one_dvd _) hfilled.destination hsuits.family
    · rw [SendMsg.datagrams, Transmit.datagrams, hsegment]
      show List.map _ (split 1 buffer.bytes) = _
      rw [split_one]
  | some size =>
    have hpos : 0 < size := hfilled.segmentSize size hsegment
    have hdvd : size ∣ buffer.bytes.length := hsuits.whole size hsegment
    refine ⟨⟨buffer, transmit.srcIp.getD listenAddr, transmit.destination, ecnOf transmit.ecn,
      buffer.bytes.length / size⟩, ?_, ?_⟩
    · simp only [transmitToMsg, hsize, hsegment, Option.bind_eq_bind, Option.bind_some]
      rw [if_pos ⟨Nat.ne_of_gt hpos, Nat.mod_eq_zero_of_dvd hdvd⟩, Option.bind_some]
      exact SendMsg.new_eq_some _ hbytes (Nat.div_dvd_of_dvd hdvd) hfilled.destination hsuits.family
    · rw [SendMsg.datagrams, Transmit.datagrams, hsegment]
      show List.map _ (split (buffer.bytes.length / size) buffer.bytes) = _
      rw [split_eq_series hpos hbytes hdvd]

/-- A transmit with a shorter datagram at its end does not become a message, in any build. -/
theorem transmitToMsg_not_whole {transmit : Transmit} {buffer : VecBuf}
    (h : ¬ transmit.Whole buffer.bytes) : transmitToMsg build listenAddr transmit buffer = none := by
  unfold transmitToMsg
  simp only [Option.bind_eq_bind, Option.bind_eq_none_iff]
  rintro _ -
  cases hsize : transmit.segmentSize with
  | none =>
    refine absurd (fun size hsome => ?_) h
    rw [hsize] at hsome
    cases hsome
  | some size =>
    intro segmentCount hcount
    simp only at hcount
    split at hcount
    · next hmod =>
      refine absurd (fun size' hsome => ?_) h
      rw [hsize] at hsome
      cases hsome
      exact Nat.dvd_of_mod_eq_zero hmod.2
    · cases hcount

/-- A transmit from one family to the other does not become a message in a debug build. -/
theorem transmitToMsg_otherFamily {transmit : Transmit} (buffer : VecBuf)
    (h : ¬ transmit.OneFamily listenAddr) : transmitToMsg .debug listenAddr transmit buffer = none := by
  have hfamily := Bool.eq_false_iff.mpr h
  simp only [transmitToMsg, SendMsg.new_otherFamily _ _ hfamily, Option.bind_eq_bind,
    Option.bind_eq_none_iff, implies_true]

/-- A transmit that does not suit the build is a panic. -/
theorem transmitToMsg_not_suits {transmit : Transmit} {buffer : VecBuf}
    (h : ¬ transmit.Suits build listenAddr buffer.bytes) :
    transmitToMsg build listenAddr transmit buffer = none := by
  by_cases hwhole : transmit.Whole buffer.bytes
  · have hother : build = .debug ∧ ¬ transmit.OneFamily listenAddr := by
      by_contra hno
      exact h ⟨hwhole, fun hdebug => by_contra fun hfamily => hno ⟨hdebug, hfamily⟩⟩
    obtain ⟨rfl, hfamily⟩ := hother
    exact transmitToMsg_otherFamily buffer hfamily
  · exact transmitToMsg_not_whole hwhole

variable {Conn : Type} (build : Build) (lib : Library Conn)

/-- What the connection transmits into these buffers: `poll_transmit` is called until it has nothing
more. -/
def polledLoop (now : Instant) (pmtu : Nat) : List Nat → Conn → List (Transmit × List UInt8)
  | [], _ => []
  | capacity :: pool, c =>
    match lib.pollTransmit c now (reserved capacity pmtu / pmtu) with
    | (_, none) => []
    | (c, some polled) => polled :: polledLoop now pmtu pool c

/-- What the connection transmits into the primary buffers. -/
def polled (io : Io) (c : Connection Conn) (now : Instant) : List (Transmit × List UInt8) :=
  polledLoop lib now (lib.currentMtu c.inner) io.primaryBuffers c.inner

/-- `write_pending` does not panic, and makes a message of each transmit, with the same datagrams. -/
def Forwards (io : Io) (c : Connection Conn) (out : List Message) (now : Instant) : Prop :=
  ∃ io' c' msgs complete, io.writePending build lib c out now = some (io', c', out ++ msgs, complete) ∧
    msgs.map SendMsg.datagrams =
      (io.polled lib c now).map fun (transmit, bytes) => transmit.datagrams io.listenAddr bytes

variable {build lib} {now : Instant} {pmtu : Nat}

/-- **Transmits that suit the build are forwarded**: by induction on the pool, one buffer a transmit. -/
theorem writePendingLoop_suits (listenAddr : IpAddr) (hpmtu : pmtu ≠ 0) {pool : List Nat} {c : Conn}
    (out : List Message)
    (hpolled : ∀ polled ∈ polledLoop lib now pmtu pool c,
      polled.1.Filled polled.2 ∧ polled.1.Suits build listenAddr polled.2) :
    ∃ pool' c' msgs complete,
      writePendingLoop build lib listenAddr now pmtu pool c out = some (pool', c', out ++ msgs, complete) ∧
      msgs.map SendMsg.datagrams = (polledLoop lib now pmtu pool c).map
        fun (transmit, bytes) => transmit.datagrams listenAddr bytes := by
  induction pool generalizing c out with
  | nil => exact ⟨[], c, [], false, by rw [writePendingLoop, List.append_nil], rfl⟩
  | cons capacity pool ih =>
    rw [polledLoop] at hpolled ⊢
    rw [writePendingLoop]
    simp only
    rw [if_neg hpmtu]
    revert hpolled
    generalize lib.pollTransmit c now (reserved capacity pmtu / pmtu) = result
    obtain ⟨c', transmitted⟩ := result
    cases transmitted with
    | none =>
      intro _
      exact ⟨_, c', [], true, by rw [List.append_nil], rfl⟩
    | some transmitted =>
      obtain ⟨transmit, bytes⟩ := transmitted
      intro hpolled
      -- this transmit becomes a message, and the rest of the pool serves the transmits behind it
      obtain ⟨hfilled, hsuits⟩ := hpolled (transmit, bytes) List.mem_cons_self
      obtain ⟨msg, hmsg, hdatagrams⟩ := transmitToMsg_suits
        ⟨bytes, max (reserved capacity pmtu) bytes.length⟩ hfilled hsuits
      obtain ⟨pool', c'', msgs, complete, hloop, hmsgs⟩ :=
        ih (out ++ [msg]) (fun polled hmem => hpolled polled (List.mem_cons_of_mem _ hmem))
      refine ⟨pool', c'', msg :: msgs, complete, ?_, ?_⟩
      · simp only [hmsg, hloop]
        rw [List.append_assoc, List.singleton_append]
      · rw [List.map_cons, hdatagrams, hmsgs, List.map_cons]

/-- **A transmit that does not suit the build is a panic**, no matter how many were forwarded before. -/
theorem writePendingLoop_not_suits {pool : List Nat} {c : Conn} {out : List Message}
    {polled : Transmit × List UInt8} (hmem : polled ∈ polledLoop lib now pmtu pool c)
    (h : ¬ polled.1.Suits build listenAddr polled.2) :
    writePendingLoop build lib listenAddr now pmtu pool c out = none := by
  induction pool generalizing c out with
  | nil => exact absurd hmem List.not_mem_nil
  | cons capacity pool ih =>
    rw [polledLoop] at hmem
    rw [writePendingLoop]
    -- there is no message either way where the MTU is zero
    split
    · rfl
    · revert hmem
      generalize lib.pollTransmit c now (reserved capacity pmtu / pmtu) = result
      obtain ⟨c', transmitted⟩ := result
      cases transmitted with
      | none =>
        intro hmem
        exact absurd hmem List.not_mem_nil
      | some transmitted =>
        intro hmem
        rcases List.mem_cons.mp hmem with rfl | hmem
        · simp only
          rw [transmitToMsg_not_suits h]
        · simp only
          split
          · rfl
          · exact ih hmem

theorem writePending_not_suits {io : Io} {c : Connection Conn} {out : List Message}
    {polled : Transmit × List UInt8} (hmem : polled ∈ io.polled lib c now)
    (h : ¬ polled.1.Suits build io.listenAddr polled.2) : io.writePending build lib c out now = none := by
  rw [writePending, writePendingLoop_not_suits hmem h, Option.map_none]

/-- **Transmits are forwarded as the same datagrams exactly if all of them suit the build**: none ends
with a shorter datagram, and in a debug build none goes from one address family to the other. -/
theorem forwards_iff (io : Io) (c : Connection Conn) (out : List Message) (now : Instant)
    (hmtu : 0 < lib.currentMtu c.inner)
    (hfilled : ∀ polled ∈ io.polled lib c now, polled.1.Filled polled.2) :
    io.Forwards build lib c out now ↔
      ∀ polled ∈ io.polled lib c now, polled.1.Suits build io.listenAddr polled.2 := by
  constructor
  · rintro ⟨io', c', msgs, complete, hwrite, -⟩ polled hmem
    by_contra h
    rw [writePending_not_suits hmem h] at hwrite
    cases hwrite
  · intro hsuits
    obtain ⟨pool', c', msgs, complete, hloop, hmsgs⟩ :=
      writePendingLoop_suits io.listenAddr (Nat.ne_of_gt hmtu) out
        (fun polled hmem => ⟨hfilled polled hmem, hsuits polled hmem⟩)
    refine ⟨{ io with primaryBuffers := pool' }, { c with inner := c' }, msgs, complete, ?_, hmsgs⟩
    rw [writePending, hloop, Option.map_some]

end Io

/-! ## Two transmits -/

/-- Connections that have one transmit, with segments of 1200 bytes. -/
def bulkLibrary (size : Nat) : Library Bool :=
  { idleLibrary with
    pollTransmit c _ _ :=
      if c then (c, none)
      else
        (true, some
          ({ destination := ⟨.localhost, 443⟩, ecn := none, size, segmentSize := some 1200
             srcIp := none }, List.replicate size 0)) }

/-- An output with two buffers for large messages. -/
def bulkIo : Io where
  primaryBuffers := [64000, 64000]
  listenAddr := .localhost

/-- A connection that has not transmitted yet. -/
def bulkConnection : Connection Bool := .new false 0

theorem polled_bulk (size : Nat) : bulkIo.polled (bulkLibrary size) bulkConnection .zero =
    [({ destination := ⟨.localhost, 443⟩, ecn := none, size, segmentSize := some 1200
        srcIp := none }, List.replicate size 0)] := rfl

theorem filled_bulk {size : Nat} (h : 0 < size) :
    ∀ polled ∈ bulkIo.polled (bulkLibrary size) bulkConnection .zero, polled.1.Filled polled.2 := by
  rw [polled_bulk]
  intro polled hmem
  obtain rfl := List.mem_singleton.mp hmem
  refine ⟨List.length_replicate, h, ?_, rfl⟩
  intro size hsize
  cases hsize
  decide

/-- Two datagrams of 1200 bytes are forwarded, in a debug build. -/
theorem forwards_iff_equal :
    bulkIo.Forwards .debug (bulkLibrary 2400) bulkConnection [] .zero := by
  refine (Io.forwards_iff bulkIo bulkConnection [] .zero (by decide)
    (filled_bulk (by decide))).mpr ?_
  rw [polled_bulk]
  intro polled hmem
  obtain rfl := List.mem_singleton.mp hmem
  refine ⟨fun size hsize => ?_, fun _ => rfl⟩
  cases hsize
  rw [List.length_replicate]
  decide

/-- **A datagram of 1200 bytes with one of 100 bytes is a panic**, in a release build too. -/
theorem short_datagram_panics :
    (∀ polled ∈ bulkIo.polled (bulkLibrary 1300) bulkConnection .zero, polled.1.Filled polled.2) ∧
    bulkIo.writePending .release (bulkLibrary 1300) bulkConnection [] .zero = none ∧
    ¬ bulkIo.Forwards .release (bulkLibrary 1300) bulkConnection [] .zero := by
  have hpanic : bulkIo.writePending .release (bulkLibrary 1300) bulkConnection [] .zero = none := by
    refine Io.writePending_not_suits (by rw [polled_bulk]; exact List.mem_cons_self) ?_
    intro hsuits
    have hdvd := hsuits.whole 1200 rfl
    rw [List.length_replicate] at hdvd
    exact absurd hdvd (by decide)
  refine ⟨filled_bulk (by decide), hpanic, ?_⟩
  rintro ⟨io', c', msgs, complete, hwrite, -⟩
  rw [hpanic] at hwrite
  cases hwrite

end Aquic.Backend.Quinn

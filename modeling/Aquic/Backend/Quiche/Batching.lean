import Aquic.Backend.Quiche.Io
import Aquic.Net.Datagram
import Aquic.Util.BipBuffer.Disjoint

/-!
# Batches of packets

`write_pending` writes one packet after the other into its reservation, and commits a batch of them as
a message when the next packet has another size or another path, and at the end. Batches are kept in
order and without gaps, so that a message is the concatenation of packets of one size.

The exit after an error of `connection.send` is the one that does not commit:

    Err(e) => {
        return Err(e);
    }

The last packet is never committed before the next one is there. It is lost.
-/

namespace Aquic.Backend.Quiche

open Aquic.BipBuf Aquic.Net Aquic.Run Aquic.Segments Aquic.Timer Aquic.Word

/-! ## The history of a call -/

/-- A packet that `connection.send` has produced. -/
structure Sent where
  bytes : List UInt8
  route : Route
  deriving DecidableEq, Repr

namespace Io

inductive Entry where
  | sent (packet : Sent)
  /-- `reserve.commit(len)`, with a reservation of `available` bytes. -/
  | commit (len available : Nat)
  /-- `debug_assert_eq!(packet.reserve_offset, expected)`. -/
  | assertOffset (reserveOffset expected : Nat)
  deriving DecidableEq, Repr

/-- What the code takes for granted. -/
def Entry.Holds : Entry → Prop
  | .sent _ => True
  | .commit len available => len ≤ available
  | .assertOffset reserveOffset expected => reserveOffset = expected

/-- The packets of a history. -/
def sentOf : List Entry → List Sent
  | [] => []
  | .sent packet :: history => packet :: sentOf history
  | .commit _ _ :: history => sentOf history
  | .assertOffset _ _ :: history => sentOf history

theorem sentOf_append (history history' : List Entry) :
    sentOf (history ++ history') = sentOf history ++ sentOf history' := by
  induction history with
  | nil => rfl
  | cons entry history ih =>
    cases entry with
    | sent packet => exact congrArg (packet :: ·) ih
    | commit len available => exact ih
    | assertOffset reserveOffset expected => exact ih

variable {Conn Cfg : Type} (build : Build) (lib : Library Conn Cfg)

/-- A call of `commit_packet`, and the assertion behind it. -/
def commitEntries (io : Io) (packet : PendingPacket) (expected : Nat) : List Entry :=
  let packetLen := packet.segmentCount * packet.segmentSize
  let commits :=
    if packetLen = 0 then []
    else io.buffer.reservation.toList.map fun r => .commit packetLen r.len
  commits ++ [.assertOffset (sub packet.written.length packetLen) expected]

def finishEntries (io : Io) (path : Option Path) (packet : PendingPacket) : List Entry :=
  match path with
  | none => []
  | some _ => io.commitEntries packet 0

def appendEntries (io : Io) (path : Option Path) (packet : PendingPacket) (bytes : List UInt8)
    (route : Route) : List Entry :=
  if path.all (fun p => p.route = route) ∧
      (packet.segmentCount = 0 ∨ packet.segmentSize = bytes.length) then
    []
  else
    io.commitEntries { packet with written := packet.written ++ bytes } bytes.length

/-- The history of the loop of `write_pending`. -/
def historyLoop (now : Instant) : Nat → Io → Connection Conn → Option Path → PendingPacket →
    List Message → List Entry
  | 0, _, _, _, _, _ => []
  | fuel + 1, io, c, path, packet, out =>
    if path.any (fun p => p.quantum ≤ p.quantumConsumed) then
      finishEntries io path packet
    else
      match c.getNextReleaseTime lib now, io.buffer.reservation with
      | some _, _ => finishEntries io path packet
      | none, none => []
      | none, some r =>
        if r.len < packet.written.length then
          []
        else
          match lib.send c.inner (r.len - packet.written.length) with
          | (_, .error .done) => finishEntries io path packet
          | (_, .error .bufferTooShort) => finishEntries io path packet
          | (_, .error _) => []
          | (_, .ok ([], _)) => finishEntries io path packet
          | (inner, .ok (bytes, route)) =>
            .sent ⟨bytes, route⟩ :: (appendEntries io path packet bytes route ++
              match appendPacket build lib io { c with inner } path packet out bytes route with
              | none => []
              | some (io, path, packet, out) =>
                historyLoop now fuel io { c with inner } (some path) packet out)

/-- The history of `write_pending`. -/
def history (io : Io) (c : Connection Conn) (out : List Message) (now : Instant) : List Entry :=
  match io.reserve (2 ^ Word.usizeBits - 1) false with
  | some (io, some r) =>
    historyLoop build lib now (r.len + 2) io c none { written := [], segmentCount := 0, segmentSize := 0 }
      out
  | _ => []

/-- The packets that `connection.send` produces during `write_pending`. -/
def produced (io : Io) (c : Connection Conn) (out : List Message) (now : Instant) : List Sent :=
  sentOf (io.history build lib c out now)

end Io

/-! ## Reservations -/

/-- `connection.send` returns the length of what it has written to its buffer. -/
def Library.Fits {Conn Cfg : Type} (lib : Library Conn Cfg) : Prop :=
  ∀ c len c' bytes route, lib.send c len = (c', .ok (bytes, route)) → bytes.length ≤ len

namespace Io

/-- `write_pending` gets a reservation, which is a range of indices. -/
structure Available (io io' : Io) (r : Reservation) : Prop where
  reserve : io.reserve (2 ^ Word.usizeBits - 1) false = some (io', some r)
  le : r.start ≤ r.stop
  lt : r.stop < 2 ^ Word.usizeBits

/-- A reservation of `len` bytes is live. -/
def Reserved (io : Io) (len : Nat) : Prop :=
  ∃ r, io.buffer.reservation = some r ∧ r.start ≤ r.stop ∧ r.stop < 2 ^ Word.usizeBits ∧ r.len = len

theorem reserve_reservation {io io' : Io} {request : Nat} {strict : Bool} {r : Reservation}
    (h : io.reserve request strict = some (io', some r)) : io'.buffer.reservation = some r := by
  unfold reserve at h
  split at h
  · cases h
  · cases h
  · cases h
    rfl

theorem Available.reserved {io io' : Io} {r : Reservation} (h : io.Available io' r) :
    io'.Reserved r.len :=
  ⟨r, reserve_reservation h.reserve, h.le, h.lt, rfl⟩

/-- Every reservation that a run of the buffer makes in bounds is available. -/
theorem available_of_reachable {io io' : Io} {r : Reservation}
    (h : Reachable Bip.Init InBounds.Met Bip.exec io.buffer)
    (hfits : ReserveFits io.buffer.inner (2 ^ Word.usizeBits - 1))
    (hreserve : io.reserve (2 ^ Word.usizeBits - 1) false = some (io', some r)) :
    io.Available io' r := by
  have hmet : InBounds.Met io.buffer (.reserve (2 ^ Word.usizeBits - 1) false) := hfits
  have hstep : Bip.exec io.buffer (.reserve (2 ^ Word.usizeBits - 1) false) = some io'.buffer := by
    unfold reserve at hreserve
    unfold Bip.exec Bip.step
    split at hreserve
    · cases hreserve
    · cases hreserve
    · next inner r hok =>
      cases hreserve
      simp only [hok]
  have hlayout := (layout_invariant.of_reachable (h.step hmet hstep)).holds
  rw [reserve_reservation hreserve] at hlayout
  have hbounds := layout_invariant.bounded hlayout
  exact ⟨hreserve, hbounds.1, Nat.lt_trans hbounds.2 (by decide)⟩

/-- A commit takes its bytes from the start of the reservation. -/
theorem commit_reserved {io : Io} {bytes : List UInt8} {rest : Nat}
    (h : io.Reserved (bytes.length + rest)) :
    ∃ io' view, io.commit bytes = some (io', view) ∧ view.bytes = bytes ∧ io'.Reserved rest := by
  obtain ⟨r, hr, hle, hlt, hlen⟩ := h
  have hstop : r.stop = r.start + bytes.length + rest := by
    have hsub : r.len = r.stop - r.start := sub_eq hle
    omega
  have hfits : ¬ r.len < bytes.length := by omega
  have hadd : add r.start bytes.length = r.start + bytes.length :=
    add_eq (Nat.lt_of_le_of_lt (by omega) hlt)
  obtain ⟨inner, view, hcommit⟩ :
      ∃ inner view, io.buffer.inner.commit r bytes.length = some (inner, view) := by
    unfold BipBufferInner.commit
    rw [if_neg hfits]
    exact ⟨_, _, rfl⟩
  refine ⟨⟨io.buffer.tryCommit r bytes.length⟩, { commit := view, bytes }, ?_, rfl, ?_⟩
  · unfold commit
    simp [hr, hcommit]
  · unfold Reserved Bip.tryCommit
    rw [hcommit]
    refine ⟨_, rfl, ?_, hlt, ?_⟩
    · exact Nat.min_le_right ..
    · show sub r.stop (min (add r.start bytes.length) r.stop) = rest
      rw [hadd, Nat.min_eq_left (by omega), sub_eq (by omega)]
      omega

end Io

/-! ## Batches -/

/-- What a build asks of the addresses of a packet. -/
structure Route.Suits (build : Build) (route : Route) : Prop where
  destination : route.destination.isUnspecified = false
  family : build = .debug → route.source.ip.sameFamily route.destination.ip = true

/-- `SendMsg::new` does not take a packet whose addresses do not suit the build. -/
theorem Route.Suits.new_eq_none {build : Build} {route : Route} (h : ¬ route.Suits build) (view : BipView)
    (segmentCount : Nat) :
    SendMsg.new build view route.source.ip route.destination .nEct segmentCount = none := by
  cases hto : route.destination.isUnspecified with
  | true =>
    unfold SendMsg.new
    simp [hto]
  | false =>
    have hother : build = .debug ∧ route.source.ip.sameFamily route.destination.ip = false := by
      by_contra hno
      refine h ⟨hto, fun hdebug => ?_⟩
      by_contra hfamily
      exact hno ⟨hdebug, Bool.eq_false_iff.mpr hfamily⟩
    rw [hother.1]
    exact SendMsg.new_otherFamily _ _ hother.2

/-- Packets of one size for one path, in order. -/
structure Batch where
  route : Route
  size : Nat
  payloads : List (List UInt8)
  size_pos : 0 < size
  ne_nil : payloads ≠ []
  sized : ∀ payload ∈ payloads, payload.length = size

namespace Batch

/-- The packets of a batch. -/
def sent (b : Batch) : List Sent := b.payloads.map fun bytes => { bytes, route := b.route }

/-- A batch in the reservation. -/
def pending (b : Batch) : Io.PendingPacket where
  written := b.payloads.flatten
  segmentCount := b.payloads.length
  segmentSize := b.size

/-- The first packet of a batch. -/
def single (packet : Sent) (h : packet.bytes ≠ []) : Batch where
  route := packet.route
  size := packet.bytes.length
  payloads := [packet.bytes]
  size_pos := List.length_pos_iff.mpr h
  ne_nil := List.cons_ne_nil _ _
  sized _ hmem := congrArg List.length (List.mem_singleton.mp hmem)

/-- The next packet of a batch. -/
def push (b : Batch) (bytes : List UInt8) (h : b.size = bytes.length) : Batch where
  route := b.route
  size := b.size
  payloads := b.payloads ++ [bytes]
  size_pos := b.size_pos
  ne_nil := List.append_ne_nil_of_left_ne_nil b.ne_nil _
  sized payload hmem := by
    rcases List.mem_append.mp hmem with hmem | hmem
    · exact b.sized payload hmem
    · rw [List.mem_singleton.mp hmem, h]

theorem sent_single (packet : Sent) (h : packet.bytes ≠ []) : (single packet h).sent = [packet] :=
  rfl

theorem sent_push (b : Batch) (bytes : List UInt8) (h : b.size = bytes.length) :
    (b.push bytes h).sent = b.sent ++ [{ bytes, route := b.route }] :=
  List.map_append

theorem sent_ne_nil (b : Batch) : b.sent ≠ [] := fun h => b.ne_nil (List.map_eq_nil_iff.mp h)

theorem pending_single (packet : Sent) (h : packet.bytes ≠ []) :
    (single packet h).pending =
      { written := packet.bytes, segmentCount := 1, segmentSize := packet.bytes.length } := by
  unfold single pending
  rw [List.flatten_singleton, List.length_singleton]

theorem pending_push (b : Batch) (bytes : List UInt8) (h : b.size = bytes.length) :
    (b.push bytes h).pending =
      { written := b.pending.written ++ bytes
        segmentCount := b.pending.segmentCount + 1
        segmentSize := b.pending.segmentSize } := by
  unfold push pending
  rw [List.flatten_append, List.flatten_singleton, List.length_append, List.length_singleton]

theorem length_written (b : Batch) : b.pending.written.length = b.payloads.length * b.size :=
  length_flatten b.sized

theorem length_pos (b : Batch) : b.payloads.length * b.size ≠ 0 :=
  Nat.mul_ne_zero (Nat.ne_of_gt (List.length_pos_iff.mpr b.ne_nil)) (Nat.ne_of_gt b.size_pos)

/-- The message has the addresses of the path, and its equal segments are the packets. -/
structure CarriedBy (b : Batch) (msg : Message) : Prop where
  fromAddr : msg.fromAddr = b.route.source.ip
  toAddr : msg.toAddr = b.route.destination
  ecn : msg.ecn = .nEct
  segmentCount : msg.segmentCount = b.payloads.length
  segments : split msg.segmentCount (Buf.asSlice msg.buf) = b.payloads

end Batch

namespace Io

/-- **A batch is committed as a message**, and the bytes behind it stay in the reservation. It takes a
route that suits the build. -/
theorem commitPacket_batch (build : Build) {io : Io} {path : Path} {b : Batch} (hroute : path.route = b.route)
    {rest : List UInt8} {space : Nat} (out : List Message)
    (h : io.Reserved ((b.pending.written ++ rest).length + space)) :
    ¬ b.route.Suits build ∧
      io.commitPacket build path { b.pending with written := b.pending.written ++ rest } out = none ∨
    ∃ io' msg, io.commitPacket build path { b.pending with written := b.pending.written ++ rest } out =
        some (io', { written := rest, segmentCount := 0, segmentSize := 0 }, out ++ [msg]) ∧
      b.CarriedBy msg ∧ io'.Reserved (rest.length + space) := by
  have hlen : b.pending.segmentCount * b.pending.segmentSize = b.pending.written.length :=
    b.length_written.symm
  have hpos : b.pending.written.length ≠ 0 := by
    rw [b.length_written]
    exact b.length_pos
  rw [List.length_append, Nat.add_assoc] at h
  obtain ⟨io', view, hcommit, hbytes, hreserved⟩ := commit_reserved h
  have hne : Buf.asSlice view ≠ [] := by
    show view.bytes ≠ []
    rw [hbytes]
    exact fun hnil => hpos (List.length_eq_zero_iff.mpr hnil)
  unfold commitPacket
  simp only [hlen, if_neg hpos, List.take_left, List.drop_left, hcommit, hroute]
  -- the bytes are not empty and are whole segments: `SendMsg::new` minds the route only
  by_cases hsuits : b.route.Suits build
  · have hdvd : b.pending.segmentCount ∣ (Buf.asSlice view).length := by
      show b.pending.segmentCount ∣ view.bytes.length
      rw [hbytes, ← hlen]
      exact Nat.dvd_mul_right _ _
    have hnew := SendMsg.new_eq_some .nEct hne hdvd hsuits.1 hsuits.2
    refine .inr ⟨io', ⟨view, b.route.source.ip, b.route.destination, .nEct, b.pending.segmentCount⟩,
      by simp [hnew], ⟨rfl, rfl, rfl, rfl, ?_⟩, hreserved⟩
    show split b.payloads.length view.bytes = b.payloads
    rw [hbytes]
    exact split_flatten b.ne_nil b.sized
  · have hnew := Route.Suits.new_eq_none hsuits view b.pending.segmentCount
    exact .inl ⟨hsuits, by simp [hnew]⟩

/-- The assertion behind a commit holds, and the commit is not too long. -/
theorem commitEntries_hold {io : Io} {b : Batch} {rest : List UInt8} {space : Nat}
    (h : io.Reserved ((b.pending.written ++ rest).length + space)) :
    ∀ entry ∈ io.commitEntries { b.pending with written := b.pending.written ++ rest } rest.length,
      entry.Holds := by
  have hlen : b.pending.segmentCount * b.pending.segmentSize = b.pending.written.length :=
    b.length_written.symm
  obtain ⟨r, hr, -, -, hr'⟩ := h
  rw [List.length_append] at hr'
  intro entry hmem
  unfold commitEntries at hmem
  simp only [hlen, hr] at hmem
  rcases List.mem_append.mp hmem with hmem | hmem
  · split at hmem
    · exact absurd hmem List.not_mem_nil
    · obtain rfl := List.mem_singleton.mp hmem
      show b.pending.written.length ≤ r.len
      omega
  · obtain rfl := List.mem_singleton.mp hmem
    show sub (b.pending.written ++ rest).length b.pending.written.length = rest.length
    rw [List.length_append, sub_eq (Nat.le_add_right _ _), Nat.add_sub_cancel_left]

/-! ## One packet -/

/-- The packets that are in the reservation: none at first, and a batch of the current path later. -/
inductive Held : Option Path → PendingPacket → List Sent → Prop
  | nothing : Held none { written := [], segmentCount := 0, segmentSize := 0 } []
  | batch (b : Batch) {path : Path} (hroute : path.route = b.route) :
      Held (some path) b.pending b.sent

/-- The state of the loop after it has got the packets `sent`: those that are not held are in
messages, and the last one is held. -/
def Batching (out₀ : List Message) (sent : List Sent) (space : Nat) (io : Io) (path : Option Path)
    (packet : PendingPacket) (out : List Message) : Prop :=
  ∃ done msgs held, out = out₀ ++ msgs ∧ List.Forall₂ Batch.CarriedBy done msgs ∧
    Held path packet held ∧ (held = [] → done = []) ∧ sent = done.flatMap Batch.sent ++ held ∧
    io.Reserved (packet.written.length + space)

/-- There is a packet that `SendMsg::new` does not take. -/
def Undeliverable (build : Build) (sent : List Sent) : Prop :=
  ∃ packet ∈ sent, ¬ packet.route.Suits build

theorem undeliverable_of_batch {build : Build} {b : Batch} (h : ¬ b.route.Suits build) :
    Undeliverable build b.sent := by
  obtain ⟨payload, hpayload⟩ := List.exists_mem_of_ne_nil _ b.ne_nil
  exact ⟨_, List.mem_map_of_mem hpayload, h⟩

theorem Undeliverable.append {build : Build} {sent sent' : List Sent} (h : Undeliverable build sent) :
    Undeliverable build (sent ++ sent') := by
  obtain ⟨packet, hmem, hto⟩ := h
  exact ⟨packet, List.mem_append_left _ hmem, hto⟩

theorem Undeliverable.append_right {build : Build} {sent sent' : List Sent} (h : Undeliverable build sent') :
    Undeliverable build (sent ++ sent') := by
  obtain ⟨packet, hmem, hto⟩ := h
  exact ⟨packet, List.mem_append_right _ hmem, hto⟩

theorem forall₂_concat {done : List Batch} {msgs : List Message} {b : Batch} {msg : Message}
    (h : List.Forall₂ Batch.CarriedBy done msgs) (hb : b.CarriedBy msg) :
    List.Forall₂ Batch.CarriedBy (done ++ [b]) (msgs ++ [msg]) := by
  induction h with
  | nil => exact .cons hb .nil
  | cons hcarried _ ih => exact .cons hcarried ih

section

variable {Conn Cfg : Type} {build : Build} {lib : Library Conn Cfg} {out₀ out : List Message}
  {sent : List Sent} {space : Nat} {io : Io} {path : Option Path} {packet : PendingPacket}
  {bytes : List UInt8}

/-- The open batch is committed, with the bytes behind it left. -/
theorem Batching.commit (build : Build) (out₀ : List Message) {done : List Batch} {msgs : List Message} {b : Batch}
    {current : Path} (hroute : current.route = b.route)
    (hdone : List.Forall₂ Batch.CarriedBy done msgs)
    {rest : List UInt8} (h : io.Reserved ((b.pending.written ++ rest).length + space)) :
    ¬ b.route.Suits build ∧
      io.commitPacket build current { b.pending with written := b.pending.written ++ rest }
        (out₀ ++ msgs) = none ∨
    ∃ io' msgs', io.commitPacket build current { b.pending with written := b.pending.written ++ rest }
        (out₀ ++ msgs) =
          some (io', { written := rest, segmentCount := 0, segmentSize := 0 }, out₀ ++ msgs') ∧
      List.Forall₂ Batch.CarriedBy (done ++ [b]) msgs' ∧ io'.Reserved (rest.length + space) := by
  rcases commitPacket_batch build hroute (out₀ ++ msgs) h with hnone | ⟨io', msg, hcommit, hmsg, hreserved⟩
  · exact .inl hnone
  · refine .inr ⟨io', msgs ++ [msg], ?_, forall₂_concat hdone hmsg, hreserved⟩
    rw [hcommit, List.append_assoc]

/-- The packet that has just been written is the first one of a batch. -/
theorem Batching.single (out₀ : List Message) {done : List Batch} {msgs : List Message}
    (hdone : List.Forall₂ Batch.CarriedBy done msgs) (hne : bytes ≠ []) {current : Path}
    (hreserved : io.Reserved (bytes.length + space)) :
    Batching out₀ (done.flatMap Batch.sent ++ [Sent.mk bytes current.route]) space io (some current)
      { written := bytes, segmentCount := 1, segmentSize := bytes.length } (out₀ ++ msgs) := by
  rw [← Batch.pending_single (Sent.mk bytes current.route) hne]
  refine ⟨done, msgs, _, rfl, hdone, .batch _ rfl, fun h => absurd h (Batch.sent_ne_nil _), ?_, ?_⟩
  · rw [Batch.sent_single]
  · rw [Batch.pending_single]
    exact hreserved

/-- It is the next one of a batch. -/
theorem Batching.push (out₀ : List Message) {done : List Batch} {msgs : List Message} {b : Batch}
    (hdone : List.Forall₂ Batch.CarriedBy done msgs) (hsize : b.size = bytes.length) {current : Path}
    (hroute : current.route = b.route)
    (hreserved : io.Reserved ((b.pending.written ++ bytes).length + space)) :
    Batching out₀ (done.flatMap Batch.sent ++ b.sent ++ [Sent.mk bytes current.route]) space io
      (some current) { b.pending with
        written := b.pending.written ++ bytes
        segmentCount := b.pending.segmentCount + 1 } (out₀ ++ msgs) := by
  refine ⟨done, msgs, (b.push bytes hsize).sent, rfl, hdone, ?_,
    fun h => absurd h (Batch.sent_ne_nil _), ?_, hreserved⟩
  · rw [← Batch.pending_push b bytes hsize]
    exact .batch (b.push bytes hsize) hroute
  · rw [Batch.sent_push, hroute, List.append_assoc]

/-- The first packet of a call. -/
theorem appendPacket_first (build : Build) (lib : Library Conn Cfg) (io : Io) (c : Connection Conn)
    (out : List Message) (bytes : List UInt8) (route : Route) :
    ∃ current : Path, current.route = route ∧
      appendPacket build lib io c none { written := [], segmentCount := 0, segmentSize := 0 } out bytes
          route =
        some (io, current,
          { written := bytes, segmentCount := 1, segmentSize := bytes.length }, out) := by
  refine ⟨⟨route, lib.sendQuantumOnPath c.inner route.source route.destination, 0 + bytes.length⟩,
    rfl, ?_⟩
  simp [appendPacket]

/-- One more segment of the open batch. -/
theorem appendPacket_join (build : Build) (lib : Library Conn Cfg) (io : Io) (c : Connection Conn)
    (out : List Message) {b : Batch} {current : Path} {route : Route} (hroute : current.route = route)
    (hsize : b.size = bytes.length) :
    ∃ consumed : Path, consumed.route = route ∧
      appendPacket build lib io c (some current) b.pending out bytes route =
        some (io, consumed, { b.pending with
          written := b.pending.written ++ bytes
          segmentCount := b.pending.segmentCount + 1 }, out) := by
  have hcount : ¬ (current.route = route ∧ b.pending.segmentCount = 0) := fun h =>
    b.ne_nil (List.length_eq_zero_iff.mp h.2)
  refine ⟨{ current with quantumConsumed := current.quantumConsumed + bytes.length }, hroute, ?_⟩
  unfold appendPacket
  simp only [Option.getD_some]
  rw [if_neg hcount, if_pos ⟨hroute, hsize⟩]

/-- The open batch is committed, and the packet is the first one of the next batch. -/
theorem appendPacket_next (build : Build) (lib : Library Conn Cfg) (io : Io) (c : Connection Conn)
    (out : List Message) {b : Batch} {current : Path} {route : Route}
    (hjoin : ¬ (current.route = route ∧ b.size = bytes.length)) :
    ∃ consumed next : Path, consumed.route = current.route ∧ next.route = route ∧
      appendPacket build lib io c (some current) b.pending out bytes route =
        (io.commitPacket build consumed { b.pending with written := b.pending.written ++ bytes } out).map
          fun (io, packet, out) =>
            (io, next, { packet with segmentCount := 1, segmentSize := bytes.length }, out) := by
  have hcount : ¬ (current.route = route ∧ b.pending.segmentCount = 0) := fun h =>
    b.ne_nil (List.length_eq_zero_iff.mp h.2)
  have hsize : ¬ (current.route = route ∧ b.pending.segmentSize = bytes.length) := hjoin
  -- a batch for the same path keeps the quantum, with the packet counted
  let consumed : Path := { current with quantumConsumed := current.quantumConsumed + bytes.length }
  let next : Path :=
    if current.route = route then consumed
    else ⟨route, lib.sendQuantumOnPath c.inner route.source route.destination, bytes.length⟩
  have hnext : next.route = route := by
    unfold next
    split
    · next hpath => exact hpath
    · rfl
  refine ⟨consumed, next, rfl, hnext, ?_⟩
  unfold appendPacket
  simp only [Option.getD_some]
  rw [if_neg hcount, if_neg hsize]
  show (io.commitPacket build consumed { b.pending with written := b.pending.written ++ bytes } out).bind _ =
    _
  cases io.commitPacket build consumed { b.pending with written := b.pending.written ++ bytes } out <;> rfl

/-- **The packet that has just been written** joins the open batch, or becomes the next one. -/
theorem appendPacket_batching (build : Build) (lib : Library Conn Cfg)
    (h : Batching out₀ sent (bytes.length + space) io path packet out) (c : Connection Conn)
    (hne : bytes ≠ []) (route : Route) :
    (appendPacket build lib io c path packet out bytes route = none ∧ Undeliverable build sent) ∨
    ∃ io' path' packet' out',
      appendPacket build lib io c path packet out bytes route = some (io', path', packet', out') ∧
      Batching out₀ (sent ++ [Sent.mk bytes route]) space io' (some path') packet' out' := by
  obtain ⟨done, msgs, held, rfl, hdone, hheld, -, rfl, hreserved⟩ := h
  have hspace : (packet.written ++ bytes).length + space =
      packet.written.length + (bytes.length + space) := by
    rw [List.length_append, Nat.add_assoc]
  rw [← hspace] at hreserved
  cases hheld with
  | nothing =>
    obtain ⟨first, rfl, happend⟩ := appendPacket_first build lib io c (out₀ ++ msgs) bytes route
    refine .inr ⟨io, first, _, out₀ ++ msgs, happend, ?_⟩
    rw [List.append_nil]
    exact Batching.single out₀ hdone hne hreserved
  | @batch b current hroute =>
    by_cases hjoin : current.route = route ∧ b.size = bytes.length
    · obtain ⟨consumed, rfl, happend⟩ := appendPacket_join build lib io c (out₀ ++ msgs) hjoin.1 hjoin.2
      exact .inr ⟨io, consumed, _, out₀ ++ msgs, happend,
        Batching.push out₀ hdone hjoin.2 (hjoin.1.symm.trans hroute) hreserved⟩
    · -- the packet stays behind the commit, at the start of what is left of the reservation
      obtain ⟨consumed, next, hconsumed, rfl, happend⟩ :=
        appendPacket_next build lib io c (out₀ ++ msgs) hjoin
      rw [happend]
      rcases Batching.commit build out₀ (hconsumed.trans hroute) hdone hreserved with
        ⟨hto, hcommit⟩ | ⟨io', msgs', hcommit, hdone', hreserved'⟩
      · rw [hcommit]
        exact .inl ⟨rfl, (undeliverable_of_batch hto).append_right⟩
      · have hsent : (done ++ [b]).flatMap Batch.sent = done.flatMap Batch.sent ++ b.sent := by
          rw [List.flatMap_append, List.flatMap_singleton]
        rw [hcommit, ← hsent]
        exact .inr ⟨io', next, _, out₀ ++ msgs', rfl, Batching.single out₀ hdone' hne hreserved'⟩

theorem appendEntries_hold (h : Batching out₀ sent (bytes.length + space) io path packet out)
    (route : Route) : ∀ entry ∈ io.appendEntries path packet bytes route, entry.Holds := by
  obtain ⟨done, msgs, held, -, -, hheld, -, -, hreserved⟩ := h
  intro entry hmem
  unfold appendEntries at hmem
  split at hmem
  · exact absurd hmem List.not_mem_nil
  · next hjoin =>
    cases hheld with
    | nothing => exact absurd ⟨rfl, .inl rfl⟩ hjoin
    | batch b hroute =>
      have hspace : (b.pending.written ++ bytes).length + space =
          b.pending.written.length + (bytes.length + space) := by
        rw [List.length_append, Nat.add_assoc]
      rw [← hspace] at hreserved
      exact commitEntries_hold hreserved entry hmem

theorem sentOf_commitEntries (io : Io) (packet : PendingPacket) (expected : Nat) :
    sentOf (io.commitEntries packet expected) = [] := by
  unfold commitEntries
  simp only
  split
  · rfl
  · cases io.buffer.reservation <;> rfl

theorem sentOf_appendEntries (io : Io) (path : Option Path) (packet : PendingPacket)
    (bytes : List UInt8) (route : Route) :
    sentOf (io.appendEntries path packet bytes route) = [] := by
  unfold appendEntries
  split
  · rfl
  · exact sentOf_commitEntries ..

theorem sentOf_finishEntries (io : Io) (path : Option Path) (packet : PendingPacket) :
    sentOf (io.finishEntries path packet) = [] := by
  cases path with
  | none => rfl
  | some _ => exact sentOf_commitEntries ..

/-! ## Whole calls -/

/-- The messages of a call, for the packets `sent`: they are batches of these packets in order. What
is lost is lost at the end, and only after an error. -/
def Batched (out₀ : List Message) (sent : List Sent) (written : Written Conn) : Prop :=
  ∃ done msgs lost, written.out = out₀ ++ msgs ∧ List.Forall₂ Batch.CarriedBy done msgs ∧
    sent = done.flatMap Batch.sent ++ lost ∧
    (∀ result, written.result = .ok result → lost = []) ∧
    (∀ e, written.result = .error e → lost = [] → sent = [])

/-- How the loop ends after the packets `sent`, with the history of the rest. -/
structure Settles (build : Build) (out₀ : List Message) (sent : List Sent) (history : List Entry)
    (result : Option (Written Conn)) : Prop where
  holds : ∀ entry ∈ history, entry.Holds
  panics : result = none → Undeliverable build (sent ++ sentOf history)
  returns : ∀ written, result = some written → Batched out₀ (sent ++ sentOf history) written

/-- The last batch is committed at the end. -/
theorem finishPending_settles (h : Batching out₀ sent space io path packet out) (c : Connection Conn)
    (result : Write) :
    Settles build out₀ sent (io.finishEntries path packet)
      (finishPending build io c path packet out result) := by
  have hsent : sent ++ sentOf (io.finishEntries path packet) = sent := by
    rw [sentOf_finishEntries, List.append_nil]
  obtain ⟨done, msgs, held, rfl, hdone, hheld, -, rfl, hreserved⟩ := h
  cases hheld with
  | nothing =>
    refine ⟨fun entry hmem => absurd hmem List.not_mem_nil, (fun h => by cases h), fun written h => ?_⟩
    rw [hsent]
    cases h
    exact ⟨done, msgs, [], rfl, hdone, rfl, fun _ _ => rfl, fun e h => (by cases h)⟩
  | @batch b current hroute =>
    have hrest : b.pending = { b.pending with written := b.pending.written ++ [] } := by
      rw [List.append_nil]
    have hreserved : io.Reserved ((b.pending.written ++ []).length + space) := by
      rw [List.append_nil]
      exact hreserved
    have hcommitted := Batching.commit build out₀ hroute hdone hreserved
    rw [← hrest] at hcommitted
    refine ⟨fun entry hmem => ?_, fun h => ?_, fun written h => ?_⟩
    · refine commitEntries_hold hreserved entry ?_
      rw [← hrest]
      exact hmem
    · rcases hcommitted with ⟨hto, -⟩ | ⟨io', msgs', hcommit, -, -⟩
      · rw [hsent]
        exact (undeliverable_of_batch hto).append_right
      · simp [finishPending, hcommit] at h
    · rw [hsent]
      rcases hcommitted with ⟨-, hcommit⟩ | ⟨io', msgs', hcommit, hdone', -⟩
      · simp [finishPending, hcommit] at h
      · simp only [finishPending, hcommit, Option.map_some, Option.some.injEq] at h
        subst h
        refine ⟨done ++ [b], msgs', [], rfl, hdone', ?_, fun _ _ => rfl, fun e h => (by cases h)⟩
        rw [List.flatMap_append, List.flatMap_singleton, List.append_nil]

/-- An error leaves the last batch behind. -/
theorem error_settles (h : Batching out₀ sent space io path packet out) (io' : Io)
    (c : Connection Conn) (e : QuicheError) :
    Settles build out₀ sent [] (some { io := io', connection := c, out, result := .error e }) := by
  obtain ⟨done, msgs, held, rfl, hdone, -, hheld, rfl, -⟩ := h
  refine ⟨fun entry hmem => absurd hmem List.not_mem_nil, (fun h => by cases h), fun written h => ?_⟩
  cases h
  refine ⟨done, msgs, held, rfl, hdone, List.append_nil _, fun _ h => (by cases h), fun _ _ hlost => ?_⟩
  rw [hheld hlost, hlost]
  rfl

/-- What follows a packet, with the packet in front. -/
theorem Settles.sent_cons {sent' : Sent} {entries history : List Entry}
    {result : Option (Written Conn)} (hentries : ∀ entry ∈ entries, entry.Holds)
    (hnil : sentOf entries = []) (h : Settles build out₀ (sent ++ [sent']) history result) :
    Settles build out₀ sent (.sent sent' :: (entries ++ history)) result := by
  have hsent : sent ++ sentOf (.sent sent' :: (entries ++ history)) =
      sent ++ [sent'] ++ sentOf history := by
    rw [sentOf, sentOf_append, hnil, List.nil_append, List.append_assoc, List.singleton_append]
  refine ⟨fun entry hmem => ?_, ?_, ?_⟩
  · rcases List.mem_cons.mp hmem with rfl | hmem
    · trivial
    · rcases List.mem_append.mp hmem with hmem | hmem
      · exact hentries entry hmem
      · exact h.holds entry hmem
  · rw [hsent]
    exact h.panics
  · rw [hsent]
    exact h.returns

/-- The loop, by induction on its fuel: there is more of it than space in the reservation, and every
packet takes some of the space. -/
theorem writePendingLoop_settles (hlib : lib.Fits) (now : Instant) {fuel : Nat} (hfuel : space < fuel)
    (c : Connection Conn) (h : Batching out₀ sent space io path packet out) :
    Settles build out₀ sent (historyLoop build lib now fuel io c path packet out)
      (writePendingLoop build lib now fuel io c path packet out) := by
  induction fuel generalizing sent space io c path packet out with
  | zero => exact absurd hfuel (Nat.not_lt_zero space)
  | succ fuel ih =>
    rw [historyLoop, writePendingLoop]
    split
    · exact finishPending_settles h c .quantum
    · cases hrelease : c.getNextReleaseTime lib now with
      | some releaseTime => exact finishPending_settles h c (.pacer releaseTime)
      | none =>
        have hreserved := h
        obtain ⟨-, -, -, -, -, -, -, -, r, hr, -, -, hlen⟩ := hreserved
        have hfits : ¬ r.len < packet.written.length := by omega
        have hspace : r.len - packet.written.length = space := by omega
        rw [hr]
        simp only [if_neg hfits, hspace]
        cases hsend : lib.send c.inner space with
        | mk inner result =>
          cases result with
          | error e =>
            -- `Done` and `BufferTooShort` leave the loop by `break`
            by_cases hdone : e = .done
            · subst hdone
              exact finishPending_settles h { c with inner } .complete
            · by_cases hshort : e = .bufferTooShort
              · subst hshort
                exact finishPending_settles h { c with inner } .bufferTooShort
              · cases e <;> first
                  | exact absurd rfl hdone
                  | exact absurd rfl hshort
                  | exact error_settles h _ _ _
          | ok produced =>
            obtain ⟨bytes, route⟩ := produced
            cases bytes with
            | nil => exact finishPending_settles h { c with inner } .complete
            | cons byte bytes =>
              have hle : (byte :: bytes).length ≤ space := hlib _ _ _ _ _ hsend
              have hpos : 0 < (byte :: bytes).length := Nat.zero_lt_succ _
              -- the packet takes its bytes from the space that is left
              obtain ⟨space, rfl⟩ := Nat.exists_eq_add_of_le hle
              have hhold := appendEntries_hold h route
              refine Settles.sent_cons hhold (sentOf_appendEntries ..) ?_
              rcases appendPacket_batching build lib h { c with inner } (List.cons_ne_nil _ _)
                route with ⟨hnone, hto⟩ | ⟨io', path', packet', out', happend, hnext⟩
              · simp only [hnone]
                refine ⟨fun entry hmem => absurd hmem List.not_mem_nil, fun _ => ?_,
                  fun written h => (by cases h)⟩
                exact hto.append.append
              · simp only [happend]
                exact ih (by omega) { c with inner } hnext

end

section

variable {Conn Cfg : Type} {build : Build} {lib : Library Conn Cfg} {io io' : Io} {r : Reservation}

theorem Available.batching (h : io.Available io' r) (out : List Message) :
    Batching out [] r.len io' none { written := [], segmentCount := 0, segmentSize := 0 } out := by
  refine ⟨[], [], [], (List.append_nil out).symm, .nil, .nothing, fun _ => rfl, rfl, ?_⟩
  rw [List.length_nil, Nat.zero_add]
  exact h.reserved

theorem writePending_settles (build : Build) (hlib : lib.Fits) (h : io.Available io' r) (c : Connection Conn)
    (out : List Message) (now : Instant) :
    Settles build out [] (io.history build lib c out now) (io.writePending build lib c out now) := by
  rw [history, writePending, h.reserve]
  exact writePendingLoop_settles hlib now (by omega) c (h.batching out)

/-- **Batching is lossless and keeps paths apart.** No commit exceeds the reservation, the assertions
on `reserve_offset` hold, and a panic is due to a packet without a destination or, in a debug build, to
one from one address family to the other; when the call returns `Ok`, its messages carry batches that
are, one after the other, the packets of `connection.send`. -/
theorem writePending_batches (build : Build) (hlib : lib.Fits) (h : io.Available io' r) (c : Connection Conn)
    (out : List Message) (now : Instant) :
    (∀ entry ∈ io.history build lib c out now, entry.Holds) ∧
    (io.writePending build lib c out now = none → Undeliverable build (io.produced build lib c out now)) ∧
    ∀ written result, io.writePending build lib c out now = some written → written.result = .ok result →
      ∃ batches msgs, written.out = out ++ msgs ∧ List.Forall₂ Batch.CarriedBy batches msgs ∧
        batches.flatMap Batch.sent = io.produced build lib c out now := by
  have hsettles := writePending_settles build hlib h c out now
  refine ⟨hsettles.holds, hsettles.panics, fun written result hwrite hok => ?_⟩
  obtain ⟨done, msgs, lost, hout, hdone, hsent, hlost, -⟩ := hsettles.returns written hwrite
  refine ⟨done, msgs, hout, hdone, ?_⟩
  rw [hlost result hok, List.append_nil] at hsent
  exact hsent.symm

end

end Io

/-! ## Errors -/

/-- The datagram that a packet has to become. -/
def Sent.datagram (packet : Sent) : Datagram where
  fromAddr := packet.route.source.ip
  toAddr := packet.route.destination
  ecn := .nEct
  payload := packet.bytes

theorem Batch.CarriedBy.datagrams {b : Batch} {msg : Message} (h : b.CarriedBy msg) :
    msg.datagrams = b.sent.map Sent.datagram := by
  unfold SendMsg.datagrams Batch.sent
  rw [h.segments, h.fromAddr, h.toAddr, h.ecn, List.map_map]
  rfl

theorem datagrams_of_carried {batches : List Batch} {msgs : List Message}
    (h : List.Forall₂ Batch.CarriedBy batches msgs) :
    msgs.flatMap SendMsg.datagrams = (batches.flatMap Batch.sent).map Sent.datagram := by
  induction h with
  | nil => rfl
  | cons hcarried _ ih =>
    rw [List.flatMap_cons, List.flatMap_cons, hcarried.datagrams, ih, List.map_append]

namespace Io

section

variable {Conn Cfg : Type} {build : Build} {lib : Library Conn Cfg} {io io' : Io} {r : Reservation}

/-- The packets of a call are in the messages that it has pushed, in order. -/
def Keeps (produced : List Sent) (out : List Message) (written : Written Conn) : Prop :=
  ∃ msgs, written.out = out ++ msgs ∧
    (produced.map Sent.datagram).Sublist (msgs.flatMap SendMsg.datagrams)

/-- After an error the packets are kept if there are none: the last one is always lost. -/
theorem keeps_iff_nil (hlib : lib.Fits) (h : io.Available io' r) {c : Connection Conn}
    {out : List Message} {now : Instant} {written : Written Conn} {e : QuicheError}
    (hwrite : io.writePending build lib c out now = some written) (herr : written.result = .error e) :
    Keeps (io.produced build lib c out now) out written ↔ io.produced build lib c out now = [] := by
  obtain ⟨done, msgs, lost, hout, hdone, hsent, -, hlost⟩ :=
    (writePending_settles build hlib h c out now).returns written hwrite
  rw [List.nil_append] at hsent hlost
  constructor
  · rintro ⟨msgs', hout', hsublist⟩
    obtain rfl : msgs' = msgs := List.append_cancel_left (hout'.symm.trans hout)
    refine hlost e herr (List.length_eq_zero_iff.mp ?_)
    have hle := hsublist.length_le
    rw [datagrams_of_carried hdone, List.length_map, List.length_map] at hle
    have hlength := congrArg List.length hsent
    rw [List.length_append] at hlength
    unfold produced at hle
    omega
  · intro hnil
    refine ⟨msgs, hout, ?_⟩
    rw [hnil]
    exact List.nil_sublist _

/-- The first iteration: the packets of a call that fails start with the first `connection.send`. -/
theorem produced_eq_nil_iff (h : io.Available io' r) {c : Connection Conn}
    {out : List Message} {now : Instant} {written : Written Conn} {e : QuicheError}
    (hwrite : io.writePending build lib c out now = some written) (herr : written.result = .error e) :
    io.produced build lib c out now = [] ↔ ∀ packet, (lib.send c.inner r.len).2 ≠ .ok packet := by
  unfold produced history
  unfold writePending at hwrite
  rw [h.reserve] at hwrite ⊢
  simp only at hwrite ⊢
  rw [writePendingLoop] at hwrite
  rw [historyLoop]
  -- `finishPending` does not return an error
  have hfinish : ∀ c result, finishPending build io' c none ⟨[], 0, 0⟩ out result ≠ some written := by
    intro c result hfinish
    cases hfinish
    cases herr
  have hreservation : io'.buffer.reservation = some r := reserve_reservation h.reserve
  cases hrelease : c.getNextReleaseTime lib now with
  | some releaseTime =>
    rw [hrelease] at hwrite
    exact absurd hwrite (hfinish c _)
  | none =>
    rw [hrelease, hreservation] at hwrite
    rw [hreservation]
    simp only [Option.any_none, Bool.false_eq_true, if_false, List.length_nil, Nat.not_lt_zero,
      Nat.sub_zero] at hwrite ⊢
    cases hsend : lib.send c.inner r.len with
    | mk inner result =>
      rw [hsend] at hwrite
      cases result with
      | error e' =>
        refine ⟨fun _ packet heq => (by cases heq), fun _ => ?_⟩
        by_cases hdone : e' = .done
        · subst hdone
          exact absurd hwrite (hfinish _ _)
        · by_cases hshort : e' = .bufferTooShort
          · subst hshort
            exact absurd hwrite (hfinish _ _)
          · cases e' <;> first
              | exact absurd rfl hdone
              | exact absurd rfl hshort
              | rfl
      | ok packet =>
        refine ⟨fun hnil => ?_, fun hall => absurd rfl (hall packet)⟩
        obtain ⟨bytes, route⟩ := packet
        cases bytes with
        | nil => exact absurd hwrite (hfinish _ _)
        | cons byte bytes => cases hnil

/-- **An error keeps the packets before it exactly if there are none**: the first `connection.send` is
the one that fails. -/
theorem keeps_iff (hlib : lib.Fits) (h : io.Available io' r) {c : Connection Conn}
    {out : List Message} {now : Instant} {written : Written Conn} {e : QuicheError}
    (hwrite : io.writePending build lib c out now = some written) (herr : written.result = .error e) :
    Keeps (io.produced build lib c out now) out written ↔
      ∀ packet, (lib.send c.inner r.len).2 ≠ .ok packet :=
  (keeps_iff_nil hlib h hwrite herr).trans (produced_eq_nil_iff h hwrite herr)

end

end Io

/-! ## Two calls -/

/-- Connections whose id lists the sizes of their packets. Packets of ten bytes and more go to another
peer; a zero is a failure. -/
def scriptLibrary : Library IdleConnection Unit :=
  { idleLibrary with
    send c len :=
      match c.scid with
      | [] => (c, .error .done)
      | size :: rest =>
        if size = 0 then (c, .error .cryptoFail)
        else if len < size.toNat then (c, .error .bufferTooShort)
        else
          ({ c with scid := rest }, .ok (List.replicate size.toNat size,
            ⟨⟨.localhost, 443⟩, ⟨.localhost, if size < 10 then 443 else 444⟩⟩))
    sendQuantumOnPath _ _ _ := 1000 }

theorem scriptLibrary_fits : scriptLibrary.Fits := by
  intro c len c' bytes route h
  unfold scriptLibrary at h
  simp only at h
  split at h
  · cases h
  · split at h
    · cases h
    · split at h
      · cases h
      · next hlen =>
        cases h
        rw [List.length_replicate]
        exact Nat.le_of_not_lt hlen

/-- A buffer of 100 bytes. -/
def freshIo : Io where
  buffer :=
    { inner :=
        { length := 100, aStart := 0, aEnd := 0, bStart := 0, bEnd := 0, reserved := false
          commitIdSequence := 0, decommitNextId := 1, decommitTombstones := [] }
      reservation := none
      commits := [] }

/-- The buffer with all of it reserved. -/
def fullIo : Io where
  buffer :=
    { inner := { freshIo.buffer.inner with reserved := true }
      reservation := some ⟨0, 100, .A⟩
      commits := [] }

theorem freshIo_available : freshIo.Available fullIo ⟨0, 100, .A⟩ where
  reserve := by decide +kernel
  le := by decide
  lt := by decide +kernel

/-- A connection with this script. -/
def scripted (script : List UInt8) : Connection IdleConnection :=
  .new scriptLibrary { scid := script, closed := false } true

/-- Four packets make three messages: the third is shorter, and the fourth is for another peer. -/
theorem writePending_batches_three :
    ∃ written batches msgs,
      freshIo.writePending .debug scriptLibrary (scripted [3, 3, 2, 10]) [] .zero = some written ∧
      written.out = [] ++ msgs ∧ List.Forall₂ Batch.CarriedBy batches msgs ∧
      batches.flatMap Batch.sent =
        freshIo.produced .debug scriptLibrary (scripted [3, 3, 2, 10]) [] .zero ∧
      msgs.map (·.segmentCount) = [2, 1, 1] := by
  have hrun : ((freshIo.writePending .debug scriptLibrary (scripted [3, 3, 2, 10]) [] .zero).map
      fun written => (written.result.toOption.isSome, written.out.map (·.segmentCount))) =
        some (true, [2, 1, 1]) := by
    decide +kernel
  obtain ⟨written, hwrite, hwritten⟩ := Option.map_eq_some_iff.mp hrun
  obtain ⟨hok, hcounts⟩ := Prod.mk.inj hwritten
  cases hresult : written.result with
  | error e =>
    rw [hresult] at hok
    cases hok
  | ok result =>
    obtain ⟨batches, msgs, hout, hbatches, hsent⟩ :=
      (Io.writePending_batches .debug scriptLibrary_fits freshIo_available (scripted [3, 3, 2, 10]) []
        .zero).2.2 written result hwrite hresult
    rw [hout] at hcounts
    exact ⟨written, batches, msgs, hwrite, hout, hbatches, hsent, hcounts⟩

/-- A call that fails, and what it has produced. -/
theorem writePending_fails (script : List UInt8)
    (h : ((freshIo.writePending .debug scriptLibrary (scripted script) [] .zero).map
      fun written => written.result.toOption.isSome) = some false) :
    ∃ written e, freshIo.writePending .debug scriptLibrary (scripted script) [] .zero = some written ∧
      written.result = .error e := by
  obtain ⟨written, hwrite, hwritten⟩ := Option.map_eq_some_iff.mp h
  cases hresult : written.result with
  | error e => exact ⟨written, e, hwrite, hresult⟩
  | ok result =>
    rw [hresult] at hwritten
    cases hwritten

/-- Nothing is lost when the first packet fails. -/
theorem keeps_iff_first :
    ∃ written, freshIo.writePending .debug scriptLibrary (scripted [0]) [] .zero = some written ∧
      Io.Keeps (freshIo.produced .debug scriptLibrary (scripted [0]) [] .zero) [] written := by
  obtain ⟨written, e, hwrite, herr⟩ := writePending_fails [0] (by decide +kernel)
  refine ⟨written, hwrite,
    (Io.keeps_iff scriptLibrary_fits freshIo_available hwrite herr).mpr fun packet h => ?_⟩
  cases h

/-- **Packets are lost**: the second one fails. -/
theorem packet_lost :
    freshIo.Available fullIo ⟨0, 100, .A⟩ ∧
    ∃ written e, freshIo.writePending .debug scriptLibrary (scripted [3, 0]) [] .zero = some written ∧
      written.result = .error e ∧
      freshIo.produced .debug scriptLibrary (scripted [3, 0]) [] .zero =
        [⟨[3, 3, 3], ⟨⟨.localhost, 443⟩, ⟨.localhost, 443⟩⟩⟩] ∧
      ¬ Io.Keeps (freshIo.produced .debug scriptLibrary (scripted [3, 0]) [] .zero) [] written := by
  obtain ⟨written, e, hwrite, herr⟩ := writePending_fails [3, 0] (by decide +kernel)
  have hproduced : freshIo.produced .debug scriptLibrary (scripted [3, 0]) [] .zero =
      [⟨[3, 3, 3], ⟨⟨.localhost, 443⟩, ⟨.localhost, 443⟩⟩⟩] := by
    decide +kernel
  refine ⟨freshIo_available, written, e, hwrite, herr, hproduced, fun hkeeps => ?_⟩
  have hnil := (Io.keeps_iff_nil scriptLibrary_fits freshIo_available hwrite herr).mp hkeeps
  rw [hproduced] at hnil
  cases hnil

end Aquic.Backend.Quiche

import Aquic.Backend.Quiche.Connection
import Aquic.Backend.Token.Reset
import Aquic.Net.Types
import Aquic.Util.BipBuffer.Basic

/-!
# Output of the quiche backend

`backend/quiche/io.rs`: packets are written into a reservation of one shared bip buffer and committed
as messages. Successive packets of one size for one path become the segments of a single message.

The bytes of a message are those that were in its part of the buffer when it was committed. `none` is
a panic: a reservation in a reserved buffer, a commit beyond the reservation, a slice that starts
behind it, or a message that `SendMsg::new` rejects. What it rejects depends on the `Build`; the
assertions on `reserve_offset` are part of a history elsewhere.
-/

namespace Aquic.Backend.Quiche

open Aquic.BipBuf Aquic.Bytes Aquic.Net Aquic.Timer Aquic.Tokens

/-- A committed part of the buffer, with its bytes. -/
structure BipView where
  commit : Commit
  bytes : List UInt8
  deriving DecidableEq, Repr

instance : Buf BipView := ⟨BipView.bytes⟩

abbrev Message := SendMsg BipView

inductive Write where
  /-- Everything is done, on each path. -/
  | complete
  /-- There is a pending packet, but it is deferred. -/
  | pacer (releaseTime : Instant)
  /-- There is a pending packet, but existing ones have to be flushed first. -/
  | quantum
  /-- Insufficient amount of memory in the buffer. -/
  | bufferTooShort
  deriving DecidableEq

inductive ForceWrite where
  | complete
  | bufferTooShort
  deriving DecidableEq, Repr

structure Io where
  buffer : Bip
  deriving DecidableEq, Repr

namespace Io

/-- `BipBuffer::reserve`. -/
def reserve (io : Io) (request : Nat) (strict : Bool) : Option (Io × Option Reservation) :=
  match io.buffer.inner.reserve request strict with
  | .error _ => none
  | .ok (_, none) => some (io, none)
  | .ok (inner, some r) => some (⟨{ io.buffer with inner, reservation := some r }⟩, some r)

/-- `reserve.commit(bytes.len()).detach()`. -/
def commit (io : Io) (bytes : List UInt8) : Option (Io × BipView) := do
  let r ← io.buffer.reservation
  let (_, commit) ← io.buffer.inner.commit r bytes.length
  some (⟨io.buffer.tryCommit r bytes.length⟩, { commit, bytes })

/-- The reservation goes out of scope. -/
def dropReservation (io : Io) : Io := ⟨(io.buffer.step .dropReservation).1⟩

/-! ## `write_pending` -/

/-- The local `Packet`: `written` is the used part of the reservation. -/
structure PendingPacket where
  written : List UInt8
  segmentCount : Nat
  segmentSize : Nat
  deriving DecidableEq, Repr

/-- The local `Path`. -/
structure Path where
  route : Route
  quantum : Nat
  quantumConsumed : Nat
  deriving DecidableEq, Repr

/-- `commit_packet`. -/
def commitPacket (build : Build) (io : Io) (path : Path) (packet : PendingPacket) (out : List Message) :
    Option (Io × PendingPacket × List Message) := do
  let packetLen := packet.segmentCount * packet.segmentSize
  if packetLen = 0 then
    some (io, packet, out)
  else
    let (io, view) ← io.commit (packet.written.take packetLen)
    let msg ← SendMsg.new build view path.route.source.ip path.route.destination .nEct
      packet.segmentCount
    some (io,
      { written := packet.written.drop packetLen, segmentCount := 0, segmentSize := 0 },
      out ++ [msg])

variable {Conn Cfg : Type} (build : Build) (lib : Library Conn Cfg)

/-- What `write_pending` leaves behind, and what it returns. -/
structure Written (Conn : Type) where
  io : Io
  connection : Connection Conn
  out : List Message
  result : Except QuicheError Write

/-- The end of `write_pending`, after the loop. -/
def finishPending (io : Io) (c : Connection Conn) (path : Option Path) (packet : PendingPacket)
    (out : List Message) (result : Write) : Option (Written Conn) :=
  match path with
  | none => some { io := io.dropReservation, connection := c, out, result := .ok result }
  | some path =>
    (io.commitPacket build path packet out).map fun (io, _, out) =>
      { io := io.dropReservation, connection := c, out, result := .ok result }

/-- A packet of `bytes` was written to the reservation: it joins the segments before it, or they are
committed first. -/
def appendPacket (io : Io) (c : Connection Conn) (path : Option Path) (packet : PendingPacket)
    (out : List Message) (bytes : List UInt8) (route : Route) :
    Option (Io × Path × PendingPacket × List Message) := do
  let quantum := lib.sendQuantumOnPath c.inner route.source route.destination
  -- it is `None` on the very first packet, and never more
  let path := path.getD { route, quantum, quantumConsumed := 0 }
  let path := { path with quantumConsumed := path.quantumConsumed + bytes.length }
  let packet := { packet with written := packet.written ++ bytes }
  if path.route = route ∧ packet.segmentCount = 0 then
    some (io, path, { packet with segmentCount := 1, segmentSize := bytes.length }, out)
  else if path.route = route ∧ packet.segmentSize = bytes.length then
    some (io, path, { packet with segmentCount := packet.segmentCount + 1 }, out)
  else
    let (io, packet, out) ← io.commitPacket build path packet out
    let path :=
      if path.route = route then path
      else { route, quantum, quantumConsumed := bytes.length }
    some (io, path, { packet with segmentCount := 1, segmentSize := bytes.length }, out)

/-- The loop of `write_pending`. Every iteration fills at least one byte of the reservation, so that
its length bounds their number. -/
def writePendingLoop (now : Instant) : Nat → Io → Connection Conn → Option Path → PendingPacket →
    List Message → Option (Written Conn)
  | 0, _, _, _, _, _ => none
  | fuel + 1, io, c, path, packet, out =>
    if path.any (fun p => p.quantum ≤ p.quantumConsumed) then
      finishPending build io c path packet out .quantum
    else
      match c.getNextReleaseTime lib now, io.buffer.reservation with
      | some releaseTime, _ => finishPending build io c path packet out (.pacer releaseTime)
      | none, none => none
      | none, some r =>
        if r.len < packet.written.length then
          none
        else
          match lib.send c.inner (r.len - packet.written.length) with
          | (inner, .error .done) => finishPending build io { c with inner } path packet out .complete
          | (inner, .error .bufferTooShort) =>
            finishPending build io { c with inner } path packet out .bufferTooShort
          | (inner, .error e) =>
            some { io := io.dropReservation, connection := { c with inner }, out, result := .error e }
          | (inner, .ok ([], _)) => finishPending build io { c with inner } path packet out .complete
          | (inner, .ok (bytes, route)) =>
            match appendPacket build lib io { c with inner } path packet out bytes route with
            | none => none
            | some (io, path, packet, out) =>
              writePendingLoop now fuel io { c with inner } (some path) packet out

/-- `write_pending`. -/
def writePending (io : Io) (c : Connection Conn) (out : List Message) (now : Instant) :
    Option (Written Conn) :=
  match io.reserve (2 ^ Word.usizeBits - 1) false with
  | none => none
  | some (io, none) => some { io, connection := c, out, result := .ok .bufferTooShort }
  | some (io, some r) =>
    writePendingLoop build lib now (r.len + 2) io c none
      { written := [], segmentCount := 0, segmentSize := 0 } out

variable {build lib}

theorem finishPending_connection {io : Io} {c : Connection Conn} {path : Option Path}
    {packet : PendingPacket} {out : List Message} {result : Write} {written : Written Conn}
    (h : finishPending build io c path packet out result = some written) : written.connection = c := by
  unfold finishPending at h
  split at h
  · cases h
    rfl
  · obtain ⟨_, -, rfl⟩ := Option.map_eq_some_iff.mp h
    rfl

theorem writePendingLoop_connection {now : Instant} {fuel : Nat} {io : Io} {c : Connection Conn}
    {path : Option Path} {packet : PendingPacket} {out : List Message} {written : Written Conn}
    (h : writePendingLoop build lib now fuel io c path packet out = some written) :
    ∃ inner, written.connection = { c with inner } := by
  induction fuel generalizing io c path packet out with
  | zero => cases h
  | succ fuel ih =>
    unfold writePendingLoop at h
    split at h
    · exact ⟨c.inner, finishPending_connection h⟩
    · split at h
      · exact ⟨c.inner, finishPending_connection h⟩
      · cases h
      · split at h
        · cases h
        · -- the results of `connection.send`: nothing more, no space, an error, no bytes, a packet
          split at h
          · exact ⟨_, finishPending_connection h⟩
          · exact ⟨_, finishPending_connection h⟩
          · cases h
            exact ⟨_, rfl⟩
          · exact ⟨_, finishPending_connection h⟩
          · split at h
            · cases h
            · obtain ⟨inner, hinner⟩ := ih h
              exact ⟨inner, hinner⟩

/-- **`write_pending`** changes nothing of a connection but quiche's part. -/
theorem writePending_connection {io : Io} {c : Connection Conn} {out : List Message}
    {now : Instant} {written : Written Conn} (h : io.writePending build lib c out now = some written) :
    ∃ inner, written.connection = { c with inner } := by
  unfold writePending at h
  split at h
  · cases h
  · cases h
    exact ⟨c.inner, rfl⟩
  · exact writePendingLoop_connection h

/-! ## Single packets -/

variable (build lib)

/-- `to_force_write_result`. -/
def toForceWriteResult (io : Io) (peerPacket : Packet) (result : Except QuicheError (List UInt8))
    (out : List Message) : Option (Io × List Message × Except QuicheError ForceWrite) :=
  match result with
  | .ok bytes => do
    let (io, view) ← io.commit bytes
    let msg ← SendMsg.new build view peerPacket.toAddr peerPacket.fromAddr .nEct 0
    some (io.dropReservation, out ++ [msg], .ok .complete)
  | .error .bufferTooShort => some (io.dropReservation, out, .ok .bufferTooShort)
  | .error e => some (io.dropReservation, out, .error e)

/-- `write_version_negotiation`. -/
def writeVersionNegotiation (io : Io) (header : Header) (packet : Packet) (out : List Message) :
    Option (Io × List Message × Except QuicheError ForceWrite) := do
  match ← io.reserve 1500 false with
  | (io, none) => some (io, out, .ok .bufferTooShort)
  | (io, some r) =>
    io.toForceWriteResult build packet (lib.negotiateVersion header.scid header.dcid r.len) out

/-- `write_retry`. -/
def writeRetry (io : Io) (header : Header) (packet : Packet) (newScid token : List UInt8)
    (out : List Message) : Option (Io × List Message × Except QuicheError ForceWrite) := do
  match ← io.reserve 1500 false with
  | (io, none) => some (io, out, .ok .bufferTooShort)
  | (io, some r) =>
    io.toForceWriteResult build packet
      (lib.retry header.scid header.dcid newScid token header.version r.len) out

/-- `write_stateless_reset`. -/
def writeStatelessReset (io : Io) (rng : Rng) (packet : Packet) (resetToken : Vector UInt8 16)
    (out : List Message) : Option (Io × Rng × List Message) := do
  match ← io.reserve 40 true with
  | (io, none) => some (io, rng, out)
  | (io, some r) =>
    match writeStatelessResetPacket rng packet.payload.length r.len resetToken r.len with
    | (rng, none) => some (io.dropReservation, rng, out)
    | (rng, some bytes) =>
      let (io, view) ← io.commit bytes
      let msg ← SendMsg.new build view packet.toAddr packet.fromAddr .nEct 0
      some (io.dropReservation, rng, out ++ [msg])

end Io

end Aquic.Backend.Quiche

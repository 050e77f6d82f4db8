import Aquic.Backend.Quinn.Connection
import Aquic.Net.Types

/-!
# Sending packets with the quinn backend

`backend/quinn/mod.rs` and `backend/quinn/io.rs`: `send` and everything it calls. A packet is written
into a buffer of a pool; the buffer returns to the pool when the message that holds it is dropped.
The receiving side and the operations of the application are not modelled here.

The functions of `io.rs` take the `Build`. The backend itself is that of a release build: it calls them
as such, and `debug_panic!` does nothing.

`none` is a panic. `calls` is a history: what the loop of the current `send` has done to connections.
-/

namespace Aquic.Backend.Quinn

open Aquic.Net Aquic.Timer

/-! ## Output -/

/-- A buffer of the pool, with the bytes written to it. -/
structure VecBuf where
  bytes : List UInt8
  capacity : Nat
  deriving DecidableEq, Repr

instance : Buf VecBuf := ⟨VecBuf.bytes⟩

abbrev Message := SendMsg VecBuf

structure Io where
  /-- Capacities of the primary buffers that are not in use, the last returned one first. -/
  primaryBuffers : List Nat
  listenAddr : IpAddr
  deriving DecidableEq, Repr

/-- The conversion in `backend/quinn/shared.rs`. -/
def ecnOf : Option EcnCodepoint → Ecn
  | none => .nEct
  | some .ect0 => .ect0
  | some .ect1 => .ect1
  | some .ce => .ce

/-- The capacity after `Vec::reserve` on an empty vector. -/
def reserved (capacity additional : Nat) : Nat :=
  if capacity < additional then max (2 * capacity) additional else capacity

namespace Io

/-- `has_primary_buffer`. -/
def hasPrimaryBuffer (io : Io) : Bool := !io.primaryBuffers.isEmpty

/-- `transmit_to_msg`; the buffer has to hold whole segments. -/
def transmitToMsg (build : Build) (listenAddr : IpAddr) (transmit : Transmit) (buffer : VecBuf) :
    Option Message := do
  debugAssert build (buffer.bytes.length = transmit.size)
  let segmentCount : Option Nat :=
    match transmit.segmentSize with
    | none => some 1
    | some size =>
      if size ≠ 0 ∧ buffer.bytes.length % size = 0 then some (buffer.bytes.length / size) else none
  SendMsg.new build buffer (transmit.srcIp.getD listenAddr) transmit.destination (ecnOf transmit.ecn)
    (← segmentCount)

variable {Conn : Type} (build : Build) (lib : Library Conn)

/-- The loop of `write_pending` over the pool; `true` says that everything was written. -/
def writePendingLoop (listenAddr : IpAddr) (now : Instant) (pmtu : Nat) :
    List Nat → Conn → List Message → Option (List Nat × Conn × List Message × Bool)
  | [], c, out => some ([], c, out, false)
  | capacity :: pool, c, out =>
    let capacity := reserved capacity pmtu
    if pmtu = 0 then
      none
    else
      match lib.pollTransmit c now (capacity / pmtu) with
      | (c, none) => some (capacity :: pool, c, out, true)
      | (c, some (transmit, bytes)) =>
        match transmitToMsg build listenAddr transmit { bytes, capacity := max capacity bytes.length } with
        | none => none
        | some msg => writePendingLoop listenAddr now pmtu pool c (out ++ [msg])

/-- `write_pending`. -/
def writePending (io : Io) (c : Connection Conn) (out : List Message) (now : Instant) :
    Option (Io × Connection Conn × List Message × Bool) :=
  (writePendingLoop build lib io.listenAddr now (lib.currentMtu c.inner) io.primaryBuffers c.inner out).map
    fun (primaryBuffers, inner, out, complete) =>
      ({ io with primaryBuffers }, { c with inner }, out, complete)

end Io

/-! ## The backend -/

inductive Call where
  /-- `write_pending` was called on it. -/
  | writePending (key : ConnectionKey)
  | forget (key : ConnectionKey)
  deriving DecidableEq, Repr

structure QuinnBackend (Conn : Type) where
  connections : Connections Conn
  io : Io
  time : EventTimer QuinnConnectionId
  events : List (Event QuinnConnectionId)
  calls : List Call

namespace QuinnBackend

variable {Conn : Type} (lib : Library Conn)

def push (b : QuinnBackend Conn) (events : List (Event QuinnConnectionId)) : QuinnBackend Conn :=
  { b with events := b.events ++ events }

def log (b : QuinnBackend Conn) (call : Call) : QuinnBackend Conn :=
  { b with calls := b.calls ++ [call] }

/-- Writes a connection back. -/
def put (b : QuinnBackend Conn) (key : ConnectionKey) (c : Connection Conn) : QuinnBackend Conn :=
  { b with connections := b.connections.put key c }

def nextActive (b : QuinnBackend Conn) : QuinnBackend Conn :=
  { b with connections := b.connections.nextActive }

def peekActive (b : QuinnBackend Conn) : QuinnBackend Conn :=
  { b with connections := b.connections.peekActive }

/-- `forget_connection`. -/
def forgetConnection (b : QuinnBackend Conn) (id : QuinnConnectionId) : QuinnBackend Conn :=
  match b.connections.remove id with
  | none => b
  | some (connections, c) =>
    let (c, event) := c.getHaltEvent id.key
      (.error "close event should've been already produced".toUTF8.toList)
    let time :=
      match c.timerQuinnTimeoutKey with
      | none => b.time
      | some key => b.time.cancel key
    ({ b with connections, time }.push (event.toList.map .connection)).log (.forget id.key)

/-- `schedule_quinn_timeout(connection_id, None)`. -/
def scheduleQuinnTimeout (b : QuinnBackend Conn) (id : QuinnConnectionId) : QuinnBackend Conn :=
  match b.connections.get id with
  | none => b
  | some c =>
    match lib.pollTimeout c.inner with
    | (inner, none) => b.put id.key { c with inner }
    | (inner, some due) =>
      let (time, timerKey) := b.time.reschedule id due c.timerQuinnTimeoutKey
      { b with time }.put id.key { c with inner, timerQuinnTimeoutKey := some timerKey }

/-- One fired event of `handle_scheduled_events`. -/
def handleScheduledEvent (b : QuinnBackend Conn) (id : QuinnConnectionId) : QuinnBackend Conn :=
  match b.connections.getMarkActive id with
  | none => b
  | some (connections, c) =>
    { b with connections }.put id.key { c with inner := lib.handleTimeout c.inner b.time.clock }

/-- `handle_scheduled_events`. -/
def handleScheduledEvents (b : QuinnBackend Conn) : QuinnBackend Conn :=
  let (time, events) := b.time.popFiredEvents
  events.foldl (handleScheduledEvent lib) { b with time }

/-- The loop of `send`, with fuel for its iterations. -/
def sendLoop : Nat → QuinnBackend Conn → List Message → Option (QuinnBackend Conn × List Message)
  | 0, b, out => some (b.peekActive, out)
  | fuel + 1, b, out =>
    let b := b.peekActive
    match b.connections.active.front with
    | none => some (b, out)
    | some key =>
      match b.connections.all.get key with
      | none => some (b, out)
      | some c =>
        if b.io.hasPrimaryBuffer = false then
          some (b, out)
        else if lib.isDrained c.inner then
          sendLoop fuel (b.forgetConnection (c.id key)).nextActive out
        else
          match b.io.writePending .release lib c out b.time.clock with
          | none => none
          | some (io, c, out, complete) =>
            let b := ({ b with io }.put key c).log (.writePending key)
            if complete then
              sendLoop fuel (b.nextActive.scheduleQuinnTimeout lib (c.id key)) out
            else
              some (b, out)

/-- `send`: every iteration takes at least one key from the queue, so that its length is enough. -/
def send (b : QuinnBackend Conn) (out : List Message) : Option (QuinnBackend Conn × List Message) :=
  let b := { handleScheduledEvents lib b with calls := [] }
  sendLoop lib b.connections.active.length b out

end QuinnBackend

end Aquic.Backend.Quinn

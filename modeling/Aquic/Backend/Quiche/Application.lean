import Aquic.Backend.Error
import Aquic.Backend.Quiche.Backend
import Aquic.Backend.Quiche.Connections

/-!
# The application's side of the quiche backend

`backend/quiche/mod.rs`: connecting and closing, migration, streams and datagrams, and the runs of a
backend in which all its operations are called in any order.

An operation returns the backend together with its result. What the session cache holds for a server
is an argument of `connect`. `SlotMap` is iterated in the order of its slots, which are reused, so an
operation on all connections takes their order as an argument. Queries that change nothing
(`peer_cert_chain`, `dgram_send_max_size`, `close_ready`) are left out.
-/

namespace Aquic.Backend.Quiche

open Aquic.Bytes Aquic.Cid Aquic.Net Aquic.Stream Aquic.Timer

/-- `is_connection_open`. -/
def isConnectionOpen {Conn Cfg : Type} (lib : Library Conn Cfg) (c : Connection Conn) : Bool :=
  !lib.isDraining c.inner && !lib.isClosed c.inner

namespace QuicheBackend

variable {Conn Cfg G T : Type} (env : Env Conn Cfg G T)

/-- `get_mark_active_if(key, is_connection_open)`. -/
def getOpen (b : QuicheBackend Conn Cfg G T) (key : ConnectionKey) :
    Option (QuicheBackend Conn Cfg G T × Connection Conn) :=
  ((b.connections.get key).filter (isConnectionOpen env.quiche)).map fun c =>
    ({ b with connections := b.connections.getMarkActiveIf key (isConnectionOpen env.quiche) }, c)

/-- The keys of all connections, in some order. -/
def Lists (b : QuicheBackend Conn Cfg G T) (keys : List ConnectionKey) : Prop :=
  keys.Nodup ∧ keys.length = b.connections.all.length ∧ ∀ key ∈ keys, b.connections.all.contains key

instance (b : QuicheBackend Conn Cfg G T) (keys : List ConnectionKey) : Decidable (b.Lists keys) :=
  inferInstanceAs (Decidable (_ ∧ _ ∧ _))

/-! ## Connections -/

/-- One iteration of the loop of `close`. -/
def closeOne (err : Nat) (reason : List UInt8) (b : QuicheBackend Conn Cfg G T)
    (key : ConnectionKey) : QuicheBackend Conn Cfg G T :=
  match b.connections.getMarkActive key with
  | none => b
  | some (connections, c) =>
    { b with connections }.put key
      { c with inner := (env.quiche.close c.inner true err reason).1 }

/-- `close`. -/
def close (b : QuicheBackend Conn Cfg G T) (err : Nat) (reason : List UInt8)
    (keys : List ConnectionKey) : QuicheBackend Conn Cfg G T :=
  if b.isOpen then keys.foldl (closeOne env err reason) { b with isOpen := false } else b

/-- `connect`. -/
def connect (b : QuicheBackend Conn Cfg G T) (serverName : String) (peerAddr : SocketAddr)
    (session : Option (List UInt8)) :
    Option (QuicheBackend Conn Cfg G T × Except Error ConnectionKey) :=
  if b.isOpen = false then
    some (b, .error .closed)
  else
    match b.config.client with
    | none => some (b, .error .illegal)
    | some client =>
      let (cids, scid) := env.cids.generate b.config.connectionIdGenerator
      let (quiche, result) := env.quiche.connect client.quiche serverName scid.bytes
        (toSockAddr b.listenAddr) peerAddr
      let b :=
        { b with
          config :=
            { b.config with
              client := some { client with quiche }
              connectionIdGenerator := cids } }
      match result with
      | .error e => some (b, .error (.other (env.quiche.display e)))
      | .ok connection =>
        let c := Connection.new env.quiche connection true
        let c := session.elim c fun ticket =>
          { c with inner := env.quiche.setSession c.inner ticket }
        (b.registerNewConnection env c peerAddr).map fun (b, key) => (b, .ok key)

/-- `connection_close`. -/
def connectionClose (b : QuicheBackend Conn Cfg G T) (key : ConnectionKey) (err : Nat)
    (reason : List UInt8) : QuicheBackend Conn Cfg G T × Except Error Unit :=
  if b.isOpen = false then
    (b, .error .closed)
  else
    match b.getOpen env key with
    | none => (b, .error .unknownConnection)
    | some (b, c) =>
      match env.quiche.close c.inner true err reason with
      -- it is already closed
      | (inner, .error .done) => (b.put key { c with inner }, .error .unknownConnection)
      | (inner, .error e) => (b.put key { c with inner }, .error (.other (env.quiche.display e)))
      | (inner, .ok _) =>
        let (c, event) := { c with inner }.getCloseEvent env.quiche key
        ((b.put key c).push (event.toList.map .connection), .ok ())

/-- The first loop of `migrate_network`, over client connections: the decisions it makes, `true` for
`MarkActive` and `false` for `Forget`. -/
def migrateSources : List ConnectionKey → QuicheBackend Conn Cfg G T →
    QuicheBackend Conn Cfg G T × List (ConnectionKey × Bool)
  | [], b => (b, [])
  | key :: keys, b =>
    match (b.connections.get key).filter fun c => !env.quiche.isServer c.inner with
    | none => migrateSources keys b
    | some c =>
      match env.quiche.migrateSource c.inner (toSockAddr b.listenAddr) with
      | (inner, .ok _) =>
        let (c, event) := { c with inner }.getDgramOutSizeEvent env.quiche key
        let (b, decisions) :=
          migrateSources keys ((b.put key c).push (event.toList.map .datagram))
        (b, (key, true) :: decisions)
      | (inner, .error _) =>
        let (c, event) := { c with inner }.getHaltEvent key .migrationFailed
        let (b, decisions) :=
          migrateSources keys ((b.put key c).push (event.toList.map .connection))
        (b, (key, false) :: decisions)

/-- One iteration of the second loop of `migrate_network`. -/
def applyDecision (b : QuicheBackend Conn Cfg G T) (decision : ConnectionKey × Bool) :
    QuicheBackend Conn Cfg G T :=
  if decision.2 then b.markActive decision.1 else b.forgetConnection env decision.1

/-- `migrate_network`. -/
def migrateNetwork (b : QuicheBackend Conn Cfg G T) (newListenAddr : Option IpAddr)
    (keys : List ConnectionKey) : QuicheBackend Conn Cfg G T × Except Error Unit :=
  if b.isOpen = false then
    (b, .error .closed)
  else if newListenAddr.any IpAddr.isUnspecified then
    (b, .error .illegal)
  else
    let (b, decisions) :=
      migrateSources env keys { b with listenAddr := newListenAddr.getD b.listenAddr }
    (decisions.foldl (applyDecision env) b, .ok ())

/-! ## Streams -/

/-- `stream_recv`, for a buffer of this length: the bytes, and whether the stream is finished. -/
def streamRecv (b : QuicheBackend Conn Cfg G T) (key : ConnectionKey) (streamId : StreamId)
    (outLen : Nat) : QuicheBackend Conn Cfg G T × Except Error (List UInt8 × Bool) :=
  if b.isOpen = false then
    (b, .error .closed)
  else if streamId.isClient && streamId.isUni then
    (b, .error .illegal)
  else if outLen = 0 then
    (b, .error .bufferSize)
  else
    match b.getOpen env key with
    | none => (b, .error .unknownConnection)
    | some (b, c) =>
      let (inner, result) := env.quiche.streamRecv c.inner streamId.raw outLen
      (b.put key { c with inner },
        match result with
        | .ok result => .ok result
        | .error .done => .ok ([], false)
        | .error (.streamReset err) => .error (.streamReset err)
        | .error (.invalidStreamState _) => .error .unknownStream
        | .error (.streamStopped _) => .error .unknownStream
        | .error e => .error (.other (env.quiche.display e)))

/-- A local stream has to be opened before it is written to. -/
def isOpened (c : Connection Conn) (streamId : StreamId) : Bool :=
  env.quiche.isServer c.inner != streamId.isServer ||
    (c.getLastLocalStreamId streamId.isBidi).any fun last => streamId.raw ≤ last.raw

/-- `stream_send`: the bytes that were not written, if any. -/
def streamSend (b : QuicheBackend Conn Cfg G T) (key : ConnectionKey) (streamId : StreamId)
    (bytes : List UInt8) (fin : Bool) :
    QuicheBackend Conn Cfg G T × Except Error (Option (List UInt8)) :=
  if b.isOpen = false then
    (b, .error .closed)
  else if streamId.isServer && streamId.isUni then
    (b, .error .illegal)
  else
    match b.getOpen env key with
    | none => (b, .error .unknownConnection)
    | some (b, c) =>
      if isOpened env c streamId then
        let (inner, result) := env.quiche.streamSendZc c.inner streamId.raw bytes fin
        (b.put key { c with inner },
          match result with
          | .ok unsent => .ok unsent
          | .error .done => .ok (some bytes)
          | .error (.streamStopped err) => .error (.streamStop err)
          | .error (.invalidStreamState _) => .error .unknownStream
          | .error (.streamReset _) => .error .unknownStream
          | .error e => .error (.other (env.quiche.display e)))
      else
        (b, .error .unknownStream)

/-- `stream_open_send`. -/
def streamOpenSend (b : QuicheBackend Conn Cfg G T) (key : ConnectionKey) (bidirectional : Bool)
    (bytes : List UInt8) (fin : Bool) :
    QuicheBackend Conn Cfg G T × Except Error (StreamId × Option (List UInt8)) :=
  if b.isOpen = false then
    (b, .error .closed)
  else
    match b.getOpen env key with
    | none => (b, .error .unknownConnection)
    | some (b, c) =>
      if c.peerStreamsLeft env.quiche bidirectional = 0 then
        (b.put key (c.setStreamsExhausted bidirectional), .error .streamsExhausted)
      else
        match c.allocateStreamId bidirectional with
        | none => (b.put key (c.setStreamsExhausted bidirectional), .error .streamsExhausted)
        | some (c, streamId) =>
          let b := (b.put key c).push [.stream (.available key streamId)]
          let (b, result) := b.streamSend env key streamId bytes fin
          (b, result.map (streamId, ·))

/-- What `stream_stop_sending`, `stream_reset_sending` and `stream_set_priority` share: a change of an
open connection, for streams of the right kind. -/
def changeStream (b : QuicheBackend Conn Cfg G T) (key : ConnectionKey) (illegal : Bool)
    (change : Conn → Conn) : QuicheBackend Conn Cfg G T :=
  if b.isOpen = false || illegal then
    b
  else
    match b.getOpen env key with
    | none => b
    | some (b, c) => b.put key { c with inner := change c.inner }

/-- `stream_stop_sending`. -/
def streamStopSending (b : QuicheBackend Conn Cfg G T) (key : ConnectionKey) (streamId : StreamId)
    (err : Nat) : QuicheBackend Conn Cfg G T :=
  b.changeStream env key (streamId.isClient && streamId.isUni)
    (env.quiche.streamShutdown · streamId.raw false err)

/-- `stream_reset_sending`. -/
def streamResetSending (b : QuicheBackend Conn Cfg G T) (key : ConnectionKey)
    (streamId : StreamId) (err : Nat) : QuicheBackend Conn Cfg G T :=
  b.changeStream env key (streamId.isServer && streamId.isUni)
    (env.quiche.streamShutdown · streamId.raw true err)

/-- `stream_set_priority`. -/
def streamSetPriority (b : QuicheBackend Conn Cfg G T) (key : ConnectionKey) (streamId : StreamId)
    (priority : Priority) : QuicheBackend Conn Cfg G T :=
  b.changeStream env key (streamId.isServer && streamId.isUni)
    (env.quiche.streamPriority · streamId.raw (UInt8.ofInt (127 - priority.urgency.toInt))
      priority.incremental)

/-! ## Datagrams -/

/-- `dgram_recv_zc`, which hands the datagram to a consumer. -/
def dgramRecvZc (b : QuicheBackend Conn Cfg G T) (key : ConnectionKey) :
    QuicheBackend Conn Cfg G T × Except Error (Option (List UInt8)) :=
  if b.isOpen = false then
    (b, .error .closed)
  else
    match b.connections.get key with
    | none => (b, .error .unknownConnection)
    | some c =>
      match env.quiche.dgramRecvVec c.inner with
      | (inner, .ok datagram) => (b.put key { c with inner }, .ok (some datagram))
      | (inner, .error .done) => (b.put key { c with inner, dgramInDrained := true }, .ok none)
      | (inner, .error e) => (b.put key { c with inner }, .error (.other (env.quiche.display e)))

/-- `dgram_recv`, for a buffer of this length. -/
def dgramRecv (b : QuicheBackend Conn Cfg G T) (key : ConnectionKey) (outLen : Nat) :
    QuicheBackend Conn Cfg G T × Except Error (List UInt8) :=
  let (b, result) := b.dgramRecvZc env key
  (b, result.bind fun datagram =>
    -- a datagram that does not fit is lost
    match datagram with
    | none => .ok []
    | some datagram => if outLen < datagram.length then .error .bufferSize else .ok datagram)

/-- `dgram_send`. -/
def dgramSend (b : QuicheBackend Conn Cfg G T) (key : ConnectionKey) (bytes : List UInt8) :
    QuicheBackend Conn Cfg G T × Except Error (Option (List UInt8)) :=
  if b.isOpen = false then
    (b, .error .closed)
  else
    match b.getOpen env key with
    | none => (b, .error .unknownConnection)
    | some (b, c) =>
      match env.quiche.dgramSend c.inner bytes with
      | (inner, .ok _) => (b.put key { c with inner }, .ok none)
      | (inner, .error .done) =>
        (b.put key { c with inner, dgramOutDrained := true }, .ok (some bytes))
      | (inner, .error .bufferTooShort) => (b.put key { c with inner }, .error .bufferSize)
      | (inner, .error e) => (b.put key { c with inner }, .error (.other (env.quiche.display e)))

/-! ## Time -/

/-- `clock_update`. -/
def clockUpdate (b : QuicheBackend Conn Cfg G T) (clock : Instant) (clockSys : SystemTime) :
    QuicheBackend Conn Cfg G T :=
  { b with time := { b.time with clock }, clockSys }

/-- `tick`. -/
def tick (b : QuicheBackend Conn Cfg G T) : QuicheBackend Conn Cfg G T :=
  { b with time := b.time.tick }

end QuicheBackend

/-! ## Runs -/

/-- The operations of a run. -/
inductive Operation where
  | clockUpdate (clock : Instant) (clockSys : SystemTime)
  /-- `events().consume(..)`. -/
  | consumeEvents
  | close (err : Nat) (reason : List UInt8) (keys : List ConnectionKey)
  | connect (serverName : String) (peerAddr : SocketAddr) (session : Option (List UInt8))
  | connectionClose (key : ConnectionKey) (err : Nat) (reason : List UInt8)
  | send (out : List Message)
  | recv (inPackets : List Packet) (outMessages : List Message)
  | tick
  | migrateNetwork (newListenAddr : Option IpAddr) (keys : List ConnectionKey)
  | streamRecv (key : ConnectionKey) (streamId : StreamId) (outLen : Nat)
  | streamOpenSend (key : ConnectionKey) (bidirectional : Bool) (bytes : List UInt8) (fin : Bool)
  | streamSend (key : ConnectionKey) (streamId : StreamId) (bytes : List UInt8) (fin : Bool)
  | streamStopSending (key : ConnectionKey) (streamId : StreamId) (err : Nat)
  | streamResetSending (key : ConnectionKey) (streamId : StreamId) (err : Nat)
  | streamSetPriority (key : ConnectionKey) (streamId : StreamId) (priority : Priority)
  | dgramRecv (key : ConnectionKey) (outLen : Nat)
  | dgramRecvZc (key : ConnectionKey)
  | dgramSend (key : ConnectionKey) (bytes : List UInt8)
  /-- A message that was sent is dropped, and with it its part of the buffer. -/
  | dropMessage (i : Nat)

/-- A backend in use, and the events its owner has consumed. -/
structure Running (Conn Cfg G T : Type) where
  backend : QuicheBackend Conn Cfg G T
  consumed : List (Event ConnectionKey)

namespace Running

variable {Conn Cfg G T : Type} (env : Env Conn Cfg G T)

/-- What an operation does to the backend; `none` is a panic. -/
def call (b : QuicheBackend Conn Cfg G T) : Operation → Option (QuicheBackend Conn Cfg G T)
  | .clockUpdate clock clockSys => some (b.clockUpdate clock clockSys)
  | .consumeEvents => some { b with events := [] }
  | .close err reason keys => if b.Lists keys then some (b.close env err reason keys) else none
  | .connect serverName peerAddr session => (b.connect env serverName peerAddr session).map (·.1)
  | .connectionClose key err reason => some (b.connectionClose env key err reason).1
  | .send out => (b.send env out).map (·.1)
  | .recv inPackets outMessages => (b.recv env inPackets outMessages).map (·.1)
  | .tick => some b.tick
  | .migrateNetwork newListenAddr keys =>
    if b.Lists keys then some (b.migrateNetwork env newListenAddr keys).1 else none
  | .streamRecv key streamId outLen => some (b.streamRecv env key streamId outLen).1
  | .streamOpenSend key bidirectional bytes fin =>
    some (b.streamOpenSend env key bidirectional bytes fin).1
  | .streamSend key streamId bytes fin => some (b.streamSend env key streamId bytes fin).1
  | .streamStopSending key streamId err => some (b.streamStopSending env key streamId err)
  | .streamResetSending key streamId err => some (b.streamResetSending env key streamId err)
  | .streamSetPriority key streamId priority => some (b.streamSetPriority env key streamId priority)
  | .dgramRecv key outLen => some (b.dgramRecv env key outLen).1
  | .dgramRecvZc key => some (b.dgramRecvZc env key).1
  | .dgramSend key bytes => some (b.dgramSend env key bytes).1
  | .dropMessage i => some { b with io := ⟨(b.io.buffer.step (.dropCommit i)).1⟩ }

/-- One operation. `consume` pops the events from the back. -/
def exec (s : Running Conn Cfg G T) (op : Operation) : Option (Running Conn Cfg G T) :=
  (call env s.backend op).map fun backend =>
    { backend
      consumed :=
        match op with
        | .consumeEvents => s.consumed ++ s.backend.events.reverse
        | _ => s.consumed }

/-- A backend right after `QuicheBackend::new`. -/
def Init (s : Running Conn Cfg G T) : Prop :=
  s.consumed = [] ∧ ∃ config listenAddr clock clockSys rng,
    QuicheBackend.new config listenAddr clock clockSys rng = some s.backend

/-- A client that draws ids of eight bytes. -/
def idleClient : Option (QuicheBackend IdleConnection Unit RandomIdGenerator Unit) :=
  let rng : Rng := { draws := id, cursor := 0 }
  QuicheBackend.new
    { client := some { quiche := (), establishTimeout := none }
      server := none
      connectionIdGenerator := { length := 8, length_le := by decide, rng }
      outBufferSize := 0 }
    .localhost .zero 0 rng

theorem idleClient_init {b : QuicheBackend IdleConnection Unit RandomIdGenerator Unit}
    (h : idleClient = some b) : Init ⟨b, []⟩ := by
  unfold idleClient at h
  exact ⟨rfl, _, _, _, _, _, h⟩

theorem idleServer_init {length : Fin (maxCidLen + 1)}
    {allowUnverified : SocketAddr → Nat → Nat → Bool}
    {b : QuicheBackend IdleConnection Unit RandomIdGenerator Unit}
    (h : QuicheBackend.idleServer length allowUnverified = some b) : Init ⟨b, []⟩ := by
  unfold QuicheBackend.idleServer at h
  exact ⟨rfl, _, _, _, _, _, h⟩

end Running

end Aquic.Backend.Quiche

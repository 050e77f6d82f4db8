import Aquic.Backend.Error
import Aquic.Backend.Quinn.Backend

/-!
# Receiving, and the application's side of the quinn backend

`backend/quinn/mod.rs`: everything but `send`, and the runs of a backend in which all its operations
are called in any order.

The backend is that of a release build: `debug_assert!` and `debug_panic!` do nothing. `none` is a
panic. A loop that lasts as long as quinn goes on is given fuel, as an argument of the operation: every
run of the code is a run of the model with enough of it. Queries that change nothing
(`peer_cert_chain`, `dgram_send_max_size`, `close_ready`) are left out.
-/

namespace Aquic.Backend.Quinn

open Aquic.Net Aquic.Stream Aquic.Timer

structure Config (Cfg : Type) where
  client : Option Cfg
  server : Option Cfg

/-- `QuinnBackend` as a whole: the part that `send` works on, and the rest. -/
structure EndpointBackend (Conn End Cfg : Type) extends QuinnBackend Conn where
  config : Config Cfg
  endpoint : End
  /-- Capacities of the reserved buffers that are not in use, the last returned one first. -/
  reservedBuffers : List Nat
  isOpen : Bool
  /-- A history: connections that were dropped because their handle was handed out once more. -/
  replaced : List QuinnConnectionId

/-- The code outside the repository. -/
structure Env (Conn End Cfg Incoming Signal Report : Type) where
  quinn : Library Conn
  endpoint : EndpointLibrary Conn End Cfg Incoming Signal Report

/-- `is_connection_open`. -/
def isConnectionOpen {Conn : Type} (lib : Library Conn) (c : Connection Conn) : Bool :=
  !lib.isClosed c.inner && !lib.isDrained c.inner

/-- `u64_into_varint`. -/
def u64IntoVarint (value : Nat) : Option Nat := if value < 2 ^ 62 then some value else none

/-- The conversion in `backend/quinn/shared.rs`. -/
def codepointOf : Ecn → Option EcnCodepoint
  | .nEct => none
  | .ect1 => some .ect1
  | .ect0 => some .ect0
  | .ce => some .ce

/-! ## Events of a connection -/

/-- The event of `handle_quinn_connection_lost_event`. -/
def Connection.getLostEvent {Conn : Type} (c : Connection Conn) (key : ConnectionKey) :
    ConnectionError → Connection Conn × Option (ConnectionEvent QuinnConnectionId)
  | .versionMismatch => c.getHaltEvent key .unknownVersion
  | .transportError code reason => c.getCloseEvent key code reason.toUTF8.toList false true
  | .connectionClosed code reason => c.getCloseEvent key code reason false false
  | .applicationClosed code reason => c.getCloseEvent key code reason true false
  | .timedOut => c.getHaltEvent key .timeout
  | .reset => c.getHaltEvent key .statelessReset
  | .cidsExhausted => c.getHaltEvent key (.error "not enough CID space".toUTF8.toList)
  -- the event should have been sent by `connection_close`
  | .locallyClosed => (c, none)

namespace QuinnBackend

variable {Conn : Type} (lib : Library Conn)

/-- `handle_quinn_connection_lost_event`. -/
def handleQuinnConnectionLostEvent (b : QuinnBackend Conn) (id : QuinnConnectionId)
    (error : ConnectionError) : QuinnBackend Conn :=
  match b.connections.getMarkActive id with
  | none => b
  | some (connections, c) =>
    let (c, event) := c.getLostEvent id.key error
    let b := ({ b with connections }.put id.key c).push (event.toList.map .connection)
    if lib.isDrained c.inner then b.forgetConnection id else b

/-- `handle_quinn_stream_event`. -/
def handleQuinnStreamEvent (b : QuinnBackend Conn) (id : QuinnConnectionId)
    (event : QuinnStreamEvent) : QuinnBackend Conn :=
  match b.connections.getMarkActive id with
  | none => b
  | some (connections, c) =>
    let b := { b with connections }
    match event with
    | .opened dir =>
      match lib.acceptStream c.inner dir with
      | (inner, none) => b.put id.key { c with inner }
      | (inner, some streamId) =>
        (b.put id.key { c with inner }).push [.stream (.available id streamId)]
    | .available dir => b.push [.connection (.streamsAvailable id (dir == .bi))]
    | .readable streamId => b.push [.stream (.available id streamId)]
    | .writable streamId => b.push [.stream (.available id streamId)]
    | .finished streamId => b.push [.stream (.available id streamId)]
    | .stopped streamId code => b.push [.stream (.reset id streamId code)]

/-- One event of the polling loop of `handle_quinn_connection_event`. -/
def handleQuinnEvent (b : QuinnBackend Conn) (id : QuinnConnectionId) :
    QuinnEvent → QuinnBackend Conn
  | .connected => b.push [.connection (.established id)]
  | .connectionLost reason => b.handleQuinnConnectionLostEvent lib id reason
  | .stream event => b.handleQuinnStreamEvent lib id event
  | .datagramReceived => b.push [.datagram (.inAvailable id)]
  | .datagramsUnblocked => b.push [.datagram (.outAvailable id)]
  | .handshakeDataReady => b

/-- The polling loop of `handle_quinn_connection_event`; `false` says that the connection is gone. -/
def pollLoop (id : QuinnConnectionId) : Nat → QuinnBackend Conn → Option (QuinnBackend Conn × Bool)
  | 0, _ => none
  | fuel + 1, b =>
    match b.connections.get id with
    | none => some (b, false)
    | some c =>
      match lib.poll c.inner with
      | (inner, none) => some (b.put id.key { c with inner }, true)
      | (inner, some event) =>
        pollLoop id fuel ((b.put id.key { c with inner }).handleQuinnEvent lib id event)

/-- The end of `handle_quinn_connection_event`. -/
def settle (b : QuinnBackend Conn) (id : QuinnConnectionId) : QuinnBackend Conn :=
  match b.connections.get id with
  | none => b
  | some c =>
    if lib.isDrained c.inner then
      b.forgetConnection id
    else
      let (c, event) := c.getDgramOutSizeEvent lib id.key
      ((b.put id.key c).push (event.toList.map .datagram)).scheduleQuinnTimeout lib id

/-- The part of `handle_quinn_connection_event` that concerns the backend. -/
def drainEvents (b : QuinnBackend Conn) (id : QuinnConnectionId) (fuel : Nat) :
    Option (QuinnBackend Conn) :=
  (b.pollLoop lib id fuel).map fun (b, live) => if live then b.settle lib id else b

/-! ## What the operations on open connections share -/

/-- `get_mark_active_if(id, is_connection_open)`. -/
def getOpen (b : QuinnBackend Conn) (id : QuinnConnectionId) :
    Option (QuinnBackend Conn × Connection Conn) :=
  (b.connections.getMarkActiveIf id (isConnectionOpen lib)).map fun (connections, c) =>
    ({ b with connections }, c)

end QuinnBackend

namespace EndpointBackend

variable {Conn End Cfg Incoming Signal Report : Type}
  (env : Env Conn End Cfg Incoming Signal Report)

/-- `QuinnBackend::new`, with the buffers of `IO::new`. -/
def new (config : Config Cfg) (endpoint : End) (primaryBuffers reservedBuffers : List Nat)
    (listenAddr : IpAddr) (clock : Instant) : EndpointBackend Conn End Cfg where
  connections := .new
  io := { primaryBuffers, listenAddr }
  time := .new clock
  events := []
  calls := []
  config := config
  endpoint := endpoint
  reservedBuffers := reservedBuffers
  isOpen := true
  replaced := []

/-- `register_new_connection`. -/
def registerNewConnection (b : EndpointBackend Conn End Cfg) (key : ConnectionKey)
    (connection : Conn) : EndpointBackend Conn End Cfg × QuinnConnectionId :=
  let isServer := env.quinn.isServer connection
  let replaced := (b.connections.all.get key).toList.map (·.id key)
  let (connections, id) := b.connections.insertRaw key connection
  let backend := ({ b.toQuinnBackend with connections }.scheduleQuinnTimeout env.quinn id).push
    [.connection (.new id isServer)]
  ({ b with toQuinnBackend := backend, replaced := b.replaced ++ replaced }, id)

/-! ## `recv` -/

/-- The first loop of `handle_quinn_connection_event`: the connection handles an event, reports to the
endpoint, and the last answer of the endpoint is the next event. -/
def deliverLoop (key : ConnectionKey) : Nat → End → Conn → Signal → Option (End × Conn)
  | 0, _, _, _ => none
  | fuel + 1, endpoint, c, event =>
    let (c, reports) := env.endpoint.pollEndpointEvents (env.endpoint.deliver c event)
    let (endpoint, next) := reports.foldl
      (fun (endpoint, next) report =>
        let (endpoint, answer) := env.endpoint.handleEvent endpoint key report
        (endpoint, answer.or next))
      (endpoint, none)
    match next with
    | none => some (endpoint, c)
    | some event => deliverLoop key fuel endpoint c event

/-- `handle_quinn_connection_event`. -/
def handleQuinnConnectionEvent (b : EndpointBackend Conn End Cfg) (key : ConnectionKey)
    (event : Signal) (fuel : Nat) : Option (EndpointBackend Conn End Cfg) :=
  match b.connections.getMarkActiveRaw key with
  | none => some b
  | some (connections, c) => do
    let (endpoint, inner) ← deliverLoop env key fuel b.endpoint c.inner event
    let backend := { b.toQuinnBackend with connections }.put key { c with inner }
    let backend ← backend.drainEvents env.quinn (c.id key) fuel
    some { b with toQuinnBackend := backend, endpoint }

/-- A buffer returns to the pool. -/
def returnBuffer (b : EndpointBackend Conn End Cfg) (capacity : Nat) :
    EndpointBackend Conn End Cfg :=
  { b with reservedBuffers := capacity :: b.reservedBuffers }

/-- `write_response`, into a buffer of this capacity. -/
def writeResponse (b : EndpointBackend Conn End Cfg) (transmit : Transmit) (bytes : List UInt8)
    (capacity : Nat) (out : List Message) : Option (EndpointBackend Conn End Cfg × List Message) :=
  (Io.transmitToMsg .release b.io.listenAddr transmit { bytes, capacity := max capacity bytes.length }).map
    fun msg => (b, out ++ [msg])

/-- `handle_quinn_new_connection_event`. -/
def handleQuinnNewConnectionEvent (b : EndpointBackend Conn End Cfg) (incoming : Incoming)
    (capacity : Nat) (out : List Message) :
    Option (EndpointBackend Conn End Cfg × List Message) :=
  match b.config.server with
  | none =>
    some ({ b with endpoint := env.endpoint.ignore b.endpoint incoming }.returnBuffer capacity, out)
  | some server =>
    if env.endpoint.remoteAddressValidated incoming = false then
      match env.endpoint.retry b.endpoint incoming with
      | (endpoint, .ok (transmit, bytes)) =>
        { b with endpoint }.writeResponse transmit bytes capacity out
      | (endpoint, .error incoming) =>
        some ({ b with endpoint := env.endpoint.ignore endpoint incoming }.returnBuffer capacity, out)
    else
      match env.endpoint.accept b.endpoint incoming b.time.clock server with
      | (endpoint, .ok (key, connection)) =>
        some (({ b with endpoint }.registerNewConnection env key connection).1.returnBuffer capacity,
          out)
      | (endpoint, .error (some (transmit, bytes))) =>
        { b with endpoint }.writeResponse transmit bytes capacity out
      | (endpoint, .error none) => some ({ b with endpoint }.returnBuffer capacity, out)

/-- `handle_quinn_datagram_event`, with an empty buffer of this capacity. -/
def handleQuinnDatagramEvent (b : EndpointBackend Conn End Cfg)
    (event : QuinnDatagramEvent Incoming Signal) (capacity : Nat) (out : List Message)
    (fuel : Nat) : Option (EndpointBackend Conn End Cfg × List Message) :=
  match event with
  | .connectionEvent key event =>
    (b.handleQuinnConnectionEvent env key event fuel).map fun b => (b.returnBuffer capacity, out)
  | .response transmit => b.writeResponse transmit [] capacity out
  | .newConnection incoming => b.handleQuinnNewConnectionEvent env incoming capacity out

/-- The loop of `recv`: the backend, the packets that were not consumed, and the messages. -/
def recvLoop (fuel : Nat) : List Packet → EndpointBackend Conn End Cfg → List Message →
    Option (EndpointBackend Conn End Cfg × List Packet × List Message)
  | [], b, out => some (b, [], out)
  | packet :: packets, b, out =>
    match b.reservedBuffers with
    | [] => some (b, packet :: packets, out)
    | capacity :: reservedBuffers =>
      let (endpoint, event, bytes) := env.endpoint.handle b.endpoint b.time.clock packet.fromAddr
        packet.toAddr (codepointOf packet.ecn) packet.payload
      let capacity := max capacity bytes.length
      let b := { b with endpoint, reservedBuffers }
      match event with
      | none => recvLoop fuel packets (b.returnBuffer capacity) out
      | some event =>
        -- the buffer is cleared before the event is handled
        match b.handleQuinnDatagramEvent env event capacity out fuel with
        | none => none
        | some (b, out) => recvLoop fuel packets b out

/-- `recv`. -/
def recv (b : EndpointBackend Conn End Cfg) (inPackets : List Packet) (outMessages : List Message)
    (fuel : Nat) : Option (EndpointBackend Conn End Cfg × List Packet × List Message) :=
  recvLoop env fuel inPackets b outMessages

/-! ## Connections -/

/-- One iteration of the loop of `close`. -/
def closeOne (err : Nat) (reason : List UInt8) (b : EndpointBackend Conn End Cfg)
    (key : ConnectionKey) : Option (EndpointBackend Conn End Cfg) :=
  match b.connections.getMarkActiveRaw key with
  | none => some b
  | some (connections, c) =>
    (u64IntoVarint err).map fun code =>
      { b with
        toQuinnBackend := { b.toQuinnBackend with connections }.put key
          { c with inner := env.quinn.close c.inner b.time.clock code reason } }

/-- `close`. -/
def close (b : EndpointBackend Conn End Cfg) (err : Nat) (reason : List UInt8) :
    Option (EndpointBackend Conn End Cfg) :=
  if b.isOpen then b.connections.keys.foldlM (closeOne env err reason) { b with isOpen := false }
  else some b

/-- `connect`. -/
def connect (b : EndpointBackend Conn End Cfg) (serverName : String) (peerAddr : SocketAddr) :
    EndpointBackend Conn End Cfg × Except Error QuinnConnectionId :=
  if b.isOpen = false then
    (b, .error .closed)
  else
    match b.config.client with
    | none => (b, .error .illegal)
    | some client =>
      match env.endpoint.connect b.endpoint b.time.clock client peerAddr serverName with
      | (endpoint, .error e) => ({ b with endpoint }, .error (.other e))
      | (endpoint, .ok (key, connection)) =>
        let (b, id) := { b with endpoint }.registerNewConnection env key connection
        (b, .ok id)

/-- `connection_close`. -/
def connectionClose (b : EndpointBackend Conn End Cfg) (id : QuinnConnectionId) (err : Nat)
    (reason : List UInt8) : Option (EndpointBackend Conn End Cfg × Except Error Unit) :=
  if b.isOpen = false then
    some (b, .error .closed)
  else
    match b.getOpen env.quinn id with
    | none => some (b, .error .unknownConnection)
    | some (backend, c) =>
      (u64IntoVarint err).map fun code =>
        let c := { c with inner := env.quinn.close c.inner b.time.clock code reason }
        let (c, event) := c.getCloseEvent id.key err reason true true
        ({ b with
            toQuinnBackend := (backend.put id.key c).push (event.toList.map .connection) }, .ok ())

/-- One iteration of the loop of `migrate_network`. -/
def migrateOne (b : EndpointBackend Conn End Cfg) (key : ConnectionKey) :
    EndpointBackend Conn End Cfg :=
  match b.connections.getMarkActiveRaw key with
  | none => b
  | some (connections, c) =>
    let inner := env.quinn.pathChanged (env.quinn.localAddressChanged c.inner) b.time.clock
    let (c, event) := { c with inner }.getDgramOutSizeEvent env.quinn key
    { b with
      toQuinnBackend :=
        ({ b.toQuinnBackend with connections }.put key c).push (event.toList.map .datagram) }

/-- `migrate_network`. -/
def migrateNetwork (b : EndpointBackend Conn End Cfg) (newListenAddr : Option IpAddr) :
    EndpointBackend Conn End Cfg × Except Error Unit :=
  if b.isOpen = false then
    (b, .error .closed)
  else if newListenAddr.any IpAddr.isUnspecified then
    (b, .error .illegal)
  else
    let b := { b with io := { b.io with listenAddr := newListenAddr.getD b.io.listenAddr } }
    (b.connections.keys.foldl (migrateOne env) b, .ok ())

/-! ## Streams -/

/-- The loop of `stream_recv` for a buffer of this length, after `offset` bytes. A chunk is copied to
`out[offset..chunk.bytes.len()]`, so that only the first one fits. -/
def readLoop (streamId : StreamId) (outLen : Nat) :
    Nat → Conn → List UInt8 → Option (Conn × Except Error (List UInt8 × Bool))
  | 0, _, _ => none
  | fuel + 1, c, read =>
    if outLen ≤ read.length then
      some (c, .ok (read, false))
    else
      match env.quinn.nextChunk c streamId (outLen - read.length) with
      | (c, .ok (some bytes)) =>
        if read = [] ∧ bytes.length ≤ outLen then readLoop streamId outLen fuel c bytes else none
      | (c, .ok none) => some (c, .ok (read, true))
      | (c, .error .blocked) => some (c, .ok (read, false))
      | (c, .error (.reset code)) => some (c, .error (.streamReset code))

/-- `stream_recv`, for a buffer of this length: the bytes, and whether the stream is finished. -/
def streamRecv (b : EndpointBackend Conn End Cfg) (id : QuinnConnectionId) (streamId : StreamId)
    (outLen fuel : Nat) :
    Option (EndpointBackend Conn End Cfg × Except Error (List UInt8 × Bool)) :=
  if b.isOpen = false then
    some (b, .error .closed)
  else if streamId.isClient && streamId.isUni then
    some (b, .error .illegal)
  else if outLen = 0 then
    some (b, .error .bufferSize)
  else
    match b.getOpen env.quinn id with
    | none => some (b, .error .unknownConnection)
    | some (backend, c) =>
      match env.quinn.readStream c.inner streamId with
      | (inner, .error .closedStream) =>
        some ({ b with toQuinnBackend := backend.put id.key { c with inner } }, .error .unknownStream)
      | (inner, .error .illegalOrderedRead) =>
        some ({ b with toQuinnBackend := backend.put id.key { c with inner } },
          .error (.other (env.quinn.display .illegalOrderedRead)))
      | (inner, .ok _) =>
        (readLoop env streamId outLen fuel inner []).map fun (inner, result) =>
          ({ b with toQuinnBackend := backend.put id.key { c with inner } }, result)

/-- `stream_send`: the bytes that were not written, if any. -/
def streamSend (b : EndpointBackend Conn End Cfg) (id : QuinnConnectionId) (streamId : StreamId)
    (bytes : List UInt8) (fin : Bool) :
    EndpointBackend Conn End Cfg × Except Error (Option (List UInt8)) :=
  if b.isOpen = false then
    (b, .error .closed)
  else if streamId.isServer && streamId.isUni then
    (b, .error .illegal)
  else
    match b.getOpen env.quinn id with
    | none => (b, .error .unknownConnection)
    | some (backend, c) =>
      let (inner, written) : Conn × Except Error (Option (List UInt8)) :=
        if bytes = [] then
          (c.inner, .ok none)
        else
          match env.quinn.writeChunk c.inner streamId bytes with
          | (inner, .ok unsent) => (inner, .ok unsent)
          | (inner, .error .blocked) => (inner, .ok (some bytes))
          | (inner, .error (.stopped code)) => (inner, .error (.streamStop code))
          | (inner, .error .closedStream) => (inner, .error .unknownStream)
      let (inner, result) : Conn × Except Error (Option (List UInt8)) :=
        match written, fin with
        | .ok none, true =>
          match env.quinn.finish inner streamId with
          | (inner, .ok _) => (inner, .ok none)
          | (inner, .error (.stopped code)) => (inner, .error (.streamStop code))
          | (inner, .error .closedStream) => (inner, .error .unknownStream)
        | written, _ => (inner, written)
      ({ b with toQuinnBackend := backend.put id.key { c with inner } }, result)

/-- `stream_open_send`. -/
def streamOpenSend (b : EndpointBackend Conn End Cfg) (id : QuinnConnectionId)
    (bidirectional : Bool) (bytes : List UInt8) (fin : Bool) :
    EndpointBackend Conn End Cfg × Except Error (StreamId × Option (List UInt8)) :=
  if b.isOpen = false then
    (b, .error .closed)
  else
    match b.getOpen env.quinn id with
    | none => (b, .error .unknownConnection)
    | some (backend, c) =>
      match env.quinn.openStream c.inner (if bidirectional then .bi else .uni) with
      | (inner, none) =>
        ({ b with toQuinnBackend := backend.put id.key { c with inner } }, .error .streamsExhausted)
      | (inner, some streamId) =>
        let b := { b with toQuinnBackend := backend.put id.key { c with inner } }
        let (b, result) := b.streamSend env id streamId bytes fin
        (b, result.map (streamId, ·))

/-- What `stream_stop_sending`, `stream_reset_sending` and `stream_set_priority` share: a change of an
open connection, for streams of the right kind. -/
def changeStream (b : EndpointBackend Conn End Cfg) (id : QuinnConnectionId) (illegal : Bool)
    (change : Conn → Option Conn) : Option (EndpointBackend Conn End Cfg) :=
  if b.isOpen = false || illegal then
    some b
  else
    match b.getOpen env.quinn id with
    | none => some b
    | some (backend, c) =>
      (change c.inner).map fun inner =>
        { b with toQuinnBackend := backend.put id.key { c with inner } }

/-- `stream_stop_sending`. -/
def streamStopSending (b : EndpointBackend Conn End Cfg) (id : QuinnConnectionId)
    (streamId : StreamId) (err : Nat) : Option (EndpointBackend Conn End Cfg) :=
  b.changeStream env id (streamId.isClient && streamId.isUni) fun c =>
    (u64IntoVarint err).map (env.quinn.stop c streamId)

/-- `stream_reset_sending`. -/
def streamResetSending (b : EndpointBackend Conn End Cfg) (id : QuinnConnectionId)
    (streamId : StreamId) (err : Nat) : Option (EndpointBackend Conn End Cfg) :=
  b.changeStream env id (streamId.isServer && streamId.isUni) fun c =>
    (u64IntoVarint err).map (env.quinn.reset c streamId)

/-- `stream_set_priority`. -/
def streamSetPriority (b : EndpointBackend Conn End Cfg) (id : QuinnConnectionId)
    (streamId : StreamId) (priority : Priority) : Option (EndpointBackend Conn End Cfg) :=
  b.changeStream env id (streamId.isServer && streamId.isUni) fun c =>
    some (env.quinn.setPriority c streamId priority.urgency.toInt)

/-! ## Datagrams -/

/-- `dgram_recv_zc`, which hands the datagram to a consumer. -/
def dgramRecvZc (b : EndpointBackend Conn End Cfg) (id : QuinnConnectionId) :
    EndpointBackend Conn End Cfg × Except Error (Option (List UInt8)) :=
  if b.isOpen = false then
    (b, .error .closed)
  else
    match b.connections.get id with
    | none => (b, .error .unknownConnection)
    | some c =>
      let (inner, datagram) := env.quinn.recvDatagram c.inner
      ({ b with toQuinnBackend := b.put id.key { c with inner } }, .ok datagram)

/-- `dgram_recv`, for a buffer of this length. -/
def dgramRecv (b : EndpointBackend Conn End Cfg) (id : QuinnConnectionId) (outLen : Nat) :
    EndpointBackend Conn End Cfg × Except Error (List UInt8) :=
  let (b, result) := b.dgramRecvZc env id
  (b, result.bind fun datagram =>
    -- a datagram that does not fit is lost
    match datagram with
    | none => .ok []
    | some datagram => if outLen < datagram.length then .error .bufferSize else .ok datagram)

/-- `dgram_send`. -/
def dgramSend (b : EndpointBackend Conn End Cfg) (id : QuinnConnectionId) (bytes : List UInt8) :
    EndpointBackend Conn End Cfg × Except Error (Option (List UInt8)) :=
  if b.isOpen = false then
    (b, .error .closed)
  else
    match b.getOpen env.quinn id with
    | none => (b, .error .unknownConnection)
    | some (backend, c) =>
      let (inner, result) := env.quinn.sendDatagram c.inner bytes
      ({ b with toQuinnBackend := backend.put id.key { c with inner } },
        match result with
        | .ok _ => .ok none
        | .error .unsupportedByPeer => .error .dgramDisabled
        | .error .disabled => .error .dgramDisabled
        | .error .tooLarge => .error .bufferSize
        | .error (.blocked bytes) => .ok (some bytes))

end EndpointBackend

/-! ## Runs -/

/-- The operations of a run. -/
inductive Operation where
  | clockUpdate (clock : Instant)
  /-- `events().consume(..)`. -/
  | consumeEvents
  | close (err : Nat) (reason : List UInt8)
  | connect (serverName : String) (peerAddr : SocketAddr)
  | connectionClose (id : QuinnConnectionId) (err : Nat) (reason : List UInt8)
  | send (out : List Message)
  | recv (inPackets : List Packet) (outMessages : List Message) (fuel : Nat)
  | tick
  | migrateNetwork (newListenAddr : Option IpAddr)
  | streamRecv (id : QuinnConnectionId) (streamId : StreamId) (outLen fuel : Nat)
  | streamOpenSend (id : QuinnConnectionId) (bidirectional : Bool) (bytes : List UInt8) (fin : Bool)
  | streamSend (id : QuinnConnectionId) (streamId : StreamId) (bytes : List UInt8) (fin : Bool)
  | streamStopSending (id : QuinnConnectionId) (streamId : StreamId) (err : Nat)
  | streamResetSending (id : QuinnConnectionId) (streamId : StreamId) (err : Nat)
  | streamSetPriority (id : QuinnConnectionId) (streamId : StreamId) (priority : Priority)
  | dgramRecv (id : QuinnConnectionId) (outLen : Nat)
  | dgramRecvZc (id : QuinnConnectionId)
  | dgramSend (id : QuinnConnectionId) (bytes : List UInt8)
  /-- A message that was sent is dropped, and its buffer returns to the pool it is from. -/
  | dropMessage (primary : Bool) (capacity : Nat)

/-- A backend in use, and the events its owner has consumed. -/
structure Running (Conn End Cfg : Type) where
  backend : EndpointBackend Conn End Cfg
  consumed : List (Event QuinnConnectionId)

namespace Running

variable {Conn End Cfg Incoming Signal Report : Type}
  (env : Env Conn End Cfg Incoming Signal Report)

/-- What an operation does to the backend; `none` is a panic. -/
def call (b : EndpointBackend Conn End Cfg) :
    Operation → Option (EndpointBackend Conn End Cfg)
  | .clockUpdate clock => some { b with time := { b.time with clock } }
  | .consumeEvents => some { b with events := [] }
  | .close err reason => b.close env err reason
  | .connect serverName peerAddr => some (b.connect env serverName peerAddr).1
  | .connectionClose id err reason => (b.connectionClose env id err reason).map (·.1)
  | .send out =>
    (b.toQuinnBackend.send env.quinn out).map fun (backend, _) =>
      { b with toQuinnBackend := backend }
  | .recv inPackets outMessages fuel => (b.recv env inPackets outMessages fuel).map (·.1)
  | .tick => some { b with time := b.time.tick }
  | .migrateNetwork newListenAddr => some (b.migrateNetwork env newListenAddr).1
  | .streamRecv id streamId outLen fuel => (b.streamRecv env id streamId outLen fuel).map (·.1)
  | .streamOpenSend id bidirectional bytes fin =>
    some (b.streamOpenSend env id bidirectional bytes fin).1
  | .streamSend id streamId bytes fin => some (b.streamSend env id streamId bytes fin).1
  | .streamStopSending id streamId err => b.streamStopSending env id streamId err
  | .streamResetSending id streamId err => b.streamResetSending env id streamId err
  | .streamSetPriority id streamId priority => b.streamSetPriority env id streamId priority
  | .dgramRecv id outLen => some (b.dgramRecv env id outLen).1
  | .dgramRecvZc id => some (b.dgramRecvZc env id).1
  | .dgramSend id bytes => some (b.dgramSend env id bytes).1
  | .dropMessage true capacity =>
    some { b with io := { b.io with primaryBuffers := capacity :: b.io.primaryBuffers } }
  | .dropMessage false capacity => some (b.returnBuffer capacity)

/-- One operation. `consume` pops the events from the back. -/
def exec (s : Running Conn End Cfg) (op : Operation) : Option (Running Conn End Cfg) :=
  (call env s.backend op).map fun backend =>
    { backend
      consumed :=
        match op with
        | .consumeEvents => s.consumed ++ s.backend.events.reverse
        | _ => s.consumed }

/-- A backend right after `QuinnBackend::new`. -/
def Init (s : Running Conn End Cfg) : Prop :=
  s.consumed = [] ∧ ∃ config endpoint primaryBuffers reservedBuffers listenAddr clock,
    s.backend = .new config endpoint primaryBuffers reservedBuffers listenAddr clock

end Running

end Aquic.Backend.Quinn

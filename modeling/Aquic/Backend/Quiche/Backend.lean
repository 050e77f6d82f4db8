import Aquic.Backend.Quiche.Io
import Aquic.Backend.Token.Basic

/-!
# The quiche backend

`backend/quiche/mod.rs`: the operations that move packets, `send` and `recv`, with everything they
call. The operations of the application follow in a module of their own.

The backend is a state that the operations pass along; `none` is a panic. Logging and `debug_panic!`
do nothing in a release build. The TLS session cache is written here but only read by `connect`, and
is left out.

`calls` is a history: what the loop of the current `send` or `recv` has done to connections.
-/

namespace Aquic.Backend.Quiche

open Aquic.Bytes Aquic.Cid Aquic.Collections Aquic.Net Aquic.Stream Aquic.Timer Aquic.Tokens

/-- `Instant + Duration`. -/
def addDuration (time : Instant) (duration : Duration) : Option Instant :=
  if h : time.nanos + duration.nanos < durationLimit then some ⟨time.nanos + duration.nanos, h⟩
  else none

/-- `SystemTime + Duration`; the seconds of a `SystemTime` are an `i64`. -/
def addSystemDuration (time : SystemTime) (duration : Duration) : Option SystemTime :=
  if time + duration.nanos < 2 ^ 63 * 10 ^ 9 then some (time + duration.nanos) else none

/-- `to_sock_addr`. -/
def toSockAddr (ip : IpAddr) : SocketAddr := ⟨ip, 2 ^ 16 - 1⟩

/-- Remote-initiated connections configuration. -/
structure ServerConfig (Cfg T : Type) where
  quiche : Cfg
  /-- `Firewall::allow_unverified`. -/
  allowUnverified : (sourceAddr : SocketAddr) → (total unverified : Nat) → Bool
  tokenGenerator : T
  establishTimeout : Duration

/-- Locally-initiated connections configuration. -/
structure ClientConfig (Cfg : Type) where
  quiche : Cfg
  establishTimeout : Option Duration

structure Config (Cfg G T : Type) where
  client : Option (ClientConfig Cfg)
  server : Option (ServerConfig Cfg T)
  connectionIdGenerator : G
  /-- Size of the buffer that is shared by all connections. -/
  outBufferSize : Nat

/-- What happened to a connection. -/
inductive Call where
  /-- `write_pending` was called on it. -/
  | writePending (key : ConnectionKey)
  | forget (key : ConnectionKey)
  /-- quiche's `recv` was called on it. -/
  | recv (key : ConnectionKey) (payload : List UInt8)
  /-- It was accepted with this source id and registered. -/
  | accept (key : ConnectionKey) (scid : List UInt8) (odcid : Option (List UInt8))
  /-- A `Retry` packet was sent instead. -/
  | retry (scid token : List UInt8)
  deriving DecidableEq, Repr

structure QuicheBackend (Conn Cfg G T : Type) where
  config : Config Cfg G T
  connections : Connections Conn
  io : Io
  time : EventTimer TimerEvent
  /-- Current system time. -/
  clockSys : SystemTime
  events : List (Event ConnectionKey)
  /-- Address which the socket listens to. -/
  listenAddr : IpAddr
  isOpen : Bool
  rng : Rng
  calls : List Call

/-- The code outside the repository: the quiche crate, and the implementations of the traits
`ConnectionIdGenerator` and `TokenGenerator`. -/
structure Env (Conn Cfg G T : Type) where
  quiche : Library Conn Cfg
  cids : ConnectionIdGenerator G
  tokens : TokenGenerator T

/-- A result of an attempt to send packets. -/
inductive SendResult where
  /-- The connection should be no more active. -/
  | done
  /-- The connection needs to be polled, but should lose its place in the queue. -/
  | reactivate
  /-- The connection needs to be polled; no further connections may be handled. -/
  | stopAndRetry
  deriving DecidableEq, Repr

namespace QuicheBackend

variable {Conn Cfg G T : Type} (env : Env Conn Cfg G T)

/-- `QuicheBackend::new`, at the given times; `Config::fix` raises the size of the buffer. -/
def new (config : Config Cfg G T) (listenAddr : IpAddr) (clock : Instant) (clockSys : SystemTime)
    (rng : Rng) : Option (QuicheBackend Conn Cfg G T) :=
  let config := { config with outBufferSize := max config.outBufferSize 2048 }
  (BipBuf.Bip.new config.outBufferSize).map fun buffer =>
    { config
      connections := .new
      io := { buffer }
      time := .new clock
      clockSys
      events := []
      listenAddr
      isOpen := true
      rng
      calls := [] }

/-! ## Small steps -/

def push (b : QuicheBackend Conn Cfg G T) (events : List (Event ConnectionKey)) :
    QuicheBackend Conn Cfg G T :=
  { b with events := b.events ++ events }

def log (b : QuicheBackend Conn Cfg G T) (call : Call) : QuicheBackend Conn Cfg G T :=
  { b with calls := b.calls ++ [call] }

/-- Writes a connection back. -/
def put (b : QuicheBackend Conn Cfg G T) (key : ConnectionKey) (c : Connection Conn) :
    QuicheBackend Conn Cfg G T :=
  { b with connections := b.connections.put key c }

def nextActive (b : QuicheBackend Conn Cfg G T) : QuicheBackend Conn Cfg G T :=
  { b with connections := b.connections.nextActive }

def markActive (b : QuicheBackend Conn Cfg G T) (key : ConnectionKey) :
    QuicheBackend Conn Cfg G T :=
  { b with connections := b.connections.markActive key }

def peekActive (b : QuicheBackend Conn Cfg G T) : QuicheBackend Conn Cfg G T :=
  { b with connections := b.connections.peekActive }

/-- `time.cancel_all`. -/
def cancelAll (time : EventTimer TimerEvent) (c : Connection Conn) : EventTimer TimerEvent :=
  [c.timerPacerKey, c.timerQuicheTimeoutKey, c.timerEstablishTimeoutKey].reduceOption.foldl
    EventTimer.cancel time

/-- `forget_connection`. -/
def forgetConnection (b : QuicheBackend Conn Cfg G T) (key : ConnectionKey) :
    QuicheBackend Conn Cfg G T :=
  match b.connections.remove env.quiche key with
  | none => b
  | some (connections, c) =>
    let (c, event) := c.getCloseEvent env.quiche key
    ({ b with connections, time := cancelAll b.time c }.push
      (event.toList.map .connection)).log (.forget key)

/-! ## Timers -/

/-- What `schedule_pacer`, `schedule_quiche_timeout` and `schedule_establish_timeout` do once they
have found the time. -/
def scheduleTimer (b : QuicheBackend Conn Cfg G T) (key : ConnectionKey) (kind : TimerKind)
    (due : Connection Conn → Option Instant) : QuicheBackend Conn Cfg G T :=
  match b.connections.get key with
  | none => b
  | some c =>
    match due c with
    | none => b
    | some due =>
      let (c, previousKey) := c.popTimerKey kind
      let (time, timerKey) := b.time.reschedule { connectionKey := key, kind } due previousKey
      { b with time }.put key (c.setTimerKey kind (some timerKey))

def schedulePacer (b : QuicheBackend Conn Cfg G T) (key : ConnectionKey)
    (releaseTime : Option Instant) : QuicheBackend Conn Cfg G T :=
  b.scheduleTimer key .pacer fun c =>
    releaseTime.or (c.getNextReleaseTime env.quiche b.time.clock)

/-- `schedule_quiche_timeout(connection_key, None)`. -/
def scheduleQuicheTimeout (b : QuicheBackend Conn Cfg G T) (key : ConnectionKey) :
    QuicheBackend Conn Cfg G T :=
  b.scheduleTimer key .quicheTimeout fun c => env.quiche.timeoutInstant c.inner

/-- `schedule_establish_timeout(connection_key, None)`; adding the timeout may overflow. -/
def scheduleEstablishTimeout (b : QuicheBackend Conn Cfg G T) (key : ConnectionKey) :
    Option (QuicheBackend Conn Cfg G T) :=
  match b.connections.get key with
  | none => some b
  | some c =>
    let timeout :=
      if env.quiche.isServer c.inner then b.config.server.map (·.establishTimeout)
      else b.config.client.bind (·.establishTimeout)
    match timeout with
    | none => some b
    | some timeout =>
      (addDuration b.time.clock timeout).map fun due =>
        b.scheduleTimer key .establishTimeout fun _ => some due

/-! ## Events of quiche -/

/-- `write_stream_dgram_events`; a stream id that is too large is logged and skipped. -/
def writeStreamDgramEvents (b : QuicheBackend Conn Cfg G T) (key : ConnectionKey) :
    QuicheBackend Conn Cfg G T :=
  match b.connections.get key with
  | none => b
  | some c =>
    let (c, streamsAvailable) := c.getConnectionStreamsAvailableEvents env.quiche key
    let (inner, readable) := env.quiche.readableStreams c.inner
    let (inner, writable) := env.quiche.writableStreams inner
    let c := { c with inner }
    let available := (readable ++ writable).filterMap fun id =>
      (StreamId.new id).map (StreamEvent.available key)
    let (c, inAvailable) :=
      if env.quiche.isDgramRecvQueueFull c.inner then (c, none) else c.getDgramInAvailableEvent key
    let (c, outAvailable) :=
      if env.quiche.isDgramSendQueueFull c.inner then (c, none) else c.getDgramOutAvailableEvent key
    let (c, outSize) := c.getDgramOutSizeEvent env.quiche key
    (b.put key c).push (streamsAvailable.map .connection ++ available.map .stream ++
      (inAvailable.toList ++ outAvailable.toList ++ outSize.toList).map .datagram)

/-- The loop of `allocate_scids`, which ends with the first error. -/
def allocateLoop : Nat → G → T → Conn → G × T × Conn
  | 0, cids, tokens, inner => (cids, tokens, inner)
  | n + 1, cids, tokens, inner =>
    let (cids, scid) := env.cids.generate cids
    let (tokens, resetToken) := env.tokens.generateResetToken tokens scid.bytes
    match env.quiche.newScid inner scid.bytes resetToken with
    | (inner, .ok _) => allocateLoop n cids tokens inner
    | (inner, .error _) => (cids, tokens, inner)

/-- `allocate_scids`. -/
def allocateScids (b : QuicheBackend Conn Cfg G T) (key : ConnectionKey) :
    QuicheBackend Conn Cfg G T :=
  if env.cids.cidLen b.config.connectionIdGenerator = 0 then
    b
  else
    match b.config.server, b.connections.getMarkActive key with
    | some server, some (connections, c) =>
      let b := { b with connections }
      if env.quiche.isEstablished c.inner then
        let (cids, tokens, inner) := allocateLoop env (env.quiche.scidsLeft c.inner)
          b.config.connectionIdGenerator server.tokenGenerator c.inner
        let b :=
          { b with
            config :=
              { b.config with
                server := some { server with tokenGenerator := tokens }
                connectionIdGenerator := cids } }.put key { c with inner }
        { b with connections := b.connections.updateScidsDict env.quiche key }
      else
        b
    | _, _ => b

/-- `handle_path_events`. -/
def handlePathEvents (b : QuicheBackend Conn Cfg G T) (key : ConnectionKey) :
    QuicheBackend Conn Cfg G T :=
  match b.connections.get key with
  | none => b
  | some c =>
    let (inner, events) := env.quiche.pathEvents c.inner
    let b := b.put key { c with inner }
    let b :=
      if events.contains .validated then
        { b with connections := b.connections.markVerified env.quiche key }
      else b
    if events.contains .peerMigrated then b.allocateScids env key else b

/-- `check_connection_handshake_progress`. -/
def checkConnectionHandshakeProgress (b : QuicheBackend Conn Cfg G T) (key : ConnectionKey) :
    QuicheBackend Conn Cfg G T :=
  match b.connections.get key with
  | none => b
  | some c =>
    if env.quiche.isEstablished c.inner then
      let (c, timerKey) := c.popTimerKey .establishTimeout
      let b := b.put key c
      let b :=
        match timerKey with
        | none => b
        | some timerKey => { b with time := b.time.cancel timerKey }
      b.allocateScids env key
    else
      b

/-! ## Scheduled events -/

/-- `handle_scheduled_event`. -/
def handleScheduledEvent (b : QuicheBackend Conn Cfg G T) (event : TimerEvent) :
    QuicheBackend Conn Cfg G T :=
  let key := event.connectionKey
  match b.connections.getMarkActive key with
  | none => b
  | some (connections, c) =>
    let b := { b with connections }
    match event.kind with
    | .pacer => b
    | .quicheTimeout => b.put key { c with inner := env.quiche.onTimeout c.inner }
    | .establishTimeout =>
      if env.quiche.isEstablished c.inner then
        b
      else
        let (c, event) := c.getHaltEvent key .timeout
        let b := (b.put key c).push (event.toList.map .connection)
        if env.quiche.isServer c.inner then
          -- `WireErrorCode::ConnectionRefused`
          b.put key
            { c with inner := (env.quiche.close c.inner false 2 "timeout".toUTF8.toList).1 }
        else
          b.forgetConnection env key

/-- `handle_scheduled_events`. -/
def handleScheduledEvents (b : QuicheBackend Conn Cfg G T) : QuicheBackend Conn Cfg G T :=
  let (time, events) := b.time.popFiredEvents
  events.foldl (handleScheduledEvent env) { b with time }

/-! ## `send` -/

/-- `send_packets`. -/
def sendPackets (b : QuicheBackend Conn Cfg G T) (key : ConnectionKey) (out : List Message) :
    Option (QuicheBackend Conn Cfg G T × List Message × SendResult) :=
  match b.connections.get key with
  | none => some (b, out, .done)
  | some c =>
    match b.io.writePending .release env.quiche c out b.time.clock with
    | none => none
    | some written =>
      let b := ({ b with io := written.io }.put key written.connection).log (.writePending key)
      let b := (b.writeStreamDgramEvents env key).scheduleQuicheTimeout env key
      match written.result with
      | .ok .complete => some (b, written.out, .done)
      -- a fired pacer event will reactivate the connection
      | .ok (.pacer releaseTime) =>
        some (b.schedulePacer env key (some releaseTime), written.out, .done)
      | .ok .quantum => some (b, written.out, .reactivate)
      | .ok .bufferTooShort => some (b, written.out, .stopAndRetry)
      | .error _ => some (b, written.out, .done)

/-- The loop of `send`, for at most `active_connections_count` connections. -/
def sendLoop : Nat → QuicheBackend Conn Cfg G T → List Message →
    Option (QuicheBackend Conn Cfg G T × List Message)
  | 0, b, out => some (b.peekActive, out)
  | count + 1, b, out =>
    let b := b.peekActive
    match b.connections.active.front with
    | none => some (b, out)
    | some key =>
      match b.connections.get key with
      | none => some (b, out)
      | some c =>
        if env.quiche.isClosed c.inner then
          sendLoop count (b.forgetConnection env key).nextActive out
        else
          match b.sendPackets env key out with
          | none => none
          | some (b, out, .done) => sendLoop count b.nextActive out
          | some (b, out, .reactivate) => sendLoop count (b.nextActive.markActive key) out
          | some (b, out, .stopAndRetry) => some (b, out)

/-- `send`. -/
def send (b : QuicheBackend Conn Cfg G T) (out : List Message) :
    Option (QuicheBackend Conn Cfg G T × List Message) :=
  let b := { handleScheduledEvents env b with calls := [] }
  sendLoop env b.connections.active.length b out

/-! ## `recv` -/

/-- `delegate_packet`. -/
def delegatePacket (b : QuicheBackend Conn Cfg G T) (header : Header) (packet : Packet) :
    QuicheBackend Conn Cfg G T × Bool :=
  match b.connections.findConnectionKey header.dcid packet.fromAddr with
  | none => (b, false)
  | some key =>
    match b.connections.getMarkActive key with
    | none => (b, false)
    | some (connections, c) =>
      let b := { b with connections }
      if env.quiche.isClosed c.inner then
        (b.forgetConnection env key, true)
      else
        let (inner, result) := env.quiche.recv c.inner packet.payload
          { source := packet.fromAddr, destination := toSockAddr packet.toAddr }
        let c := { c with inner }
        let b := (b.put key c).log (.recv key packet.payload)
        let ended := env.quiche.isDraining inner || env.quiche.isClosed inner
        let b :=
          match result with
          | .ok _ =>
            if header.ty = PacketType.handshake then b.checkConnectionHandshakeProgress env key else b
          | .error e =>
            let (c, halted) :=
              if e = QuicheError.unknownVersion ∧ ended then c.getHaltEvent key .unknownVersion else (c, none)
            let (c, closed) := if ended then c.getCloseEvent env.quiche key else (c, none)
            (b.put key c).push ((halted.toList ++ closed.toList).map .connection)
        let b := (b.handlePathEvents env key).writeStreamDgramEvents env key
        (b.scheduleQuicheTimeout env key, true)

/-- `register_new_connection`. -/
def registerNewConnection (b : QuicheBackend Conn Cfg G T) (c : Connection Conn)
    (peerAddr : SocketAddr) : Option (QuicheBackend Conn Cfg G T × ConnectionKey) := do
  let (connections, key) ← b.connections.insert env.quiche c peerAddr
  let b ← ({ b with connections }.scheduleQuicheTimeout env key).scheduleEstablishTimeout env key
  some (b.push [.connection (.new key (env.quiche.isServer c.inner))], key)

/-- What `handle_initial_packet_as_server` does with the token of the packet. -/
inductive TokenVerdict where
  /-- Verified. -/
  | valid (token : Token)
  /-- Missing, invalid, or an expired identity token. -/
  | absent
  /-- An expired retry token: the packet is dropped silently. -/
  | drop
  deriving DecidableEq, Repr

/-- The token verification of `handle_initial_packet_as_server`. -/
def verifyInitialToken (b : QuicheBackend Conn Cfg G T) (server : ServerConfig Cfg T)
    (header : Header) (packet : Packet) : T × TokenVerdict :=
  match header.token with
  | none => (server.tokenGenerator, .absent)
  | some token =>
    match env.tokens.verifyToken server.tokenGenerator packet.fromAddr.ip header.scid header.dcid
        token b.clockSys with
    | (tokens, .ok token) => (tokens, .valid token)
    | (tokens, .error (.expired .retry _)) => (tokens, .drop)
    | (tokens, .error _) => (tokens, .absent)

/-- The `Retry` response of `handle_initial_packet_as_server`. -/
def respondWithRetry (b : QuicheBackend Conn Cfg G T) (server : ServerConfig Cfg T)
    (header : Header) (packet : Packet) (serverNewScid : ConnectionId) (out : List Message) :
    Option (QuicheBackend Conn Cfg G T × List Message × Bool) := do
  let expiresAt ← addSystemDuration b.clockSys server.establishTimeout
  let (tokens, retryToken) := env.tokens.generateRetryToken server.tokenGenerator
    packet.fromAddr.ip header.scid header.dcid serverNewScid.bytes expiresAt
  let b :=
    { b with config := { b.config with server := some { server with tokenGenerator := tokens } } }
  match retryToken with
  | none => some (b, out, true)
  | some retryToken =>
    let (io, out, result) ← b.io.writeRetry .release env.quiche header packet serverNewScid.bytes retryToken
      out
    let b := { b with io }
    match result with
    | .ok .complete => some (b.log (.retry serverNewScid.bytes retryToken), out, true)
    | .ok .bufferTooShort => some (b, out, false)
    | .error _ => some (b, out, true)

/-- The destination id of the peer's first `Initial`, known from a retry token. -/
def originalDcid : Option Token → Option (List UInt8)
  | some (.retry peerOriginalDcid _) => some peerOriginalDcid.bytes
  | _ => none

/-- The end of `handle_initial_packet_as_server`: the connection is accepted and registered. -/
def acceptConnection (b : QuicheBackend Conn Cfg G T) (server : ServerConfig Cfg T)
    (packet : Packet) (serverNewScid : ConnectionId) (token : Option Token) :
    Option (QuicheBackend Conn Cfg G T) :=
  match env.quiche.accept server.quiche serverNewScid.bytes (originalDcid token)
      (toSockAddr b.listenAddr) packet.fromAddr with
  | (quiche, result) =>
    let b := { b with config := { b.config with server := some { server with quiche } } }
    match result with
    | .error _ => some b
    | .ok connection =>
      (b.registerNewConnection env (Connection.new env.quiche connection token.isSome)
        packet.fromAddr).map fun (b, key) =>
          b.log (.accept key serverNewScid.bytes (originalDcid token))

/-- `handle_initial_packet_as_server`; `false` asks for a retry of the packet. -/
def handleInitialPacketAsServer (b : QuicheBackend Conn Cfg G T) (header : Header)
    (packet : Packet) (out : List Message) :
    Option (QuicheBackend Conn Cfg G T × List Message × Bool) :=
  match b.config.server with
  | none => some (b, out, true)
  | some server =>
    if env.quiche.versionIsSupported header.version = false then do
      let (io, out, result) ← b.io.writeVersionNegotiation .release env.quiche header packet out
      some ({ b with io }, out, !(result matches .ok .bufferTooShort))
    else if maxCidLen < header.scid.length ∨ maxCidLen < header.dcid.length then
      some (b, out, true)
    else
      let (tokens, verdict) := verifyInitialToken env b server header packet
      let server := { server with tokenGenerator := tokens }
      let b := { b with config := { b.config with server := some server } }
      match verdict with
      | .drop => some (b, out, true)
      | .valid token =>
        -- the check of the generated length always passes, by the type of the id
        let (cids, serverNewScid) := env.cids.generate b.config.connectionIdGenerator
        let b := { b with config := { b.config with connectionIdGenerator := cids } }
        (b.acceptConnection env server packet serverNewScid (some token)).map (·, out, true)
      | .absent =>
        let (cids, serverNewScid) := env.cids.generate b.config.connectionIdGenerator
        let b := { b with config := { b.config with connectionIdGenerator := cids } }
        if server.allowUnverified packet.fromAddr b.connections.serverConnectionsCount
            b.connections.serverUnverifiedConnectionsCount then
          (b.acceptConnection env server packet serverNewScid none).map (·, out, true)
        else
          b.respondWithRetry env server header packet serverNewScid out

/-- `handle_packet_with_stateless_reset`. -/
def handlePacketWithStatelessReset (b : QuicheBackend Conn Cfg G T) (header : Header)
    (packet : Packet) (out : List Message) :
    Option (QuicheBackend Conn Cfg G T × List Message) :=
  match b.config.server with
  | none => some (b, out)
  | some server =>
    let (tokens, resetToken) := env.tokens.generateResetToken server.tokenGenerator header.dcid
    (b.io.writeStatelessReset .release b.rng packet resetToken out).map fun (io, rng, out) =>
      ({ b with
          config := { b.config with server := some { server with tokenGenerator := tokens } }
          io
          rng }, out)

/-- One iteration of the loop of `recv`; `false` says that the packet is not consumed. -/
def recvPacket (cidLength : Nat) (b : QuicheBackend Conn Cfg G T) (packet : Packet)
    (out : List Message) : Option (QuicheBackend Conn Cfg G T × List Message × Bool) :=
  match env.quiche.headerFromSlice packet.payload cidLength with
  | none => some (b, out, true)
  | some header =>
    if header.ty = PacketType.initial then
      if b.isOpen then b.handleInitialPacketAsServer env header packet out
      else some (b, out, true)
    else
      match b.delegatePacket env header packet with
      | (b, true) => some (b, out, true)
      | (b, false) =>
        (b.handlePacketWithStatelessReset env header packet out).map fun (b, out) => (b, out, true)

/-- The loop of `recv`: the backend, the packets that were not consumed, and the messages. -/
def recvLoop (cidLength : Nat) : List Packet → QuicheBackend Conn Cfg G T → List Message →
    Option (QuicheBackend Conn Cfg G T × List Packet × List Message)
  | [], b, out => some (b, [], out)
  | packet :: packets, b, out =>
    match recvPacket env cidLength b packet out with
    | none => none
    | some (b, out, true) => recvLoop cidLength packets b out
    | some (b, out, false) => some (b, packet :: packets, out)

/-- `recv`. -/
def recv (b : QuicheBackend Conn Cfg G T) (inPackets : List Packet) (outMessages : List Message) :
    Option (QuicheBackend Conn Cfg G T × List Packet × List Message) :=
  recvLoop env (env.cids.cidLen b.config.connectionIdGenerator) inPackets { b with calls := [] }
    outMessages

/-! ## What the steps touch -/

/-- Nothing but the connection `key`, its timers and the events. -/
structure Touches (key : ConnectionKey) (b b' : QuicheBackend Conn Cfg G T) : Prop where
  active : b'.connections.active = b.connections.active
  others : ∀ k ≠ key, b'.connections.get k = b.connections.get k
  live : (b.connections.get key).isSome → (b'.connections.get key).isSome
  io : b'.io = b.io
  clock : b'.time.clock = b.time.clock
  calls : b'.calls = b.calls

namespace Touches

variable {key : ConnectionKey} {b b' b'' : QuicheBackend Conn Cfg G T}

theorem refl (key : ConnectionKey) (b : QuicheBackend Conn Cfg G T) : Touches key b b :=
  ⟨rfl, fun _ _ => rfl, id, rfl, rfl, rfl⟩

theorem trans (h : Touches key b b') (h' : Touches key b' b'') : Touches key b b'' :=
  ⟨h'.active.trans h.active, fun k hk => (h'.others k hk).trans (h.others k hk),
    fun hlive => h'.live (h.live hlive), h'.io.trans h.io, h'.clock.trans h.clock,
    h'.calls.trans h.calls⟩

theorem put (b : QuicheBackend Conn Cfg G T) (key : ConnectionKey) (c : Connection Conn) :
    Touches key b (b.put key c) :=
  ⟨rfl, fun _ hk => Slots.get_set_of_ne hk, Slots.isSome_get_set, rfl, rfl, rfl⟩

theorem push (key : ConnectionKey) (b : QuicheBackend Conn Cfg G T)
    (events : List (Event ConnectionKey)) : Touches key b (b.push events) :=
  ⟨rfl, fun _ _ => rfl, id, rfl, rfl, rfl⟩

end Touches

theorem scheduleTimer_touches (b : QuicheBackend Conn Cfg G T) (key : ConnectionKey)
    (kind : TimerKind) (due : Connection Conn → Option Instant) :
    Touches key b (b.scheduleTimer key kind due) := by
  unfold scheduleTimer
  split
  · exact .refl key b
  · split
    · exact .refl key b
    · exact ⟨rfl, fun _ hk => Slots.get_set_of_ne hk, Slots.isSome_get_set, rfl,
        EventTimer.reschedule_clock .., rfl⟩

theorem writeStreamDgramEvents_touches (b : QuicheBackend Conn Cfg G T) (key : ConnectionKey) :
    Touches key b (b.writeStreamDgramEvents env key) := by
  unfold writeStreamDgramEvents
  split
  · exact .refl key b
  · exact (Touches.put b key _).trans (.push key _ _)

/-! ## A small instance

Idle connections, random ids, and tokens that are not protected. -/

/-- `StrictFirewall`. -/
def strictFirewall (_ : SocketAddr) (_ _ : Nat) : Bool := false

/-- A retry token is the original destination id. -/
def plainTokens : TokenGenerator Unit where
  generateRetryToken _ _ _ peerDcid _ _ := ((), some peerDcid)
  generateIdentityToken _ _ _ := ((), [])
  generateResetToken _ _ := ((), Vector.replicate 16 0)
  verifyToken _ _ _ _ token now :=
    ((), match token, ConnectionId.tryFromSlice token with
      | _ :: _, some peerOriginalDcid => .ok (.retry peerOriginalDcid now)
      | _, _ => .error .invalid)

def idleEnv : Env IdleConnection Unit RandomIdGenerator Unit where
  quiche := idleLibrary
  cids := randomIds
  tokens := plainTokens

/-- The address of the peer. -/
def peerAddr : SocketAddr := ⟨.v4 #v[127, 0, 0, 2], 443⟩

/-- A server that draws ids of a length from the bytes `0, 1, 2, …`. -/
def idleServer (length : Fin (maxCidLen + 1)) (allowUnverified : SocketAddr → Nat → Nat → Bool) :
    Option (QuicheBackend IdleConnection Unit RandomIdGenerator Unit) :=
  let rng : Rng := { draws := id, cursor := 0 }
  new
    { client := none
      server := some
        { quiche := (), allowUnverified, tokenGenerator := (), establishTimeout := tickDuration }
      connectionIdGenerator := { length, length_le := Nat.le_of_lt_succ length.2, rng }
      outBufferSize := 0 }
    .localhost .zero 0 rng

end QuicheBackend

end Aquic.Backend.Quiche

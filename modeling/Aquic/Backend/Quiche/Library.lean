import Aquic.Backend.Cid
import Aquic.Lib.Net
import Aquic.Util.Timer.Wheel

/-!
# The quiche library

What the backend uses of the `quiche` crate. The crate is a parameter of the development: its
functions are the fields of `Library`, over a type `Conn` of connections and a type `Cfg` of
configurations. A method that changes a connection returns the new one. Methods that pop one element
and that the backend calls until they return `None` are given as the list of all the elements.
-/

namespace Aquic.Backend.Quiche

open Aquic.Net Aquic.Timer

/-- `quiche::Error`. -/
inductive QuicheError where
  | done
  | bufferTooShort
  | unknownVersion
  | invalidFrame
  | invalidPacket
  | invalidState
  | invalidStreamState (streamId : Nat)
  | invalidTransportParam
  | cryptoFail
  | tlsFail
  | flowControl
  | streamLimit
  | streamStopped (code : Nat)
  | streamReset (code : Nat)
  | finalSize
  | congestionControl
  | idLimit
  | outOfIdentifiers
  | keyUpdate
  | cryptoBufferExceeded
  | invalidAckRange
  | optimisticAckDetected
  | invalidDcidInitialization
  deriving DecidableEq, Repr

/-- `quiche::ConnectionError`. -/
structure ConnectionError where
  isApp : Bool
  errorCode : Nat
  reason : List UInt8
  deriving DecidableEq, Repr

/-- `quiche::Type`. -/
inductive PacketType where
  | initial
  | retry
  | handshake
  | zeroRtt
  | versionNegotiation
  | short
  deriving DecidableEq, Repr

/-- `quiche::Header`, the fields the backend reads. -/
structure Header where
  ty : PacketType
  version : Nat
  dcid : List UInt8
  scid : List UInt8
  token : Option (List UInt8)
  deriving DecidableEq, Repr

/-- `quiche::PathStats`, the fields the backend reads. -/
structure PathStats where
  localAddr : SocketAddr
  peerAddr : SocketAddr
  active : Bool
  deriving DecidableEq, Repr

/-- `quiche::PathEvent`, as far as the backend tells the variants apart. -/
inductive PathEvent where
  | validated
  | peerMigrated
  | other
  deriving DecidableEq, Repr

/-- `quiche::SendInfo` and `quiche::RecvInfo`. -/
structure Route where
  source : SocketAddr
  destination : SocketAddr
  deriving DecidableEq, Repr

/-- `ReleaseDecision`: when the pacer allows the next packet. -/
structure ReleaseDecision where
  canBurst : Bool
  time : Instant → Option Instant

structure Library (Conn Cfg : Type) where
  headerFromSlice : (buf : List UInt8) → (dcidLen : Nat) → Option Header
  versionIsSupported : (version : Nat) → Bool
  /-- The bytes of a `Version Negotiation` packet, for a buffer of this length. -/
  negotiateVersion : (scid dcid : List UInt8) → (bufLen : Nat) → Except QuicheError (List UInt8)
  /-- The bytes of a `Retry` packet, for a buffer of this length. -/
  retry : (scid dcid newScid token : List UInt8) → (version bufLen : Nat) →
    Except QuicheError (List UInt8)
  accept : Cfg → (scid : List UInt8) → (odcid : Option (List UInt8)) →
    (localAddr peerAddr : SocketAddr) → Cfg × Except QuicheError Conn
  isServer : Conn → Bool
  isEstablished : Conn → Bool
  isClosed : Conn → Bool
  isDraining : Conn → Bool
  isTimedOut : Conn → Bool
  localError : Conn → Option ConnectionError
  peerError : Conn → Option ConnectionError
  sourceId : Conn → List UInt8
  sourceIds : Conn → List (List UInt8)
  retiredScids : Conn → Conn × List (List UInt8)
  scidsLeft : Conn → Nat
  newScid : Conn → (scid : List UInt8) → (resetToken : Vector UInt8 16) →
    Conn × Except QuicheError Unit
  pathStats : Conn → List PathStats
  isPathValidated : Conn → (localAddr peerAddr : SocketAddr) → Bool
  pathEvents : Conn → Conn × List PathEvent
  onTimeout : Conn → Conn
  timeoutInstant : Conn → Option Instant
  close : Conn → (app : Bool) → (code : Nat) → (reason : List UInt8) →
    Conn × Except QuicheError Unit
  getNextReleaseTime : Conn → Option ReleaseDecision
  /-- The bytes written to a buffer of this length. -/
  send : Conn → (bufLen : Nat) → Conn × Except QuicheError (List UInt8 × Route)
  sendQuantumOnPath : Conn → (localAddr peerAddr : SocketAddr) → Nat
  recv : Conn → (payload : List UInt8) → Route → Conn × Except QuicheError Nat
  peerStreamsLeftBidi : Conn → Nat
  peerStreamsLeftUni : Conn → Nat
  readableStreams : Conn → Conn × List Nat
  writableStreams : Conn → Conn × List Nat
  isDgramRecvQueueFull : Conn → Bool
  isDgramSendQueueFull : Conn → Bool
  dgramMaxWritableLen : Conn → Option Nat
  connect : Cfg → (serverName : String) → (scid : List UInt8) → (localAddr peerAddr : SocketAddr) →
    Cfg × Except QuicheError Conn
  /-- Resumes a TLS session; a failure is only logged. -/
  setSession : Conn → (tlsTicket : List UInt8) → Conn
  migrateSource : Conn → (localAddr : SocketAddr) → Conn × Except QuicheError Nat
  /-- The bytes read into a buffer of this length, and whether the stream is finished. -/
  streamRecv : Conn → (streamId outLen : Nat) → Conn × Except QuicheError (List UInt8 × Bool)
  /-- The bytes that were not written, if any. -/
  streamSendZc : Conn → (streamId : Nat) → (bytes : List UInt8) → (fin : Bool) →
    Conn × Except QuicheError (Option (List UInt8))
  /-- Shuts the reading or the writing side down; a failure is ignored. -/
  streamShutdown : Conn → (streamId : Nat) → (write : Bool) → (err : Nat) → Conn
  streamPriority : Conn → (streamId : Nat) → (urgency : UInt8) → (incremental : Bool) → Conn
  dgramRecvVec : Conn → Conn × Except QuicheError (List UInt8)
  dgramSend : Conn → (bytes : List UInt8) → Conn × Except QuicheError Unit
  /-- The text of an error. -/
  display : QuicheError → String

/-! ## A small instance

Connections that never have anything to send and take every packet, behind the long header of version 1
with lengths below 64. -/

structure IdleConnection where
  scid : List UInt8
  closed : Bool
  deriving DecidableEq, Repr

/-- A length byte, and as many bytes. -/
def takePrefixed : List UInt8 → Option (List UInt8 × List UInt8)
  | [] => none
  | len :: rest =>
    if rest.length < len.toNat then none else some (rest.take len.toNat, rest.drop len.toNat)

/-- The header of an `Initial` packet. -/
def initialHeader : List UInt8 → Option Header
  | first :: 0 :: 0 :: 0 :: 1 :: rest => do
    if first &&& 0xf0 ≠ 0xc0 then none
    let (dcid, rest) ← takePrefixed rest
    let (scid, rest) ← takePrefixed rest
    let (token, _) ← takePrefixed rest
    some { ty := .initial, version := 1, dcid, scid, token := some token }
  | _ => none

/-- The library of idle connections. -/
def idleLibrary : Library IdleConnection Unit where
  headerFromSlice buf _ := initialHeader buf
  versionIsSupported version := version == 1
  negotiateVersion _ _ _ := .error .bufferTooShort
  retry scid _ newScid token _ bufLen :=
    -- without the integrity tag
    let bytes := [0xf0, 0, 0, 0, 1, UInt8.ofNat scid.length] ++ scid ++
      [UInt8.ofNat newScid.length] ++ newScid ++ token
    if bufLen < bytes.length then .error .bufferTooShort else .ok bytes
  accept cfg scid _ _ _ := (cfg, .ok { scid, closed := false })
  isServer _ := true
  isEstablished _ := false
  isClosed := IdleConnection.closed
  isDraining := IdleConnection.closed
  isTimedOut _ := false
  localError _ := none
  peerError _ := none
  sourceId := IdleConnection.scid
  sourceIds c := [c.scid]
  retiredScids c := (c, [])
  scidsLeft _ := 0
  newScid c _ _ := (c, .error .idLimit)
  pathStats _ := []
  isPathValidated _ _ _ := false
  pathEvents c := (c, [])
  onTimeout c := c
  timeoutInstant _ := none
  close c _ _ _ := if c.closed then (c, .error .done) else ({ c with closed := true }, .ok ())
  getNextReleaseTime _ := none
  send c _ := (c, .error .done)
  sendQuantumOnPath _ _ _ := 0
  recv c payload _ := (c, .ok payload.length)
  peerStreamsLeftBidi _ := 0
  peerStreamsLeftUni _ := 0
  readableStreams c := (c, [])
  writableStreams c := (c, [])
  isDgramRecvQueueFull _ := false
  isDgramSendQueueFull _ := false
  dgramMaxWritableLen _ := none
  connect cfg _ scid _ _ := (cfg, .ok { scid, closed := false })
  setSession c _ := c
  migrateSource c _ := (c, .error .invalidState)
  streamRecv c streamId _ := (c, .error (.invalidStreamState streamId))
  streamSendZc c _ _ _ := (c, .error .streamLimit)
  streamShutdown c _ _ _ := c
  streamPriority c _ _ _ := c
  dgramRecvVec c := (c, .error .done)
  dgramSend c _ := (c, .error .invalidState)
  display _ := "error"

end Aquic.Backend.Quiche

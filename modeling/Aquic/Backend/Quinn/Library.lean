import Aquic.Backend.Event
import Aquic.Lib.Net
import Aquic.Util.Timer.Wheel

/-!
# The quinn library

What the backend uses of the `quinn-proto` crate. The crate is a parameter of the development: the
methods of its connections are the fields of `Library`, over a type `Conn`, and those of its endpoint
are the fields of `EndpointLibrary`. A method that changes its object returns the new one. Endpoint
events, which the backend polls until there are none, are given as a list.

Stream ids and error codes of quinn are variable-length integers below `2 ^ 62`.
-/

namespace Aquic.Backend.Quinn

open Aquic.Net Aquic.Stream Aquic.Timer

/-- `quinn_proto::ConnectionHandle`. -/
abbrev ConnectionKey := Nat

/-- `quinn_proto::EcnCodepoint`. -/
inductive EcnCodepoint where
  | ect0
  | ect1
  | ce
  deriving DecidableEq, Repr

/-- `quinn_proto::Transmit`. -/
structure Transmit where
  destination : SocketAddr
  ecn : Option EcnCodepoint
  size : Nat
  segmentSize : Option Nat
  srcIp : Option IpAddr
  deriving DecidableEq, Repr

/-- `quinn_proto::Dir`. -/
inductive Dir where
  | bi
  | uni
  deriving DecidableEq, Repr

/-- `quinn_proto::ConnectionError`. -/
inductive ConnectionError where
  | versionMismatch
  | transportError (code : Nat) (reason : String)
  | connectionClosed (errorCode : Nat) (reason : List UInt8)
  | applicationClosed (errorCode : Nat) (reason : List UInt8)
  | reset
  | timedOut
  | locallyClosed
  | cidsExhausted
  deriving DecidableEq, Repr

/-- `quinn_proto::StreamEvent`. -/
inductive QuinnStreamEvent where
  | opened (dir : Dir)
  | readable (id : StreamId)
  | writable (id : StreamId)
  | finished (id : StreamId)
  | stopped (id : StreamId) (errorCode : Nat)
  | available (dir : Dir)
  deriving DecidableEq, Repr

/-- `quinn_proto::Event`. -/
inductive QuinnEvent where
  | handshakeDataReady
  | connected
  | connectionLost (reason : ConnectionError)
  | stream (event : QuinnStreamEvent)
  | datagramReceived
  | datagramsUnblocked
  deriving DecidableEq, Repr

/-- `quinn_proto::ReadableError`. -/
inductive ReadableError where
  | closedStream
  | illegalOrderedRead
  deriving DecidableEq, Repr

/-- `quinn_proto::ReadError`. -/
inductive ReadError where
  | blocked
  | reset (code : Nat)
  deriving DecidableEq, Repr

/-- `quinn_proto::WriteError`. -/
inductive WriteError where
  | blocked
  | stopped (code : Nat)
  | closedStream
  deriving DecidableEq, Repr

/-- `quinn_proto::FinishError`. -/
inductive FinishError where
  | stopped (code : Nat)
  | closedStream
  deriving DecidableEq, Repr

/-- `quinn_proto::SendDatagramError`. -/
inductive SendDatagramError where
  | unsupportedByPeer
  | disabled
  | tooLarge
  | blocked (bytes : List UInt8)
  deriving DecidableEq, Repr

structure Library (Conn : Type) where
  isDrained : Conn → Bool
  isClosed : Conn → Bool
  isServer : Conn → Bool
  currentMtu : Conn → Nat
  close : Conn → (now : Instant) → (code : Nat) → (reason : List UInt8) → Conn
  handleTimeout : Conn → (now : Instant) → Conn
  pollTimeout : Conn → Conn × Option Instant
  /-- The transmit, and the bytes appended to the buffer. -/
  pollTransmit : Conn → (now : Instant) → (maxDatagrams : Nat) →
    Conn × Option (Transmit × List UInt8)
  poll : Conn → Conn × Option QuinnEvent
  localAddressChanged : Conn → Conn
  pathChanged : Conn → (now : Instant) → Conn
  /-- `streams().open(..)`. -/
  openStream : Conn → Dir → Conn × Option StreamId
  /-- `streams().accept(..)`. -/
  acceptStream : Conn → Dir → Conn × Option StreamId
  /-- `recv_stream(..).read(true)`. -/
  readStream : Conn → StreamId → Conn × Except ReadableError Unit
  /-- `Chunks::next`: a chunk, or `none` at the end of the stream. -/
  nextChunk : Conn → StreamId → (maxLength : Nat) → Conn × Except ReadError (Option (List UInt8))
  /-- `send_stream(..).write_chunks(..)` of one chunk: what is left of it, or `none` if it was written
  completely. -/
  writeChunk : Conn → StreamId → (bytes : List UInt8) → Conn × Except WriteError (Option (List UInt8))
  finish : Conn → StreamId → Conn × Except FinishError Unit
  /-- `recv_stream(..).stop(..)`; a failure is ignored, here and below. -/
  stop : Conn → StreamId → (code : Nat) → Conn
  reset : Conn → StreamId → (code : Nat) → Conn
  setPriority : Conn → StreamId → (priority : Int) → Conn
  /-- `datagrams().recv()`. -/
  recvDatagram : Conn → Conn × Option (List UInt8)
  /-- `datagrams().send(bytes, false)`. -/
  sendDatagram : Conn → (bytes : List UInt8) → Conn × Except SendDatagramError Unit
  /-- `datagrams().max_size()`. -/
  datagramMaxSize : Conn → Option Nat
  /-- The text of an error. -/
  display : ReadableError → String

/-- `quinn_proto::DatagramEvent`: what the endpoint makes of a packet. -/
inductive QuinnDatagramEvent (Incoming Signal : Type) where
  | connectionEvent (key : ConnectionKey) (event : Signal)
  | newConnection (incoming : Incoming)
  | response (transmit : Transmit)

/-- The endpoint, over its type `End`. Configurations are of the type `Cfg`; an `Incoming` is a
connection attempt; the endpoint sends a `Signal` to a connection and a connection a `Report` to the
endpoint. -/
structure EndpointLibrary (Conn End Cfg Incoming Signal Report : Type) where
  /-- A connection under a new handle, or the text of an error. -/
  connect : End → (now : Instant) → Cfg → (peerAddr : SocketAddr) → (serverName : String) →
    End × Except String (ConnectionKey × Conn)
  /-- The event, and the bytes appended to the buffer. -/
  handle : End → (now : Instant) → (fromAddr : SocketAddr) → (toAddr : IpAddr) →
    (ecn : Option EcnCodepoint) → (payload : List UInt8) →
    End × Option (QuinnDatagramEvent Incoming Signal) × List UInt8
  handleEvent : End → ConnectionKey → Report → End × Option Signal
  ignore : End → Incoming → End
  /-- The response, and the bytes appended to the buffer; a failure gives the attempt back. -/
  retry : End → Incoming → End × Except Incoming (Transmit × List UInt8)
  /-- A connection under a new handle, or the response of a refusal with the bytes appended to the
  buffer. -/
  accept : End → Incoming → (now : Instant) → Cfg →
    End × Except (Option (Transmit × List UInt8)) (ConnectionKey × Conn)
  remoteAddressValidated : Incoming → Bool
  /-- `Connection::handle_event`. -/
  deliver : Conn → Signal → Conn
  /-- `Connection::poll_endpoint_events`, until there are none. -/
  pollEndpointEvents : Conn → Conn × List Report

/-! ## A small instance -/

/-- Client connections that have nothing to transmit, and are drained or not. -/
def idleLibrary : Library Bool where
  isDrained drained := drained
  isClosed drained := drained
  isServer _ := false
  currentMtu _ := 1200
  close c _ _ _ := c
  handleTimeout c _ := c
  pollTimeout c := (c, none)
  pollTransmit c _ _ := (c, none)
  poll c := (c, none)
  localAddressChanged c := c
  pathChanged c _ := c
  openStream c _ := (c, none)
  acceptStream c _ := (c, none)
  readStream c _ := (c, .error .closedStream)
  nextChunk c _ _ := (c, .error .blocked)
  writeChunk c _ _ := (c, .error .closedStream)
  finish c _ := (c, .error .closedStream)
  stop c _ _ := c
  reset c _ _ := c
  setPriority c _ _ := c
  recvDatagram c := (c, none)
  sendDatagram c _ := (c, .error .unsupportedByPeer)
  datagramMaxSize _ := none
  display _ := "error"

end Aquic.Backend.Quinn

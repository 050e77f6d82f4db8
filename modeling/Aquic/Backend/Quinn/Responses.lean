import Aquic.Backend.Quinn.Application
import Aquic.Lib.Run

/-!
# Responses of the quinn endpoint

For each packet `recv` takes one reserved buffer, which the endpoint may write a response to at three
places: in `handle` itself (a stateless reset, a version negotiation), and later on in `retry` and in
`accept`. The event that `handle` returns is dispatched with

    buffer.clear();
    self.handle_quinn_datagram_event(event, buffer, out_messages);

This gives `retry` and `accept` an empty buffer. It also throws away what `handle` has written, and the
message for a `Response` is made of an empty buffer, which `SendMsg::new` does not take.
-/

namespace Aquic.Backend.Quinn

open Aquic.Net Aquic.Run Aquic.Timer

/-- A response is one datagram of the size that the transmit says, to an address. -/
structure Transmit.Responds (transmit : Transmit) (bytes : List UInt8) : Prop where
  size : bytes.length = transmit.size
  size_pos : 0 < transmit.size
  segmentSize : transmit.segmentSize = none
  destination : transmit.destination.isUnspecified = false

/-- What the documentation of the endpoint says about the responses that it writes. -/
structure EndpointLibrary.Responds {Conn End Cfg Incoming Signal Report : Type}
    (lib : EndpointLibrary Conn End Cfg Incoming Signal Report) : Prop where
  handle e now fromAddr toAddr ecn payload e' transmit bytes :
    lib.handle e now fromAddr toAddr ecn payload = (e', some (.response transmit), bytes) →
    transmit.Responds bytes
  retry e incoming e' transmit bytes :
    lib.retry e incoming = (e', .ok (transmit, bytes)) → transmit.Responds bytes
  accept e incoming now cfg e' transmit bytes :
    lib.accept e incoming now cfg = (e', .error (some (transmit, bytes))) → transmit.Responds bytes

/-- A response that is still in its buffer becomes a message. -/
theorem Io.transmitToMsg_response (listenAddr : IpAddr) {transmit : Transmit} (buffer : VecBuf)
    (h : transmit.Responds buffer.bytes) :
    ∃ msg, Io.transmitToMsg .release listenAddr transmit buffer = some msg ∧ msg.buf = buffer := by
  have hlength : (Buf.asSlice buffer).length ≠ 0 := by
    show buffer.bytes.length ≠ 0
    rw [h.size]
    exact Nat.ne_of_gt h.size_pos
  refine ⟨⟨buffer, transmit.srcIp.getD listenAddr, transmit.destination, ecnOf transmit.ecn, 1⟩, ?_,
    rfl⟩
  simp only [Io.transmitToMsg, h.segmentSize, debugAssert_release, Option.bind_eq_bind, Option.bind_some]
  rw [SendMsg.new, if_neg hlength, if_neg fun h => absurd h.1 (Nat.lt_irrefl 1),
    if_neg (by rw [h.destination]; exact Bool.false_ne_true), if_neg fun h => Build.noConfusion h.1]

/-- There is no message for an empty buffer. -/
theorem Io.transmitToMsg_nil (listenAddr : IpAddr) (transmit : Transmit) {buffer : VecBuf}
    (h : buffer.bytes = []) : Io.transmitToMsg .release listenAddr transmit buffer = none := by
  have hlength : (Buf.asSlice buffer).length = 0 := List.length_eq_zero_iff.mpr h
  simp only [Io.transmitToMsg, Option.bind_eq_bind, Option.bind_eq_none_iff]
  intro _ _ segmentCount _
  rw [SendMsg.new, if_pos hlength]

namespace EndpointBackend

variable {Conn End Cfg Incoming Signal Report : Type}
  {env : Env Conn End Cfg Incoming Signal Report}

/-- The bytes that the endpoint writes in response to a connection attempt. -/
def attemptResponses (env : Env Conn End Cfg Incoming Signal Report)
    (b : EndpointBackend Conn End Cfg) (incoming : Incoming) : List (List UInt8) :=
  match b.config.server with
  | none => []
  | some server =>
    if env.endpoint.remoteAddressValidated incoming = false then
      match (env.endpoint.retry b.endpoint incoming).2 with
      | .ok (_, bytes) => [bytes]
      | .error _ => []
    else
      match (env.endpoint.accept b.endpoint incoming b.time.clock server).2 with
      | .error (some (_, bytes)) => [bytes]
      | _ => []

/-- The bytes that the endpoint writes in response to a packet, which it has answered with this event
and these bytes. -/
def responses (env : Env Conn End Cfg Incoming Signal Report) (b : EndpointBackend Conn End Cfg) :
    Option (QuinnDatagramEvent Incoming Signal) → List UInt8 → List (List UInt8)
  | some (.response _), bytes => [bytes]
  | some (.newConnection incoming), _ => attemptResponses env b incoming
  | _, _ => []

/-! ## Writing -/

variable (b : EndpointBackend Conn End Cfg) (capacity : Nat) (out : List Message)

theorem writeResponse_intact {transmit : Transmit} {bytes : List UInt8}
    (h : transmit.Responds bytes) :
    ∃ msg, b.writeResponse transmit bytes capacity out = some (b, out ++ [msg]) ∧
      msg.buf.bytes = bytes := by
  obtain ⟨msg, hmsg, hbuf⟩ := Io.transmitToMsg_response b.io.listenAddr
    ⟨bytes, max capacity bytes.length⟩ h
  refine ⟨msg, ?_, congrArg VecBuf.bytes hbuf⟩
  rw [writeResponse, hmsg, Option.map_some]

/-- `retry` and `accept` write to an empty buffer, and their responses are sent as they are. -/
theorem handleQuinnNewConnectionEvent_intact (hlib : env.endpoint.Responds)
    (incoming : Incoming) :
    ∃ b' msgs, b.handleQuinnNewConnectionEvent env incoming capacity out = some (b', out ++ msgs) ∧
      msgs.map (·.buf.bytes) = attemptResponses env b incoming := by
  unfold handleQuinnNewConnectionEvent attemptResponses
  cases hserver : b.config.server with
  | none => exact ⟨_, [], by rw [List.append_nil], rfl⟩
  | some server =>
    simp only
    -- an address that is not validated gets a `Retry`, and the others are accepted
    by_cases hvalidated : env.endpoint.remoteAddressValidated incoming = false
    · rw [if_pos hvalidated, if_pos hvalidated]
      cases hretry : env.endpoint.retry b.endpoint incoming with
      | mk endpoint result =>
        rcases result with incoming' | ⟨transmit, bytes⟩
        · exact ⟨_, [], by rw [List.append_nil], rfl⟩
        · obtain ⟨msg, hwrite, hbytes⟩ := writeResponse_intact { b with endpoint } capacity
            out (hlib.retry _ _ _ _ _ hretry)
          refine ⟨_, [msg], hwrite, ?_⟩
          rw [List.map_singleton, hbytes]
    · rw [if_neg hvalidated, if_neg hvalidated]
      cases haccept : env.endpoint.accept b.endpoint incoming b.time.clock server with
      | mk endpoint result =>
        rcases result with response | ⟨key, connection⟩
        · cases response with
          | none => exact ⟨_, [], by rw [List.append_nil], rfl⟩
          | some response =>
            obtain ⟨transmit, bytes⟩ := response
            obtain ⟨msg, hwrite, hbytes⟩ := writeResponse_intact { b with endpoint } capacity
              out (hlib.accept _ _ _ _ _ _ _ haccept)
            refine ⟨_, [msg], hwrite, ?_⟩
            rw [List.map_singleton, hbytes]
        · exact ⟨_, [], by rw [List.append_nil], rfl⟩

/-! ## One packet of a batch -/

/-- `recv` goes on with the packets that are left. -/
theorem recvLoop_append {fuel : Nat} {before : List Packet}
    {b b' : EndpointBackend Conn End Cfg} {out out' : List Message}
    (h : recvLoop env fuel before b out = some (b', [], out')) (packets : List Packet) :
    recvLoop env fuel (before ++ packets) b out = recvLoop env fuel packets b' out' := by
  induction before generalizing b out with
  | nil =>
    cases h
    rfl
  | cons packet before ih =>
    rw [List.cons_append, recvLoop]
    rw [recvLoop] at h
    revert h
    cases b.reservedBuffers with
    | nil =>
      intro h
      cases h
    | cons capacity pool =>
      generalize env.endpoint.handle b.endpoint b.time.clock packet.fromAddr packet.toAddr
        (codepointOf packet.ecn) packet.payload = result
      obtain ⟨endpoint, event, bytes⟩ := result
      simp only
      cases event with
      | none => exact ih
      | some event =>
        simp only
        split
        · intro h
          cases h
        · exact ih

/-- `recv` handles a packet of a batch: there is a buffer for it, and the endpoint returns an event and
what it has written. -/
structure Handling (env : Env Conn End Cfg Incoming Signal Report) where
  backend : EndpointBackend Conn End Cfg
  before : List Packet
  packet : Packet
  out : List Message
  fuel : Nat
  /-- The backend after the packets before, and the messages up to then. -/
  current : EndpointBackend Conn End Cfg
  sent : List Message
  reached : backend.recv env before out fuel = some (current, [], sent)
  capacity : Nat
  pool : List Nat
  reservedBuffers : current.reservedBuffers = capacity :: pool
  endpoint : End
  event : Option (QuinnDatagramEvent Incoming Signal)
  bytes : List UInt8
  handled : env.endpoint.handle current.endpoint current.time.clock packet.fromAddr packet.toAddr
    (codepointOf packet.ecn) packet.payload = (endpoint, event, bytes)

namespace Handling

/-- The backend that the event is dispatched to. -/
def dispatching (h : Handling env) : EndpointBackend Conn End Cfg :=
  { h.current with endpoint := h.endpoint, reservedBuffers := h.pool }

/-- The loops of a connection event take more iterations than there is fuel. -/
def Exhausted (h : Handling env) : Prop :=
  ∃ key signal, h.event = some (.connectionEvent key signal) ∧
    h.dispatching.handleQuinnConnectionEvent env key signal h.fuel = none

/-- `recv` does not panic, and a message is pushed for each response, with the bytes of the endpoint. -/
def Intact (h : Handling env) : Prop :=
  ¬ h.Exhausted → ∃ b' msgs,
    h.backend.recv env (h.before ++ [h.packet]) h.out h.fuel = some (b', [], h.sent ++ msgs) ∧
    msgs.map (·.buf.bytes) = responses env h.dispatching h.event h.bytes

theorem recv_eq (h : Handling env) :
    h.backend.recv env (h.before ++ [h.packet]) h.out h.fuel =
      match h.event with
      | none =>
        some (h.dispatching.returnBuffer (max h.capacity h.bytes.length), [], h.sent)
      | some event =>
        (h.dispatching.handleQuinnDatagramEvent env event (max h.capacity h.bytes.length) h.sent
          h.fuel).map fun (b, out) => (b, [], out) := by
  refine (recvLoop_append h.reached [h.packet]).trans ?_
  rw [recvLoop, h.reservedBuffers]
  simp only [h.handled]
  cases h.event with
  | none => rfl
  | some event =>
    simp only [dispatching]
    generalize handleQuinnDatagramEvent env _ event _ h.sent h.fuel = result
    cases result <;> rfl

/-- What `handle` has written is gone when the message is made. -/
theorem not_intact (h : Handling env) {transmit : Transmit}
    (hevent : h.event = some (.response transmit)) : ¬ h.Intact := by
  intro hintact
  have hfuel : ¬ h.Exhausted := by
    rintro ⟨key, signal, heq, -⟩
    rw [hevent] at heq
    cases heq
  obtain ⟨b', msgs, hrecv, -⟩ := hintact hfuel
  rw [recv_eq, hevent] at hrecv
  simp only [handleQuinnDatagramEvent, writeResponse] at hrecv
  rw [Io.transmitToMsg_nil _ _ rfl] at hrecv
  cases hrecv

theorem intact (hlib : env.endpoint.Responds) (h : Handling env)
    (hevent : ∀ transmit, h.event ≠ some (.response transmit)) : h.Intact := by
  intro hfuel
  rw [recv_eq]
  cases hcase : h.event with
  | none => exact ⟨_, [], by rw [List.append_nil], rfl⟩
  | some event =>
    cases event with
    | response transmit => exact absurd hcase (hevent transmit)
    | newConnection incoming =>
      obtain ⟨b', msgs, hhandled, hbytes⟩ := handleQuinnNewConnectionEvent_intact
        h.dispatching (max h.capacity h.bytes.length) h.sent hlib incoming
      refine ⟨b', msgs, ?_, hbytes⟩
      simp only [handleQuinnDatagramEvent]
      rw [hhandled, Option.map_some]
    | connectionEvent key signal =>
      cases hconnection : h.dispatching.handleQuinnConnectionEvent env key signal h.fuel with
      | none => exact absurd ⟨key, signal, hcase, hconnection⟩ hfuel
      | some b' =>
        refine ⟨b'.returnBuffer (max h.capacity h.bytes.length), [], ?_, rfl⟩
        simp only [handleQuinnDatagramEvent]
        rw [hconnection, List.append_nil]
        rfl

/-- **Responses are sent intact exactly for the packets that `handle` does not respond to itself.** -/
theorem intact_iff (hlib : env.endpoint.Responds) (h : Handling env) :
    h.Intact ↔ ∀ transmit, h.event ≠ some (.response transmit) := by
  constructor
  · intro hintact transmit hevent
    exact h.not_intact hevent hintact
  · exact h.intact hlib

end Handling

end EndpointBackend

/-! ## Two responses -/

def answer (size : Nat) : Transmit where
  destination := ⟨.localhost, 443⟩
  ecn := none
  size := size
  segmentSize := none
  srcIp := none

theorem answer_responds (byte : UInt8) : (answer 1).Responds [byte] := ⟨rfl, by decide, rfl, rfl⟩

/-- An endpoint that answers empty packets with the byte 1, and asks every other peer for a token with
the byte 2. -/
def answeringEndpoint : EndpointLibrary Bool Unit Unit Unit Unit Unit where
  connect _ _ _ _ _ := ((), .error "error")
  handle _ _ _ _ _ payload :=
    if payload = [] then ((), some (.response (answer 1)), [1])
    else ((), some (.newConnection ()), [])
  handleEvent _ _ _ := ((), none)
  ignore _ _ := ()
  retry _ _ := ((), .ok (answer 1, [2]))
  accept _ _ _ _ := ((), .error none)
  remoteAddressValidated _ := false
  deliver c _ := c
  pollEndpointEvents c := (c, [])

def answeringEnv : Env Bool Unit Unit Unit Unit Unit where
  quinn := idleLibrary
  endpoint := answeringEndpoint

theorem answeringEnv_responds : answeringEnv.endpoint.Responds where
  handle e now fromAddr toAddr ecn payload e' transmit bytes h := by
    change (if payload = [] then _ else _) = _ at h
    split at h
    · cases h
      exact answer_responds 1
    · cases h
  retry e incoming e' transmit bytes h := by
    cases h
    exact answer_responds 2
  accept e incoming now cfg e' transmit bytes h := by
    cases h

/-- A server with one reserved buffer. -/
def answeringServer : EndpointBackend Bool Unit Unit :=
  .new { client := none, server := some () } () [] [1500] .localhost .zero

/-- The first packet to it. -/
def answeringHandling (payload : List UInt8) : EndpointBackend.Handling answeringEnv where
  backend := answeringServer
  before := []
  packet := ⟨⟨.localhost, 443⟩, .localhost, .nEct, payload⟩
  out := []
  fuel := 1
  current := answeringServer
  sent := []
  reached := rfl
  capacity := 1500
  pool := []
  reservedBuffers := rfl
  endpoint := ()
  event := (answeringEndpoint.handle () .zero ⟨.localhost, 443⟩ .localhost none payload).2.1
  bytes := (answeringEndpoint.handle () .zero ⟨.localhost, 443⟩ .localhost none payload).2.2
  handled := rfl

/-- The packet that asks for a token is sent as it is. -/
theorem intact_iff_retry : (answeringHandling [0]).Intact := by
  refine (EndpointBackend.Handling.intact_iff answeringEnv_responds _).mpr fun transmit hevent => ?_
  cases hevent

/-- **A response of `handle` is a panic.** -/
theorem response_panics :
    Running.Init ⟨answeringServer, []⟩ ∧
    answeringServer.recv answeringEnv [(answeringHandling []).packet] [] 1 = none ∧
    ¬ (answeringHandling []).Intact :=
  ⟨⟨rfl, _, _, _, _, _, _, rfl⟩, rfl, (answeringHandling []).not_intact rfl⟩

end Aquic.Backend.Quinn

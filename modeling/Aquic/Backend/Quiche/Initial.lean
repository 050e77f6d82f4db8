import Aquic.Backend.Quiche.Backend

/-!
# Initial packets

`recv` gives an `Initial` packet to `handle_initial_packet_as_server` and to nobody else. That function
answers with a packet of its own, or registers a connection, or drops the packet; it never hands the
payload to a connection (`handleInitial_cases`). So an `Initial` packet for a registered connection
is lost, and a new server connection never sees the packet that opened it: `initial_delivered_iff`.

The function draws a new connection id for every `Initial` packet. The id of a `Retry` packet is
therefore not the source id of the connection that is accepted afterwards, unless the generator
repeats itself: `retry_scid_kept_iff`.
-/

namespace Aquic.Backend.Quiche

open Aquic.Cid Aquic.Collections Aquic.Net Aquic.Tokens

variable {Conn Cfg G T : Type} (env : Env Conn Cfg G T)

namespace QuicheBackend

/-! ## Everything an `Initial` packet can do -/

/-- The id that is drawn for the next `Initial` packet. -/
def nextScid (b : QuicheBackend Conn Cfg G T) : ConnectionId :=
  (env.cids.generate b.config.connectionIdGenerator).2

/-- quiche accepts a connection from this peer. -/
def accepts (b : QuicheBackend Conn Cfg G T) (server : ServerConfig Cfg T) (packet : Packet)
    (token : Option Token) : Bool :=
  (env.quiche.accept server.quiche (b.nextScid env).bytes (originalDcid token)
    (toSockAddr b.listenAddr) packet.fromAddr).2.isOk

/-- **A new connection is admitted**: the backend is open and has a server configuration, the version
is supported, the ids are not too long, the token is verified or the firewall allows unverified peers,
and quiche accepts. -/
def admits (b : QuicheBackend Conn Cfg G T) (header : Header) (packet : Packet) : Bool :=
  match b.config.server with
  | none => false
  | some server =>
    b.isOpen && env.quiche.versionIsSupported header.version &&
      header.scid.length ≤ maxCidLen && header.dcid.length ≤ maxCidLen &&
      match (verifyInitialToken env b server header packet).2 with
      | .drop => false
      | .valid token => b.accepts env server packet (some token)
      | .absent =>
        server.allowUnverified packet.fromAddr b.connections.serverConnectionsCount
          b.connections.serverUnverifiedConnectionsCount && b.accepts env server packet none

/-- A connection was registered under a new key. -/
def Registers (b b' : QuicheBackend Conn Cfg G T) (key : ConnectionKey) : Prop :=
  b.connections.get key = none ∧ (b'.connections.get key).isSome

theorem scheduleEstablishTimeout_touches {b b' : QuicheBackend Conn Cfg G T} {key : ConnectionKey}
    (h : b.scheduleEstablishTimeout env key = some b') : Touches key b b' := by
  unfold scheduleEstablishTimeout at h
  split at h
  · cases h
    exact .refl key b
  · simp only at h
    split at h
    · cases h
      exact .refl key b
    · obtain ⟨due, -, rfl⟩ := Option.map_eq_some_iff.mp h
      exact scheduleTimer_touches ..

theorem registerNewConnection_spec {b b' : QuicheBackend Conn Cfg G T} {c : Connection Conn}
    {peerAddr : SocketAddr} {key : ConnectionKey}
    (h : b.registerNewConnection env c peerAddr = some (b', key)) :
    Registers b b' key ∧ b'.calls = b.calls := by
  simp only [registerNewConnection, Option.bind_eq_bind, Option.bind_eq_some_iff] at h
  obtain ⟨⟨connections, key'⟩, hinsert, b₁, hschedule, h⟩ := h
  obtain ⟨rfl, rfl⟩ := Prod.mk.inj (Option.some.inj h)
  obtain ⟨hfresh, hget⟩ := Connections.insert_spec env.quiche hinsert
  have htouches := (scheduleTimer_touches { b with connections } key' .quicheTimeout fun c =>
    env.quiche.timeoutInstant c.inner).trans (scheduleEstablishTimeout_touches env hschedule)
  refine ⟨⟨hfresh, htouches.live ?_⟩, htouches.calls⟩
  show (connections.get key').isSome
  rw [hget, if_pos rfl]
  rfl

theorem acceptConnection_cases {b b' : QuicheBackend Conn Cfg G T} {server : ServerConfig Cfg T}
    {packet : Packet} {scid : ConnectionId} {token : Option Token}
    (h : b.acceptConnection env server packet scid token = some b') :
    let accepted := (env.quiche.accept server.quiche scid.bytes (originalDcid token)
      (toSockAddr b.listenAddr) packet.fromAddr).2.isOk
    (accepted = true ∧ ∃ key, Registers b b' key ∧
      b'.calls = b.calls ++ [.accept key scid.bytes (originalDcid token)]) ∨
    (accepted = false ∧ b'.connections = b.connections ∧ b'.calls = b.calls) := by
  unfold acceptConnection at h
  generalize env.quiche.accept server.quiche scid.bytes (originalDcid token)
    (toSockAddr b.listenAddr) packet.fromAddr = accepted at h ⊢
  obtain ⟨quiche, result⟩ := accepted
  cases result with
  | error e =>
    cases h
    exact .inr ⟨rfl, rfl, rfl⟩
  | ok connection =>
    obtain ⟨⟨b₁, key⟩, hregister, rfl⟩ := Option.map_eq_some_iff.mp h
    obtain ⟨hregisters, hcalls⟩ := registerNewConnection_spec env hregister
    exact .inl ⟨rfl, key, hregisters, congrArg (· ++ _) hcalls⟩

theorem respondWithRetry_cases {b b' : QuicheBackend Conn Cfg G T} {server : ServerConfig Cfg T}
    {header : Header} {packet : Packet} {scid : ConnectionId} {out out' : List Message}
    {consumed : Bool}
    (h : b.respondWithRetry env server header packet scid out = some (b', out', consumed)) :
    b'.connections = b.connections ∧
    (b'.calls = b.calls ∨ ∃ token, b'.calls = b.calls ++ [.retry scid.bytes token]) := by
  simp only [respondWithRetry, Option.bind_eq_bind, Option.bind_eq_some_iff] at h
  obtain ⟨expiresAt, -, h⟩ := h
  split at h
  · cases h
    exact ⟨rfl, .inl rfl⟩
  · next retryToken =>
    obtain ⟨⟨io, out₁, result⟩, -, h⟩ := Option.bind_eq_some_iff.mp h
    split at h <;> cases h
    · exact ⟨rfl, .inr ⟨_, rfl⟩⟩
    · exact ⟨rfl, .inl rfl⟩
    · exact ⟨rfl, .inl rfl⟩

/-- **Everything `handle_initial_packet_as_server` can do.** -/
theorem handleInitial_cases {b b' : QuicheBackend Conn Cfg G T} {header : Header} {packet : Packet}
    {out out' : List Message} {consumed : Bool} (hopen : b.isOpen = true)
    (h : b.handleInitialPacketAsServer env header packet out = some (b', out', consumed)) :
    (b.admits env header packet = true ∧ ∃ key odcid, Registers b b' key ∧
      b'.calls = b.calls ++ [.accept key (b.nextScid env).bytes odcid]) ∨
    (b.admits env header packet = false ∧ b'.connections = b.connections ∧
      (b'.calls = b.calls ∨ ∃ token, b'.calls = b.calls ++ [.retry (b.nextScid env).bytes token]))
    := by
  unfold handleInitialPacketAsServer at h
  unfold admits
  cases hserver : b.config.server with
  | none =>
    simp only [hserver] at h
    cases h
    exact .inr ⟨rfl, rfl, .inl rfl⟩
  | some server =>
    simp only [hserver, hopen, Bool.true_and] at h ⊢
    split at h
    · next hversion =>
      obtain ⟨⟨io, out₁, result⟩, -, h⟩ := Option.bind_eq_some_iff.mp h
      cases h
      exact .inr ⟨by simp [hversion], rfl, .inl rfl⟩
    · next hversion =>
      have hversion : env.quiche.versionIsSupported header.version = true := by simpa using hversion
      split at h
      · next hlong =>
        cases h
        refine .inr ⟨?_, rfl, .inl rfl⟩
        rcases hlong with hlong | hlong <;> simp [Nat.not_le.mpr hlong]
      · next hlong =>
        obtain ⟨hscid, hdcid⟩ := not_or.mp hlong
        simp only [hversion, Nat.not_lt.mp hscid, Nat.not_lt.mp hdcid, decide_true, Bool.true_and]
        generalize verifyInitialToken env b server header packet = verified at h ⊢
        obtain ⟨tokens, verdict⟩ := verified
        cases verdict with
        | drop =>
          cases h
          exact .inr ⟨rfl, rfl, .inl rfl⟩
        | valid token =>
          obtain ⟨b₁, haccept, heq⟩ := Option.map_eq_some_iff.mp h
          cases heq
          rcases acceptConnection_cases env haccept with ⟨hok, key, hregisters, hcalls⟩ | hrefused
          · exact .inl ⟨hok, key, _, hregisters, hcalls⟩
          · exact .inr ⟨hrefused.1, hrefused.2.1, .inl hrefused.2.2⟩
        | absent =>
          simp only at h ⊢
          split at h
          · next hallow =>
            obtain ⟨b₁, haccept, heq⟩ := Option.map_eq_some_iff.mp h
            cases heq
            simp only [hallow, Bool.true_and]
            rcases acceptConnection_cases env haccept with ⟨hok, key, hregisters, hcalls⟩ | hrefused
            · exact .inl ⟨hok, key, _, hregisters, hcalls⟩
            · exact .inr ⟨hrefused.1, hrefused.2.1, .inl hrefused.2.2⟩
          · next hallow =>
            obtain ⟨hconnections, hcalls⟩ := respondWithRetry_cases env h
            exact .inr ⟨by simp [hallow], hconnections, hcalls⟩

/-! ## Consumed packets -/

/-- `recv` finds `packet` in the state `b₁`, and leaves `b₂` when it is done with it. -/
def Consumes (b : QuicheBackend Conn Cfg G T) (inPackets : List Packet) (outMessages : List Message)
    (packet : Packet) (b₁ b₂ : QuicheBackend Conn Cfg G T) : Prop :=
  ∃ before after out₁ out₂, inPackets = before ++ packet :: after ∧
    recvLoop env (env.cids.cidLen b.config.connectionIdGenerator) before { b with calls := [] }
      outMessages = some (b₁, [], out₁) ∧
    recvPacket env (env.cids.cidLen b.config.connectionIdGenerator) b₁ packet out₁ =
      some (b₂, out₂, true)

/-- A packet in front of the unconsumed ones was found in some state. -/
theorem recvLoop_consumes {cidLength : Nat} {before after rest : List Packet} {packet : Packet}
    {b b' : QuicheBackend Conn Cfg G T} {out out' : List Message}
    (h : recvLoop env cidLength (before ++ packet :: after) b out = some (b', rest, out'))
    (hrest : rest.length ≤ after.length) :
    ∃ b₁ out₁ b₂ out₂, recvLoop env cidLength before b out = some (b₁, [], out₁) ∧
      recvPacket env cidLength b₁ packet out₁ = some (b₂, out₂, true) := by
  induction before generalizing b out with
  | nil =>
    simp only [List.nil_append, recvLoop] at h
    split at h
    · cases h
    · next b₂ out₂ hpacket => exact ⟨b, out, b₂, out₂, rfl, hpacket⟩
    · cases h
      exact absurd hrest (by simp)
  | cons first before ih =>
    simp only [List.cons_append, recvLoop] at h ⊢
    split at h
    · cases h
    · exact ih h
    · cases h
      simp at hrest
      omega

/-- Every packet that `recv` takes from its input is consumed. -/
theorem recv_consumes {before after rest : List Packet} {packet : Packet}
    {b b' : QuicheBackend Conn Cfg G T} {outMessages out' : List Message}
    (h : b.recv env (before ++ packet :: after) outMessages = some (b', rest, out'))
    (hrest : rest.length ≤ after.length) :
    ∃ b₁ b₂, Consumes env b (before ++ packet :: after) outMessages packet b₁ b₂ := by
  obtain ⟨b₁, out₁, b₂, out₂, hbefore, hpacket⟩ := recvLoop_consumes env h hrest
  exact ⟨b₁, b₂, before, after, out₁, out₂, rfl, hbefore, hpacket⟩

/-- `recv` consumes an `Initial` packet, with this header. -/
def ConsumesInitial (header : Header) (packet : Packet) (b₁ b₂ : QuicheBackend Conn Cfg G T) :
    Prop :=
  ∃ b inPackets outMessages, Consumes env b inPackets outMessages packet b₁ b₂ ∧
    env.quiche.headerFromSlice packet.payload
      (env.cids.cidLen b.config.connectionIdGenerator) = some header ∧
    header.ty = .initial

/-- Everything the consumption of an `Initial` packet can do. -/
theorem ConsumesInitial.cases {header : Header} {packet : Packet}
    {b₁ b₂ : QuicheBackend Conn Cfg G T} (h : ConsumesInitial env header packet b₁ b₂) :
    (b₁.admits env header packet = true ∧ ∃ key odcid, Registers b₁ b₂ key ∧
      b₂.calls = b₁.calls ++ [.accept key (b₁.nextScid env).bytes odcid]) ∨
    (b₁.admits env header packet = false ∧ b₂.connections = b₁.connections ∧
      (b₂.calls = b₁.calls ∨
        ∃ token, b₂.calls = b₁.calls ++ [.retry (b₁.nextScid env).bytes token])) := by
  obtain ⟨b, inPackets, outMessages, ⟨_, _, out₁, out₂, _, _, hpacket⟩, hparse, hty⟩ := h
  simp only [recvPacket, hparse, hty, if_true] at hpacket
  split at hpacket
  · next hopen => exact handleInitial_cases env hopen hpacket
  · next hclosed =>
    cases hpacket
    refine .inr ⟨?_, rfl, .inl rfl⟩
    unfold admits
    split
    · rfl
    · simp [hclosed]

/-! ## Single packets

The peer of the small instance sends `Initial` packets; the states before and after the last packet of
a batch are computed. -/

def initialPacket (dcid token : List UInt8) : Packet where
  fromAddr := peerAddr
  toAddr := .localhost
  ecn := .nEct
  payload := [0xc0, 0, 0, 0, 1, UInt8.ofNat dcid.length] ++ dcid ++
    [1, 9, UInt8.ofNat token.length] ++ token

def initialPacketHeader (dcid token : List UInt8) : Header where
  ty := .initial
  version := 1
  dcid := dcid
  scid := [9]
  token := some token

/-- The states in which `recv` finds the last packet, and in which it leaves it. -/
def aroundLast (b : QuicheBackend Conn Cfg G T) (before : List Packet) (packet : Packet) :
    Option (QuicheBackend Conn Cfg G T × QuicheBackend Conn Cfg G T) :=
  let cidLength := env.cids.cidLen b.config.connectionIdGenerator
  match recvLoop env cidLength before { b with calls := [] } [] with
  | some (b₁, [], out₁) =>
    match recvPacket env cidLength b₁ packet out₁ with
    | some (b₂, _, true) => some (b₁, b₂)
    | _ => none
  | _ => none

theorem consumesInitial_of_aroundLast {header : Header} {packet : Packet} {before : List Packet}
    {b b₁ b₂ : QuicheBackend Conn Cfg G T} (h : b.aroundLast env before packet = some (b₁, b₂))
    (hparse : env.quiche.headerFromSlice packet.payload
      (env.cids.cidLen b.config.connectionIdGenerator) = some header)
    (hty : header.ty = .initial) : ConsumesInitial env header packet b₁ b₂ := by
  unfold aroundLast at h
  simp only at h
  split at h
  · next b₁' out₁ hbefore =>
    split at h
    · next b₂' out₂ hpacket =>
      cases h
      exact ⟨b, before ++ [packet], [], ⟨before, [], out₁, out₂, rfl, hbefore, hpacket⟩, hparse, hty⟩
    · cases h
  · cases h

/-! ## Delivery -/

/-- What the consumption of one packet added to the history. -/
def newCalls (b₁ b₂ : QuicheBackend Conn Cfg G T) : List Call := b₂.calls.drop b₁.calls.length

/-- The packet is routed to this connection: it is registered under the destination id, or under the
peer's address if the id is empty, and it is not closed. -/
def RoutedTo (b : QuicheBackend Conn Cfg G T) (header : Header) (packet : Packet)
    (key : ConnectionKey) : Prop :=
  b.connections.findConnectionKey header.dcid packet.fromAddr = some key ∧
  ∃ c, b.connections.get key = some c ∧ env.quiche.isClosed c.inner = false

/-- **The packet reaches its connection**: the one it is routed to, and the one it registers, get the
payload exactly once. -/
def Delivered (header : Header) (packet : Packet) (b₁ b₂ : QuicheBackend Conn Cfg G T) : Prop :=
  (∀ key, b₁.RoutedTo env header packet key →
    (newCalls b₁ b₂).count (.recv key packet.payload) = 1) ∧
  ∀ key, Registers b₁ b₂ key → (newCalls b₁ b₂).count (.recv key packet.payload) = 1

/-- No payload is handed to a connection. -/
theorem ConsumesInitial.count_recv {header : Header} {packet : Packet}
    {b₁ b₂ : QuicheBackend Conn Cfg G T} (h : ConsumesInitial env header packet b₁ b₂)
    (key : ConnectionKey) (payload : List UInt8) :
    (newCalls b₁ b₂).count (.recv key payload) = 0 := by
  rw [List.count_eq_zero]
  rcases h.cases with ⟨-, _, _, -, hcalls⟩ | ⟨-, -, hcalls | ⟨_, hcalls⟩⟩ <;>
    simp [newCalls, hcalls]

/-- **`Initial` packets are lost**: one reaches its connection only if there is none, neither a
registered one it is routed to, nor a new one that is admitted. -/
theorem initial_delivered_iff {header : Header} {packet : Packet}
    {b₁ b₂ : QuicheBackend Conn Cfg G T} (h : ConsumesInitial env header packet b₁ b₂) :
    Delivered env header packet b₁ b₂ ↔
      (¬ ∃ key, b₁.RoutedTo env header packet key) ∧ b₁.admits env header packet = false := by
  unfold Delivered
  simp only [h.count_recv, zero_ne_one, imp_false]
  rw [← not_exists]
  refine and_congr_right fun _ => ?_
  rcases h.cases with ⟨hadmits, key, odcid, hregisters, -⟩ | ⟨hadmits, hconnections, -⟩
  · exact iff_of_false (fun hnone => hnone key hregisters) (by simp [hadmits])
  · refine iff_of_true ?_ hadmits
    rintro key ⟨hnone, hsome⟩
    rw [hconnections, hnone] at hsome
    cases hsome

/-- A strict server without connections answers with a `Retry` packet; nobody misses the payload. -/
theorem initial_delivered_to_nobody :
    ∃ b b₁ b₂, idleServer 1 strictFirewall = some b ∧
      b.aroundLast idleEnv [] (initialPacket [1, 2, 3] []) = some (b₁, b₂) ∧
      Delivered idleEnv (initialPacketHeader [1, 2, 3] []) (initialPacket [1, 2, 3] []) b₁ b₂ := by
  have hrun : (idleServer 1 strictFirewall).any (fun b =>
      (b.aroundLast idleEnv [] (initialPacket [1, 2, 3] [])).any fun (b₁, _) => decide (
        b₁.connections.findConnectionKey [1, 2, 3] (initialPacket [1, 2, 3] []).fromAddr = none ∧
        b₁.admits idleEnv (initialPacketHeader [1, 2, 3] []) (initialPacket [1, 2, 3] []) =
          false)) = true := by
    decide +kernel
  obtain ⟨b, hb, hrun⟩ := (Option.any_eq_true ..).mp hrun
  obtain ⟨⟨b₁, b₂⟩, hstates, hrun⟩ := (Option.any_eq_true ..).mp hrun
  obtain ⟨hnone, hadmits⟩ := of_decide_eq_true hrun
  refine ⟨b, b₁, b₂, hb, hstates, (initial_delivered_iff idleEnv
    (consumesInitial_of_aroundLast idleEnv hstates rfl rfl)).mpr ⟨?_, hadmits⟩⟩
  rintro ⟨key, hfind, -⟩
  exact absurd (hnone.symm.trans hfind) (by simp)

/-- Two `Initial` packets for a server that admits everybody: the first opens a connection that never
sees it, the second is addressed to this connection and does not get there either. -/
theorem initial_packets_lost :
    ∃ b, idleServer 1 (fun _ _ _ => true) = some b ∧
      (∃ b₁ b₂, b.aroundLast idleEnv [] (initialPacket [1, 2, 3] []) = some (b₁, b₂) ∧
        b₁.isOpen = true ∧ Registers b₁ b₂ 0 ∧
        ¬ Delivered idleEnv (initialPacketHeader [1, 2, 3] []) (initialPacket [1, 2, 3] []) b₁ b₂) ∧
      ∃ b₁ b₂, b.aroundLast idleEnv [initialPacket [1, 2, 3] []] (initialPacket [0] []) =
          some (b₁, b₂) ∧
        b₁.isOpen = true ∧
        b₁.RoutedTo idleEnv (initialPacketHeader [0] []) (initialPacket [0] []) 0 ∧
        ¬ Delivered idleEnv (initialPacketHeader [0] []) (initialPacket [0] []) b₁ b₂ := by
  have hrun : (idleServer 1 fun _ _ _ => true).any (fun b =>
      ((b.aroundLast idleEnv [] (initialPacket [1, 2, 3] [])).any fun (b₁, b₂) => decide (
        b₁.isOpen = true ∧ b₁.connections.get 0 = none ∧ (b₂.connections.get 0).isSome)) &&
      (b.aroundLast idleEnv [initialPacket [1, 2, 3] []] (initialPacket [0] [])).any fun (b₁, _) =>
        decide (b₁.isOpen = true ∧
          b₁.connections.findConnectionKey [0] (initialPacket [0] []).fromAddr = some 0 ∧
          (b₁.connections.get 0).any (fun c => !c.inner.closed) = true)) = true := by
    decide +kernel
  obtain ⟨b, hb, hrun⟩ := (Option.any_eq_true ..).mp hrun
  obtain ⟨hfirst, hsecond⟩ := Bool.and_eq_true_iff.mp hrun
  refine ⟨b, hb, ?_, ?_⟩
  · obtain ⟨⟨b₁, b₂⟩, hstates, hrun⟩ := (Option.any_eq_true ..).mp hfirst
    obtain ⟨hopen, hregisters⟩ := of_decide_eq_true hrun
    have hconsumes : ConsumesInitial idleEnv (initialPacketHeader [1, 2, 3] []) _ b₁ b₂ :=
      consumesInitial_of_aroundLast idleEnv hstates rfl rfl
    refine ⟨b₁, b₂, hstates, hopen, hregisters, fun hdelivered => ?_⟩
    simpa [hconsumes.count_recv] using hdelivered.2 0 hregisters
  · obtain ⟨⟨b₁, b₂⟩, hstates, hrun⟩ := (Option.any_eq_true ..).mp hsecond
    obtain ⟨hopen, hfind, hlive⟩ := of_decide_eq_true hrun
    obtain ⟨c, hc, hclosed⟩ := (Option.any_eq_true ..).mp hlive
    have hconsumes : ConsumesInitial idleEnv (initialPacketHeader [0] []) _ b₁ b₂ :=
      consumesInitial_of_aroundLast idleEnv hstates rfl rfl
    have hrouted : b₁.RoutedTo idleEnv (initialPacketHeader [0] []) (initialPacket [0] []) 0 :=
      ⟨hfind, c, hc, (Bool.not_eq_true' _).mp hclosed⟩
    refine ⟨b₁, b₂, hstates, hopen, hrouted, fun hdelivered => ?_⟩
    simpa [hconsumes.count_recv] using hdelivered.1 0 hrouted

/-! ## The id of a `Retry` packet -/

/-- **A handshake with a `Retry`**: an `Initial` packet is answered with a `Retry` packet that carries
a source id and a token; later, whatever happened in between, the same peer sends an `Initial` packet
with this id and this token, the token is verified, and a connection is registered. -/
structure RetryHandshake where
  before₁ : QuicheBackend Conn Cfg G T
  after₁ : QuicheBackend Conn Cfg G T
  header₁ : Header
  packet₁ : Packet
  retryScid : List UInt8
  token : List UInt8
  first : ConsumesInitial env header₁ packet₁ before₁ after₁
  answered : after₁.calls = before₁.calls ++ [.retry retryScid token]
  before₂ : QuicheBackend Conn Cfg G T
  after₂ : QuicheBackend Conn Cfg G T
  header₂ : Header
  packet₂ : Packet
  server : ServerConfig Cfg T
  originalDcid : ConnectionId
  expiresAt : SystemTime
  key : ConnectionKey
  acceptedScid : List UInt8
  second : ConsumesInitial env header₂ packet₂ before₂ after₂
  samePeer : packet₂.fromAddr = packet₁.fromAddr
  echoedScid : header₂.dcid = retryScid
  echoedToken : header₂.token = some token
  isServer : before₂.config.server = some server
  verified : (verifyInitialToken env before₂ server header₂ packet₂).2 =
    .valid (.retry originalDcid expiresAt)
  registered : after₂.calls =
    before₂.calls ++ [.accept key acceptedScid (some originalDcid.bytes)]

/-- The id of an accepted connection is the one drawn for the packet that is handled. -/
theorem ConsumesInitial.accepted_scid {header : Header} {packet : Packet}
    {b₁ b₂ : QuicheBackend Conn Cfg G T} (h : ConsumesInitial env header packet b₁ b₂)
    {key : ConnectionKey} {scid : List UInt8} {odcid : Option (List UInt8)}
    (hcalls : b₂.calls = b₁.calls ++ [.accept key scid odcid]) :
    scid = (b₁.nextScid env).bytes := by
  rcases h.cases with ⟨-, _, _, -, h⟩ | ⟨-, -, h | ⟨_, h⟩⟩ <;> simp [h] at hcalls
  exact hcalls.2.1.symm

/-- … and so is the id of a `Retry` packet. -/
theorem ConsumesInitial.retry_scid {header : Header} {packet : Packet}
    {b₁ b₂ : QuicheBackend Conn Cfg G T} (h : ConsumesInitial env header packet b₁ b₂)
    {scid token : List UInt8} (hcalls : b₂.calls = b₁.calls ++ [.retry scid token]) :
    scid = (b₁.nextScid env).bytes := by
  rcases h.cases with ⟨-, _, _, -, h⟩ | ⟨-, -, h | ⟨_, h⟩⟩ <;> simp [h] at hcalls
  exact hcalls.1.symm

/-- **The id of the `Retry` packet is kept** exactly when the generator draws it again for the second
`Initial` packet. -/
theorem retry_scid_kept_iff (r : RetryHandshake env) :
    r.acceptedScid = r.retryScid ↔ r.before₂.nextScid env = r.before₁.nextScid env := by
  rw [r.second.accepted_scid env r.registered, r.first.retry_scid env r.answered]
  constructor
  · intro h
    cases hx : r.before₂.nextScid env
    cases hy : r.before₁.nextScid env
    simp_all
  · intro h
    rw [h]

/-- A run of the small instance, read as a handshake with a `Retry`. -/
theorem exists_retryHandshake (length : Fin (maxCidLen + 1)) {retryScid acceptedScid : List UInt8}
    (p : QuicheBackend IdleConnection Unit RandomIdGenerator Unit →
      QuicheBackend IdleConnection Unit RandomIdGenerator Unit → Bool)
    (h : (idleServer length strictFirewall).any (fun b =>
      (b.aroundLast idleEnv [] (initialPacket [1, 2, 3] [])).any fun (b₁, b₂) =>
        (b.aroundLast idleEnv [initialPacket [1, 2, 3] []] (initialPacket retryScid [1, 2, 3])).any
          fun (b₃, b₄) =>
            decide (b₂.calls = b₁.calls ++ [.retry retryScid [1, 2, 3]] ∧
              b₄.calls = b₃.calls ++ [.accept 0 acceptedScid (some [1, 2, 3])] ∧
              initialHeader (initialPacket retryScid [1, 2, 3]).payload =
                some (initialPacketHeader retryScid [1, 2, 3])) &&
            b₃.config.server.any (fun server => decide ((verifyInitialToken idleEnv b₃ server
              (initialPacketHeader retryScid [1, 2, 3]) (initialPacket retryScid [1, 2, 3])).2 =
                .valid (.retry ⟨[1, 2, 3], by decide⟩ 0))) &&
            p b₁ b₃) = true) :
    ∃ r : RetryHandshake idleEnv, r.retryScid = retryScid ∧ r.acceptedScid = acceptedScid ∧
      p r.before₁ r.before₂ = true := by
  obtain ⟨b, -, h⟩ := (Option.any_eq_true ..).mp h
  obtain ⟨⟨b₁, b₂⟩, hfirst, h⟩ := (Option.any_eq_true ..).mp h
  obtain ⟨⟨b₃, b₄⟩, hsecond, h⟩ := (Option.any_eq_true ..).mp h
  obtain ⟨h, hp⟩ := Bool.and_eq_true_iff.mp h
  obtain ⟨h, hverified⟩ := Bool.and_eq_true_iff.mp h
  obtain ⟨hretry, haccept, hparse⟩ := of_decide_eq_true h
  obtain ⟨server, hserver, hverified⟩ := (Option.any_eq_true ..).mp hverified
  exact ⟨{
    before₁ := b₁
    after₁ := b₂
    header₁ := initialPacketHeader [1, 2, 3] []
    packet₁ := initialPacket [1, 2, 3] []
    retryScid := retryScid
    token := [1, 2, 3]
    first := consumesInitial_of_aroundLast idleEnv hfirst rfl rfl
    answered := hretry
    before₂ := b₃
    after₂ := b₄
    header₂ := initialPacketHeader retryScid [1, 2, 3]
    packet₂ := initialPacket retryScid [1, 2, 3]
    server := server
    originalDcid := ⟨[1, 2, 3], by decide⟩
    expiresAt := 0
    key := 0
    acceptedScid := acceptedScid
    second := consumesInitial_of_aroundLast idleEnv hsecond hparse rfl
    samePeer := rfl
    echoedScid := rfl
    echoedToken := rfl
    isServer := hserver
    verified := of_decide_eq_true hverified
    registered := haccept }, rfl, rfl, hp⟩

/-- Zero-length ids repeat themselves. -/
theorem retry_scid_kept_empty :
    ∃ r : RetryHandshake idleEnv, r.retryScid = [] ∧ r.acceptedScid = r.retryScid := by
  have hrun : ∃ r : RetryHandshake idleEnv, r.retryScid = [] ∧ r.acceptedScid = [] ∧
      decide (r.before₂.nextScid idleEnv = r.before₁.nextScid idleEnv) = true :=
    exists_retryHandshake 0 (fun b₁ b₃ => decide (b₃.nextScid idleEnv = b₁.nextScid idleEnv))
      (by decide +kernel)
  obtain ⟨r, hscid, -, hsame⟩ := hrun
  exact ⟨r, hscid, (retry_scid_kept_iff idleEnv r).mpr (of_decide_eq_true hsame)⟩

/-- Random ids do not: the `Retry` packet carries the id `[0]`, and the connection is accepted with
`[1]`. -/
theorem retry_scid_replaced :
    ∃ r : RetryHandshake idleEnv, r.retryScid = [0] ∧ r.acceptedScid = [1] := by
  have hrun : ∃ r : RetryHandshake idleEnv, r.retryScid = [0] ∧ r.acceptedScid = [1] ∧
      (fun _ _ => true) r.before₁ r.before₂ = true :=
    exists_retryHandshake 1 (fun _ _ => true) (by decide +kernel)
  obtain ⟨r, hretry, haccepted, -⟩ := hrun
  exact ⟨r, hretry, haccepted⟩

end QuicheBackend

end Aquic.Backend.Quiche

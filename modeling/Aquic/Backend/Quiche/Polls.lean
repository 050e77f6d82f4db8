import Aquic.Backend.Quiche.Moves

/-!
# The history of a run

Which marks an operation leaves, in order, and that it makes these moves and no others. `send` and
`recv` poll the connections that they have worked on; the states in which they do so are computed here
beside the loops themselves.

`Recorded` is a backend in use together with the marks of all its operations so far.
-/

namespace Aquic.Backend.Quiche

open Aquic.Cid Aquic.Net Aquic.Run Aquic.Stream Aquic.Trace

namespace QuicheBackend

variable {Conn Cfg G T : Type} (env : Env Conn Cfg G T)

/-! ## Marks -/

/-- The mark of `write_stream_dgram_events`, if the connection is there. -/
def polled (b : QuicheBackend Conn Cfg G T) (key : ConnectionKey) : List (Mark Conn) :=
  match b.connections.get key, (b.writeStreamDgramEvents env key).connections.get key with
  | some before, some after =>
    [.polled key before after (newEvents b (b.writeStreamDgramEvents env key))]
  | _, _ => []

/-- The state in which `send_packets` polls the connection. -/
def sendPacketsPoll (b : QuicheBackend Conn Cfg G T) (key : ConnectionKey) (out : List Message) :
    Option (QuicheBackend Conn Cfg G T) :=
  match b.connections.get key with
  | none => none
  | some c =>
    (b.io.writePending .release env.quiche c out b.time.clock).map fun written =>
      ({ b with io := written.io }.put key written.connection).log (.writePending key)

def sendPacketsMarks (b : QuicheBackend Conn Cfg G T) (key : ConnectionKey) (out : List Message) :
    List (Mark Conn) :=
  match b.sendPacketsPoll env key out with
  | none => []
  | some b => b.polled env key

def sendLoopMarks : Nat → QuicheBackend Conn Cfg G T → List Message → List (Mark Conn)
  | 0, _, _ => []
  | count + 1, b, out =>
    let b := b.peekActive
    match b.connections.active.front with
    | none => []
    | some key =>
      match b.connections.get key with
      | none => []
      | some c =>
        if env.quiche.isClosed c.inner then
          sendLoopMarks count (b.forgetConnection env key).nextActive out
        else
          b.sendPacketsMarks env key out ++
            match b.sendPackets env key out with
            | none => []
            | some (b, out, .done) => sendLoopMarks count b.nextActive out
            | some (b, out, .reactivate) => sendLoopMarks count (b.nextActive.markActive key) out
            | some (_, _, .stopAndRetry) => []

def sendMarks (b : QuicheBackend Conn Cfg G T) (out : List Message) : List (Mark Conn) :=
  let b := { handleScheduledEvents env b with calls := [] }
  sendLoopMarks env b.connections.active.length b out

/-- The part of `delegate_packet` in which the connection receives the packet. -/
def receivePacket (b : QuicheBackend Conn Cfg G T) (key : ConnectionKey) (c : Connection Conn)
    (header : Header) (packet : Packet) : QuicheBackend Conn Cfg G T :=
  let (inner, result) := env.quiche.recv c.inner packet.payload
    { source := packet.fromAddr, destination := toSockAddr packet.toAddr }
  let c := { c with inner }
  let b := (b.put key c).log (.recv key packet.payload)
  let ended := env.quiche.isDraining inner || env.quiche.isClosed inner
  match result with
  | .ok _ =>
    if header.ty = PacketType.handshake then b.checkConnectionHandshakeProgress env key else b
  | .error e =>
    let (c, halted) :=
      if e = QuicheError.unknownVersion ∧ ended then c.getHaltEvent key .unknownVersion else (c, none)
    let (c, closed) := if ended then c.getCloseEvent env.quiche key else (c, none)
    (b.put key c).push ((halted.toList ++ closed.toList).map .connection)

/-- The state in which `delegate_packet` polls a connection. -/
def delegatePacketPoll (b : QuicheBackend Conn Cfg G T) (header : Header) (packet : Packet) :
    Option (ConnectionKey × QuicheBackend Conn Cfg G T) :=
  match b.connections.findConnectionKey header.dcid packet.fromAddr with
  | none => none
  | some key =>
    match b.connections.getMarkActive key with
    | none => none
    | some (connections, c) =>
      if env.quiche.isClosed c.inner then
        none
      else
        let b := receivePacket env { b with connections } key c header packet
        some (key, b.handlePathEvents env key)

def delegatePacketMarks (b : QuicheBackend Conn Cfg G T) (header : Header) (packet : Packet) :
    List (Mark Conn) :=
  match b.delegatePacketPoll env header packet with
  | none => []
  | some (key, b) => b.polled env key

def recvPacketMarks (cidLength : Nat) (b : QuicheBackend Conn Cfg G T) (packet : Packet) :
    List (Mark Conn) :=
  match env.quiche.headerFromSlice packet.payload cidLength with
  | none => []
  | some header =>
    if header.ty = PacketType.initial then [] else b.delegatePacketMarks env header packet

def recvLoopMarks (cidLength : Nat) :
    List Packet → QuicheBackend Conn Cfg G T → List Message → List (Mark Conn)
  | [], _, _ => []
  | packet :: packets, b, out =>
    b.recvPacketMarks env cidLength packet ++
      match recvPacket env cidLength b packet out with
      | some (b, out, true) => recvLoopMarks cidLength packets b out
      | _ => []

def recvMarks (b : QuicheBackend Conn Cfg G T) (inPackets : List Packet)
    (outMessages : List Message) : List (Mark Conn) :=
  recvLoopMarks env (env.cids.cidLen b.config.connectionIdGenerator) inPackets { b with calls := [] }
    outMessages

/-- How a read ended, by the result of `dgram_recv_zc`. `dgram_recv` copies the datagram and returns
its length, which is `0` if it is empty. -/
def readOutcome (copies : Bool) : Except Error (Option (List UInt8)) → ReadOutcome
  | .ok none => .missing
  | .ok (some []) => if copies then .empty else .other
  | _ => .other

/-- The marks of an operation. -/
def marks (b : QuicheBackend Conn Cfg G T) : Operation → List (Mark Conn)
  | .send out => b.sendMarks env out
  | .recv inPackets outMessages => b.recvMarks env inPackets outMessages
  | .streamOpenSend key bidirectional bytes fin =>
    match (b.streamOpenSend env key bidirectional bytes fin).2 with
    | .error .streamsExhausted => [.refused key bidirectional]
    | _ => []
  | .dgramRecv key _ => [.read key (readOutcome true (b.dgramRecvZc env key).2)]
  | .dgramRecvZc key => [.read key (readOutcome false (b.dgramRecvZc env key).2)]
  | _ => []

/-- `dgram_recv` returns `0` if there is no datagram, and if it is empty. -/
theorem dgramRecv_nothing_iff (b : QuicheBackend Conn Cfg G T) (key : ConnectionKey)
    (outLen : Nat) : (b.dgramRecv env key outLen).2 = .ok [] ↔
      readOutcome true (b.dgramRecvZc env key).2 ≠ .other := by
  unfold dgramRecv
  simp only
  generalize (b.dgramRecvZc env key).2 = result
  rcases result with e | _ | _ | ⟨byte, bytes⟩
  · simp [readOutcome, Except.bind]
  · simp [readOutcome, Except.bind]
  · simp [readOutcome, Except.bind]
  · simp only [readOutcome, Except.bind, ne_eq, not_true_eq_false, iff_false]
    split <;> simp

/-- … and `dgram_recv_zc` returns `None` only if there is none. -/
theorem dgramRecvZc_nothing_iff (b : QuicheBackend Conn Cfg G T) (key : ConnectionKey) :
    (b.dgramRecvZc env key).2 = .ok none ↔ readOutcome false (b.dgramRecvZc env key).2 ≠ .other := by
  generalize (b.dgramRecvZc env key).2 = result
  rcases result with e | _ | _ | ⟨byte, bytes⟩ <;> simp [readOutcome]

/-! ## Moves of the operations -/

variable {env} {b b' : QuicheBackend Conn Cfg G T} {key : ConnectionKey} {c : Connection Conn}

theorem polled_moves (b : QuicheBackend Conn Cfg G T) (key : ConnectionKey) :
    Moves env b (b.polled env key) (b.writeStreamDgramEvents env key) := by
  unfold polled
  cases hget : b.connections.get key with
  | none =>
    have hsame : b.writeStreamDgramEvents env key = b := by
      unfold writeStreamDgramEvents
      rw [hget]
    rw [hsame]
    exact .nil b
  | some c =>
    have hlive := (writeStreamDgramEvents_touches env b key).live (Option.isSome_of_eq_some hget)
    obtain ⟨c', hget'⟩ := Option.isSome_iff_exists.mp hlive
    rw [hget']
    exact .single (.poll hget hget')

/-! ### `send` -/

theorem sendPackets_moves {out out' : List Message} {result : SendResult}
    (h : b.sendPackets env key out = some (b', out', result)) :
    Moves env b (b.sendPacketsMarks env key out) b' := by
  unfold sendPackets at h
  unfold sendPacketsMarks sendPacketsPoll
  cases hget : b.connections.get key with
  | none =>
    simp only [hget] at h
    cases h
    exact .nil b
  | some c =>
    simp only [hget] at h
    cases hwritten : b.io.writePending .release env.quiche c out b.time.clock with
    | none =>
      simp only [hwritten] at h
      cases h
    | some written =>
      simp only [hwritten, Option.map_some] at h ⊢
      have hio : Quiet env b { b with io := written.io } := .of_eq rfl rfl
      have hput : Quiet env { b with io := written.io }
          ({ b with io := written.io }.put key written.connection) :=
        .edit hget (writePending_edits hwritten)
      have hlog (b₁ : QuicheBackend Conn Cfg G T) (call : Call) : Quiet env b₁ (b₁.log call) :=
        .of_eq rfl rfl
      -- up to the poll this is `sendPacketsPoll`; then timers are set
      have hpoll := ((hio.trans hput).trans (hlog _ (.writePending key))).moves (polled_moves _ key)
      have hmoves := hpoll.quiet
        (scheduleTimer_quiet _ key .quicheTimeout fun c => env.quiche.timeoutInstant c.inner)
      split at h <;> cases h
      · exact hmoves
      · exact hmoves.quiet (scheduleTimer_quiet ..)
      · exact hmoves
      · exact hmoves
      · exact hmoves

theorem sendLoop_moves {count : Nat} {out out' : List Message}
    (h : sendLoop env count b out = some (b', out')) :
    Moves env b (sendLoopMarks env count b out) b' := by
  induction count generalizing b out with
  | zero =>
    obtain ⟨rfl, rfl⟩ := Prod.mk.inj (Option.some.inj h)
    exact Quiet.active ⟨_, rfl⟩
  | succ count ih =>
    have hpeek : Quiet env b b.peekActive := .active ⟨_, rfl⟩
    have hnext (b₁ : QuicheBackend Conn Cfg G T) : Quiet env b₁ b₁.nextActive := .active ⟨_, rfl⟩
    unfold sendLoop at h
    unfold sendLoopMarks
    apply hpeek.moves
    simp only at h ⊢
    cases hfront : b.peekActive.connections.active.front with
    | none =>
      simp only [hfront] at h ⊢
      cases h
      exact .nil _
    | some key =>
      simp only [hfront] at h ⊢
      cases hget : b.peekActive.connections.get key with
      | none =>
        simp only [hget] at h ⊢
        cases h
        exact .nil _
      | some c =>
        simp only [hget] at h ⊢
        by_cases hclosed : env.quiche.isClosed c.inner = true
        · rw [if_pos hclosed] at h ⊢
          exact ((forgetConnection_quiet _ key).trans (hnext _)).moves (ih h)
        · rw [if_neg hclosed] at h ⊢
          cases hsend : b.peekActive.sendPackets env key out with
          | none =>
            simp only [hsend] at h
            cases h
          | some sent =>
            obtain ⟨b₁, out₁, result⟩ := sent
            have hsent := sendPackets_moves hsend
            simp only [hsend] at h ⊢
            cases result with
            | done => exact hsent.append ((hnext _).moves (ih h))
            | reactivate =>
              have hmark := (hnext b₁).trans (markActive_quiet b₁.nextActive key)
              exact hsent.append (hmark.moves (ih h))
            | stopAndRetry =>
              cases h
              exact hsent.append (.nil _)

theorem send_moves {out out' : List Message} (h : b.send env out = some (b', out')) :
    Moves env b (b.sendMarks env out) b' := by
  have hcalls : Quiet env (handleScheduledEvents env b)
      { handleScheduledEvents env b with calls := [] } := .of_eq rfl rfl
  exact ((handleScheduledEvents_quiet b).trans hcalls).moves (sendLoop_moves h)

/-! ### `recv` -/

theorem receivePacket_quiet {header : Header} {packet : Packet}
    (hget : b.connections.get key = some c) :
    Quiet env b (receivePacket env b key c header packet) := by
  unfold receivePacket
  generalize (⟨packet.fromAddr, toSockAddr packet.toAddr⟩ : Route) = route
  have hmethod : env.quiche.Method c.inner (env.quiche.recv c.inner packet.payload route).1 :=
    .recv ..
  generalize env.quiche.recv c.inner packet.payload route = received at hmethod ⊢
  obtain ⟨inner, result⟩ := received
  simp only
  have hlog : Quiet env (b.put key { c with inner })
      ((b.put key { c with inner }).log (.recv key packet.payload)) := .of_eq rfl rfl
  refine (Quiet.edit hget (.method hmethod)).trans (hlog.trans ?_)
  have hget' := get_put hget { c with inner }
  generalize hb₁ : (b.put key { c with inner }).log (.recv key packet.payload) = b₁
  replace hget' : b₁.connections.get key = some { c with inner } := hb₁ ▸ hget'
  generalize { c with inner } = c₁ at hget' ⊢
  cases result with
  | ok read =>
    show Quiet env b₁ (if header.ty = PacketType.handshake then
      b₁.checkConnectionHandshakeProgress env key else b₁)
    split
    · apply checkConnectionHandshakeProgress_quiet
    · exact .nil b₁
  | error e =>
    have hhalted := c₁.getHaltEvent_unheard env.quiche key .unknownVersion
    have hclosed (c : Connection Conn) := c.getCloseEvent_unheard env.quiche key
    exact Quiet.reports hget' (Connection.unheard_if _ hhalted) (Connection.unheard_if _ (hclosed _))

/-- What `delegate_packet` does before it polls. -/
theorem delegatePacket_cases (b : QuicheBackend Conn Cfg G T) (header : Header) (packet : Packet) :
    (b.delegatePacketPoll env header packet = none ∧
      Quiet env b (b.delegatePacket env header packet).1) ∨
    ∃ key b₁, b.delegatePacketPoll env header packet = some (key, b₁) ∧ Quiet env b b₁ ∧
      (b.delegatePacket env header packet).1 =
        (b₁.writeStreamDgramEvents env key).scheduleQuicheTimeout env key := by
  unfold delegatePacket delegatePacketPoll
  cases hfind : b.connections.findConnectionKey header.dcid packet.fromAddr with
  | none => exact .inl ⟨rfl, .nil b⟩
  | some key =>
    cases hmark : b.connections.getMarkActive key with
    | none =>
      simp only [hmark]
      exact .inl ⟨trivial, .nil b⟩
    | some marked =>
      obtain ⟨connections, c⟩ := marked
      obtain ⟨hget, hactive⟩ := getMarkActive_quiet env hmark
      simp only [hmark]
      by_cases hclosed : env.quiche.isClosed c.inner = true
      · rw [if_pos hclosed, if_pos hclosed]
        exact .inl ⟨rfl, hactive.trans (forgetConnection_quiet _ key)⟩
      · rw [if_neg hclosed, if_neg hclosed]
        refine .inr ⟨key, _, rfl, ?_, rfl⟩
        exact (hactive.trans (receivePacket_quiet hget)).trans (handlePathEvents_quiet _ key)

variable (env) in
theorem delegatePacket_moves (b : QuicheBackend Conn Cfg G T) (header : Header) (packet : Packet) :
    Moves env b (b.delegatePacketMarks env header packet)
      (b.delegatePacket env header packet).1 := by
  unfold delegatePacketMarks
  rcases delegatePacket_cases b header packet with ⟨hpoll, hquiet⟩ | ⟨key, b₁, hpoll, hquiet, heq⟩
  · rw [hpoll]
    exact hquiet
  · rw [hpoll, heq]
    exact (hquiet.moves (polled_moves b₁ key)).quiet (scheduleTimer_quiet ..)

theorem recvPacket_moves {cidLength : Nat} {packet : Packet} {out out' : List Message}
    {consumed : Bool} (h : recvPacket env cidLength b packet out = some (b', out', consumed)) :
    Moves env b (b.recvPacketMarks env cidLength packet) b' := by
  unfold recvPacket at h
  unfold recvPacketMarks
  cases hparse : env.quiche.headerFromSlice packet.payload cidLength with
  | none =>
    simp only [hparse] at h
    cases h
    exact .nil b
  | some header =>
    simp only [hparse] at h
    by_cases hty : header.ty = PacketType.initial
    · rw [if_pos hty] at h
      simp only [if_pos hty]
      split at h
      · exact handleInitialPacketAsServer_quiet h
      · cases h
        exact .nil b
    · rw [if_neg hty] at h
      simp only [if_neg hty]
      have hdelegate := delegatePacket_moves env b header packet
      generalize b.delegatePacket env header packet = delegated at hdelegate h
      obtain ⟨b₁, handled⟩ := delegated
      cases handled with
      | true =>
        cases h
        exact hdelegate
      | false =>
        obtain ⟨_, hreset, heq⟩ := Option.map_eq_some_iff.mp h
        cases heq
        exact hdelegate.quiet (handlePacketWithStatelessReset_quiet hreset)

theorem recvLoop_moves {cidLength : Nat} {packets packets' : List Packet}
    {out out' : List Message}
    (h : recvLoop env cidLength packets b out = some (b', packets', out')) :
    Moves env b (recvLoopMarks env cidLength packets b out) b' := by
  induction packets generalizing b out with
  | nil =>
    cases h
    exact .nil _
  | cons packet packets ih =>
    unfold recvLoop at h
    unfold recvLoopMarks
    cases hpacket : recvPacket env cidLength b packet out with
    | none =>
      simp only [hpacket] at h
      cases h
    | some received =>
      obtain ⟨b₁, out₁, consumed⟩ := received
      have hreceived := recvPacket_moves hpacket
      simp only [hpacket] at h ⊢
      cases consumed with
      | true => exact hreceived.append (ih h)
      | false =>
        cases h
        exact hreceived.append (.nil _)

theorem recv_moves {packets packets' : List Packet} {out out' : List Message}
    (h : b.recv env packets out = some (b', packets', out')) :
    Moves env b (b.recvMarks env packets out) b' := by
  have hcalls : Quiet env b { b with calls := [] } := .of_eq rfl rfl
  exact hcalls.moves (recvLoop_moves h)

/-! ### Connections -/

theorem getOpen_quiet {b' : QuicheBackend Conn Cfg G T} (h : b.getOpen env key = some (b', c)) :
    b'.connections.get key = some c ∧ Quiet env b b' := by
  obtain ⟨c, hfilter, heq⟩ := Option.map_eq_some_iff.mp h
  obtain ⟨rfl, rfl⟩ := Prod.mk.inj heq
  obtain ⟨hget, -⟩ := Option.filter_eq_some_iff.mp hfilter
  unfold Connections.getMarkActiveIf
  split
  · exact ⟨hget, .active ⟨_, rfl⟩⟩
  · exact ⟨hget, .nil b⟩

theorem closeOne_quiet (err : Nat) (reason : List UInt8) (b : QuicheBackend Conn Cfg G T)
    (key : ConnectionKey) : Quiet env b (closeOne env err reason b key) := by
  unfold closeOne
  split
  · exact .nil b
  · next hmark =>
    obtain ⟨hget, hactive⟩ := getMarkActive_quiet env hmark
    exact hactive.trans (.edit hget (.method (.close ..)))

theorem close_quiet (b : QuicheBackend Conn Cfg G T) (err : Nat) (reason : List UInt8)
    (keys : List ConnectionKey) : Quiet env b (b.close env err reason keys) := by
  unfold close
  split
  · have hclosed : Quiet env b { b with isOpen := false } := .of_eq rfl rfl
    exact hclosed.trans (foldl_quiet (closeOne_quiet err reason) _ _)
  · exact .nil b

theorem connect_quiet {serverName : String} {peerAddr : SocketAddr} {session : Option (List UInt8)}
    {result : Except Error ConnectionKey}
    (h : b.connect env serverName peerAddr session = some (b', result)) : Quiet env b b' := by
  have hconfig (config : Config Cfg G T) : Quiet env b { b with config } := .of_eq rfl rfl
  unfold connect at h
  split at h
  · cases h
    exact .nil b
  · split at h
    · cases h
      exact .nil b
    · simp only at h
      split at h
      · cases h
        exact hconfig _
      · next inner _ =>
        obtain ⟨⟨b₁, key⟩, hregister, heq⟩ := Option.map_eq_some_iff.mp h
        obtain ⟨rfl, -⟩ := Prod.mk.inj heq
        refine (hconfig _).trans (registerNewConnection_quiet ?_ hregister)
        cases session with
        | none => exact Connection.new_idle env.quiche inner true
        | some ticket => exact Connection.new_idle env.quiche inner true

theorem connectionClose_quiet (b : QuicheBackend Conn Cfg G T) (key : ConnectionKey) (err : Nat)
    (reason : List UInt8) : Quiet env b (b.connectionClose env key err reason).1 := by
  unfold connectionClose
  split
  · exact .nil b
  · split
    · exact .nil b
    · next b₁ c hopen =>
      obtain ⟨hget, hactive⟩ := getOpen_quiet hopen
      refine hactive.trans ?_
      split
      · next hclose => exact .edit hget (.method (.of_eq hclose (.close ..)))
      · next hclose => exact .edit hget (.method (.of_eq hclose (.close ..)))
      · next inner _ hclose =>
        have hmethod : env.quiche.Method c.inner inner := .of_eq hclose (.close ..)
        have hclosed := Connection.getCloseEvent_unheard env.quiche { c with inner } key
        exact .report hget (.of_edits (.method hmethod) hclosed)

/-! ### Migration -/

theorem migrateSources_quiet (keys : List ConnectionKey) (b : QuicheBackend Conn Cfg G T) :
    Quiet env b (migrateSources env keys b).1 := by
  induction keys generalizing b with
  | nil => exact .nil b
  | cons key keys ih =>
    unfold migrateSources
    split
    · exact ih b
    · next c hfilter =>
      obtain ⟨hget, -⟩ := Option.filter_eq_some_iff.mp hfilter
      split
      · next inner _ hmigrate =>
        have hmethod : env.quiche.Method c.inner inner := .of_eq hmigrate (.migrateSource ..)
        have hsize := Connection.getDgramOutSizeEvent_unheard env.quiche { c with inner } key
        have hreport : Quiet env b _ := .report hget (.of_edits (.method hmethod) hsize)
        exact hreport.trans (ih _)
      · next inner _ hmigrate =>
        have hmethod : env.quiche.Method c.inner inner := .of_eq hmigrate (.migrateSource ..)
        have hhalted := Connection.getHaltEvent_unheard env.quiche { c with inner } key
          .migrationFailed
        have hreport : Quiet env b _ := .report hget (.of_edits (.method hmethod) hhalted)
        exact hreport.trans (ih _)

theorem applyDecision_quiet (b : QuicheBackend Conn Cfg G T) (decision : ConnectionKey × Bool) :
    Quiet env b (b.applyDecision env decision) := by
  unfold applyDecision
  split
  · apply markActive_quiet
  · apply forgetConnection_quiet

theorem migrateNetwork_quiet (b : QuicheBackend Conn Cfg G T) (newListenAddr : Option IpAddr)
    (keys : List ConnectionKey) : Quiet env b (b.migrateNetwork env newListenAddr keys).1 := by
  unfold migrateNetwork
  split
  · exact .nil b
  · split
    · exact .nil b
    · have hlisten : Quiet env b { b with listenAddr := newListenAddr.getD b.listenAddr } :=
        .of_eq rfl rfl
      exact (hlisten.trans (migrateSources_quiet keys _)).trans (foldl_quiet applyDecision_quiet _ _)

/-! ### Streams -/

theorem streamRecv_quiet (b : QuicheBackend Conn Cfg G T) (key : ConnectionKey)
    (streamId : StreamId) (outLen : Nat) : Quiet env b (b.streamRecv env key streamId outLen).1 := by
  unfold streamRecv
  split
  · exact .nil b
  · split
    · exact .nil b
    · split
      · exact .nil b
      · split
        · exact .nil b
        · next hopen =>
          obtain ⟨hget, hactive⟩ := getOpen_quiet hopen
          exact hactive.trans (.edit hget (.method (.streamRecv ..)))

theorem streamSend_quiet (b : QuicheBackend Conn Cfg G T) (key : ConnectionKey)
    (streamId : StreamId) (bytes : List UInt8) (fin : Bool) :
    Quiet env b (b.streamSend env key streamId bytes fin).1 := by
  unfold streamSend
  split
  · exact .nil b
  · split
    · exact .nil b
    · split
      · exact .nil b
      · next hopen =>
        obtain ⟨hget, hactive⟩ := getOpen_quiet hopen
        refine hactive.trans ?_
        split
        · exact .edit hget (.method (.streamSendZc ..))
        · exact .nil _

variable (env) in
/-- `stream_send` does not open streams. -/
theorem streamSend_ne_exhausted (b : QuicheBackend Conn Cfg G T) (key : ConnectionKey)
    (streamId : StreamId) (bytes : List UInt8) (fin : Bool) :
    (b.streamSend env key streamId bytes fin).2 ≠ .error .streamsExhausted := by
  unfold streamSend
  split
  · simp
  · split
    · simp
    · split
      · simp
      · split
        · simp only
          split <;> simp
        · simp

theorem allocateStreamId_edits {lib : Library Conn Cfg} {c' : Connection Conn}
    {bidirectional : Bool} {streamId : StreamId}
    (h : c.allocateStreamId bidirectional = some (c', streamId)) : c.Edits lib c' := by
  unfold Connection.allocateStreamId at h
  split at h
  · obtain ⟨_, -, heq⟩ := Option.map_eq_some_iff.mp h
    cases heq
    exact ⟨.refl, rfl, rfl, rfl, rfl⟩
  · obtain ⟨_, -, heq⟩ := Option.map_eq_some_iff.mp h
    cases heq
    exact ⟨.refl, rfl, rfl, rfl, rfl⟩

theorem streamOpenSend_moves (b : QuicheBackend Conn Cfg G T) (key : ConnectionKey)
    (bidirectional : Bool) (bytes : List UInt8) (fin : Bool) :
    Moves env b (b.marks env (.streamOpenSend key bidirectional bytes fin))
      (b.streamOpenSend env key bidirectional bytes fin).1 := by
  simp only [marks]
  unfold streamOpenSend
  by_cases hclosed : b.isOpen = false
  · simp only [if_pos hclosed]
    exact .nil b
  · simp only [if_neg hclosed]
    cases hopen : b.getOpen env key with
    | none => exact .nil b
    | some opened =>
      obtain ⟨b₁, c⟩ := opened
      obtain ⟨hget, hactive⟩ := getOpen_quiet hopen
      apply hactive.moves
      simp only
      by_cases hleft : c.peerStreamsLeft env.quiche bidirectional = 0
      · simp only [if_pos hleft]
        exact .single (.refuse hget bidirectional)
      · simp only [if_neg hleft]
        cases hallocate : c.allocateStreamId bidirectional with
        | none => exact .single (.refuse hget bidirectional)
        | some allocated =>
          obtain ⟨c', streamId⟩ := allocated
          simp only
          have hput : Quiet env b₁ (b₁.put key c') := .edit hget (allocateStreamId_edits hallocate)
          have hpush : Quiet env (b₁.put key c')
              ((b₁.put key c').push [.stream (.available key streamId)]) := by
            apply Quiet.push
            intro e he
            cases List.mem_singleton.mp he
            rfl
          generalize (b₁.put key c').push [.stream (.available key streamId)] = b₂ at hpush ⊢
          have hsend := (hput.trans hpush).trans (streamSend_quiet b₂ key streamId bytes fin)
          -- a failure of `stream_send` is no refusal, so there is no mark
          have hother := streamSend_ne_exhausted env b₂ key streamId bytes fin
          generalize b₂.streamSend env key streamId bytes fin = sent at hsend hother ⊢
          obtain ⟨b₃, result⟩ := sent
          split
          · next hexhausted =>
            cases result with
            | error e => exact absurd (congrArg Except.error (Except.error.inj hexhausted)) hother
            | ok unsent => cases hexhausted
          · exact hsend

theorem changeStream_quiet (b : QuicheBackend Conn Cfg G T) (key : ConnectionKey) (illegal : Bool)
    (change : Conn → Conn) (hmethod : ∀ c, env.quiche.Method c (change c)) :
    Quiet env b (b.changeStream env key illegal change) := by
  unfold changeStream
  split
  · exact .nil b
  · split
    · exact .nil b
    · next hopen =>
      obtain ⟨hget, hactive⟩ := getOpen_quiet hopen
      exact hactive.trans (.edit hget (.method (hmethod _)))

/-! ### Datagrams -/

/-- Both ways to read a datagram. -/
theorem dgramRecvZc_moves (b : QuicheBackend Conn Cfg G T) (key : ConnectionKey) (copies : Bool) :
    Moves env b [.read key (readOutcome copies (b.dgramRecvZc env key).2)]
      (b.dgramRecvZc env key).1 := by
  unfold dgramRecvZc
  split
  · exact .single (.fail b key)
  · split
    · exact .single (.fail b key)
    · next c hget =>
      split
      · next datagram hread =>
        refine .single (.read hget (.of_eq hread (.dgramRecvVec c.inner)) ?_)
        cases datagram <;> cases copies <;> simp [readOutcome]
      · next hread => exact .single (.miss hget (.of_eq hread (.dgramRecvVec c.inner)))
      · next hread =>
        exact .single (.read hget (.of_eq hread (.dgramRecvVec c.inner)) (by simp [readOutcome]))

theorem dgramSend_quiet (b : QuicheBackend Conn Cfg G T) (key : ConnectionKey)
    (bytes : List UInt8) : Quiet env b (b.dgramSend env key bytes).1 := by
  unfold dgramSend
  split
  · exact .nil b
  · split
    · exact .nil b
    · next b₁ c hopen =>
      obtain ⟨hget, hactive⟩ := getOpen_quiet hopen
      refine hactive.trans ?_
      split
      · next hsend => exact .edit hget (.method (.of_eq hsend (.dgramSend ..)))
      · next inner hsend =>
        have hmethod : env.quiche.Method c.inner inner := .of_eq hsend (.dgramSend ..)
        exact .edit hget ⟨.single hmethod, rfl, rfl, rfl, rfl⟩
      · next hsend => exact .edit hget (.method (.of_eq hsend (.dgramSend ..)))
      · next hsend => exact .edit hget (.method (.of_eq hsend (.dgramSend ..)))

end QuicheBackend

/-! ## Runs -/

namespace Running

variable {Conn Cfg G T : Type} {env : Env Conn Cfg G T} {b b' : QuicheBackend Conn Cfg G T}

open QuicheBackend

/-- **Every operation makes the moves that its marks tell**, except that consuming the events takes them
away. -/
theorem call_moves {op : Operation} (hconsume : op ≠ .consumeEvents) (h : call env b op = some b') :
    Moves env b (b.marks env op) b' := by
  cases op with
  | clockUpdate clock clockSys =>
    cases h
    exact Quiet.of_eq rfl rfl
  | consumeEvents => exact absurd rfl hconsume
  | close err reason keys =>
    simp only [call] at h
    split at h <;> cases h
    exact close_quiet b err reason keys
  | connect serverName peerAddr session =>
    obtain ⟨⟨b₁, _⟩, hconnect, rfl⟩ := Option.map_eq_some_iff.mp h
    exact connect_quiet hconnect
  | connectionClose key err reason =>
    cases h
    exact connectionClose_quiet b key err reason
  | send out =>
    obtain ⟨⟨b₁, _⟩, hsend, rfl⟩ := Option.map_eq_some_iff.mp h
    exact send_moves hsend
  | recv inPackets outMessages =>
    obtain ⟨⟨b₁, _⟩, hrecv, rfl⟩ := Option.map_eq_some_iff.mp h
    exact recv_moves hrecv
  | tick =>
    cases h
    exact Quiet.of_eq rfl rfl
  | migrateNetwork newListenAddr keys =>
    simp only [call] at h
    split at h <;> cases h
    exact migrateNetwork_quiet b newListenAddr keys
  | streamRecv key streamId outLen =>
    cases h
    exact streamRecv_quiet b key streamId outLen
  | streamOpenSend key bidirectional bytes fin =>
    cases h
    exact streamOpenSend_moves b key bidirectional bytes fin
  | streamSend key streamId bytes fin =>
    cases h
    exact streamSend_quiet b key streamId bytes fin
  | streamStopSending key streamId err =>
    cases h
    exact changeStream_quiet b key _ _ fun _ => .streamShutdown ..
  | streamResetSending key streamId err =>
    cases h
    exact changeStream_quiet b key _ _ fun _ => .streamShutdown ..
  | streamSetPriority key streamId priority =>
    cases h
    exact changeStream_quiet b key _ _ fun _ => .streamPriority ..
  | dgramRecv key outLen =>
    cases h
    exact dgramRecvZc_moves b key true
  | dgramRecvZc key =>
    cases h
    exact dgramRecvZc_moves b key false
  | dgramSend key bytes =>
    cases h
    exact dgramSend_quiet b key bytes
  | dropMessage i =>
    cases h
    exact Quiet.of_eq rfl rfl

end Running

/-- A backend in use, and the marks of its operations so far. -/
structure Recorded (Conn Cfg G T : Type) where
  running : Running Conn Cfg G T
  history : List (Mark Conn)

namespace Recorded

variable {Conn Cfg G T : Type} (env : Env Conn Cfg G T)

def Init (s : Recorded Conn Cfg G T) : Prop := s.running.Init ∧ s.history = []

def exec (s : Recorded Conn Cfg G T) (op : Operation) : Option (Recorded Conn Cfg G T) :=
  (s.running.exec env op).map fun running =>
    { running, history := s.history ++ s.running.backend.marks env op }

/-- All the events of a run. -/
def events (s : Recorded Conn Cfg G T) : List (Event ConnectionKey) :=
  s.running.consumed ++ s.running.backend.events

variable {env}

/-- The history is nothing but a history: every run has one. -/
theorem exists_history {running : Running Conn Cfg G T}
    (h : Reachable Running.Init anyStep (Running.exec env) running) :
    ∃ history, Reachable Init anyStep (exec env) { running, history } := by
  induction h with
  | init hinit => exact ⟨[], .init ⟨hinit, rfl⟩⟩
  | @step running running' op _ _ hexec ih =>
    obtain ⟨history, hreach⟩ := ih
    have hexec' : exec env { running, history } op =
        some ⟨running', history ++ running.backend.marks env op⟩ := by
      unfold exec
      rw [hexec]
      rfl
    exact ⟨_, hreach.step trivial hexec'⟩

/-- A run of a client whose connections are idle. -/
theorem exists_idleClient (env : Env IdleConnection Unit RandomIdGenerator Unit)
    (ops : List Operation) {p : Recorded IdleConnection Unit RandomIdGenerator Unit → Bool}
    (h : ((Running.idleClient.map fun b =>
        (⟨⟨b, []⟩, []⟩ : Recorded IdleConnection Unit RandomIdGenerator Unit)).bind
      (runAll anyStep (exec env) · ops)).any p = true) :
    ∃ s, Reachable Init anyStep (exec env) s ∧ p s = true :=
  exists_reachable _ (fun s hs => by
    obtain ⟨b, hb, rfl⟩ := Option.map_eq_some_iff.mp hs
    exact ⟨Running.idleClient_init hb, rfl⟩) ops h

/-- **The invariant rule for histories**: what the moves of a backend keep holds in every run. The
invariant is about the connections, all the events so far in any order, and the history. -/
theorem invariant
    (Inv : Connections Conn → List (Event ConnectionKey) → List (Mark Conn) → Prop)
    (hinit : Inv .new [] [])
    (hperm : ∀ connections events events' history, events.Perm events' →
      Inv connections events history → Inv connections events' history)
    (hquiet : ∀ b b' earlier history, QuicheBackend.Step env b b' →
      Inv b.connections (earlier ++ b.events) history →
      Inv b'.connections (earlier ++ b'.events) history)
    (hmark : ∀ b m b' earlier history, QuicheBackend.Marked env b m b' →
      Inv b.connections (earlier ++ b.events) history →
      Inv b'.connections (earlier ++ b'.events) (history ++ [m]))
    {s : Recorded Conn Cfg G T} (h : Reachable Init anyStep (exec env) s) :
    Inv s.running.backend.connections s.events s.history := by
  induction h with
  | @init s hs =>
    obtain ⟨⟨hconsumed, config, listenAddr, clock, clockSys, rng, hnew⟩, hhistory⟩ := hs
    obtain ⟨buffer, -, hnew⟩ := Option.map_eq_some_iff.mp hnew
    unfold events
    rw [hconsumed, hhistory, ← hnew]
    exact hinit
  | @step s s' op _ _ hexec ih =>
    obtain ⟨running, hrunning, rfl⟩ := Option.map_eq_some_iff.mp hexec
    obtain ⟨b', hcall, rfl⟩ := Option.map_eq_some_iff.mp hrunning
    by_cases hconsume : op = .consumeEvents
    · -- the consumed events change places: they are counted, not ordered
      subst hconsume
      cases hcall
      show Inv s.running.backend.connections
        (s.running.consumed ++ s.running.backend.events.reverse ++ []) (s.history ++ [])
      rw [List.append_nil, List.append_nil]
      apply hperm _ s.events _ _ _ ih
      exact (List.reverse_perm _).symm.append_left s.running.consumed
    · have hmoves := Running.call_moves hconsume hcall
      have hinv := hmoves.invariant
        (fun b history => Inv b.connections (s.running.consumed ++ b.events) history)
        (fun b b' history => hquiet b b' s.running.consumed history)
        (fun b m b' history => hmark b m b' s.running.consumed history) s.history ih
      cases op with
      | consumeEvents => exact absurd rfl hconsume
      | _ => exact hinv

end Recorded

/-! ## What a history tells -/

namespace Mark

variable {Conn Cfg : Type}

/-- `stream_open_send` was refused. -/
def refuses (key : ConnectionKey) (bidirectional : Bool) : Mark Conn → Bool
  | .refused k direction => k == key && direction == bidirectional
  | _ => false

/-- A poll that finds streams left, and the sequence of ids not at its end. -/
def offers (lib : Library Conn Cfg) (key : ConnectionKey) (bidirectional : Bool) :
    Mark Conn → Bool
  | .polled k before .. => k == key && before.offers lib bidirectional
  | _ => false

/-- quiche had no datagram for a read. -/
def misses (key : ConnectionKey) : Mark Conn → Bool
  | .read k outcome => k == key && decide (outcome = .missing)
  | _ => false

/-- A poll that finds the queue of received datagrams not full. -/
def hasRoom (lib : Library Conn Cfg) (key : ConnectionKey) : Mark Conn → Bool
  | .polled k _ after _ => k == key && !lib.isDgramRecvQueueFull after.inner
  | _ => false

end Mark

namespace Recorded

variable {Conn Cfg G T : Type} {env : Env Conn Cfg G T}

/-- What a connection waits for. -/
def waits {Cfg : Type} (lib : Library Conn Cfg) (key : ConnectionKey) (history : List (Mark Conn)) :
    Bool × Bool × Bool :=
  history.foldl (fun w m => if m.key = key then m.waits lib w else w) (false, false, false)

theorem waits_concat (lib : Library Conn Cfg) (key : ConnectionKey) (history : List (Mark Conn))
    (m : Mark Conn) : waits lib key (history ++ [m]) =
      if m.key = key then m.waits lib (waits lib key history) else waits lib key history := by
  unfold waits
  rw [List.foldl_append]
  rfl

/-- The three things that a connection waits for. Nothing ends the wait for unidirectional streams. -/
theorem waits_eq (lib : Library Conn Cfg) (key : ConnectionKey) (history : List (Mark Conn)) :
    waits lib key history =
      (since (Mark.refuses key true) (Mark.offers lib key true) history,
        history.any (Mark.refuses key false),
        since (Mark.misses key) (Mark.hasRoom lib key) history) := by
  induction history using List.reverseRecOn with
  | nil => rfl
  | append_singleton history m ih =>
    rw [waits_concat, ih, since_concat, since_concat, List.any_append]
    by_cases hkey : m.key = key
    · subst hkey
      cases m <;> simp [Mark.key, Mark.waits, Mark.refuses, Mark.offers, Mark.misses,
        Mark.hasRoom, Bool.or_comm]
    · cases m <;> simp_all [Mark.key, Mark.refuses, Mark.offers, Mark.misses, Mark.hasRoom]

/-- A poll finds the connection waiting for what the history before it tells. -/
def KnownPoll (lib : Library Conn Cfg) (earlier : List (Mark Conn)) (m : Mark Conn) : Prop :=
  ∀ key before after events, m = .polled key before after events →
    before.Polls lib key after events ∧ before.waits = waits lib key earlier

/-- A history is right about the live connections, about keys that were not handed out yet, about the
polls, and about the events. -/
structure Known (lib : Library Conn Cfg) (connections : Connections Conn)
    (events : List (Event ConnectionKey)) (history : List (Mark Conn)) : Prop where
  live key c : connections.get key = some c → c.waits = waits lib key history
  fresh key : connections.all.slots.length ≤ key → waits lib key history = (false, false, false)
  polls : Throughout (KnownPoll lib) history
  events e : e.wakes = true → events.count e = (history.flatMap Mark.events).count e

theorem Known.quiet {b b' : QuicheBackend Conn Cfg G T} {earlier : List (Event ConnectionKey)}
    {history : List (Mark Conn)} (hstep : QuicheBackend.Step env b b')
    (h : Known env.quiche b.connections (earlier ++ b.events) history) :
    Known env.quiche b'.connections (earlier ++ b'.events) history where
  live key c hget := by
    rcases hstep.get hget with ⟨c₀, hget₀, hwaits⟩ | ⟨rfl, hidle⟩
    · rw [hwaits]
      exact h.live key c₀ hget₀
    · rw [h.fresh _ (le_refl _)]
      exact hidle
  fresh key hkey := h.fresh key (hstep.length_le.trans hkey)
  polls := h.polls
  events e he := by
    obtain ⟨events, hevents, hunheard⟩ := hstep.events
    have hnone : events.count e = 0 := by
      rw [List.count_eq_zero]
      intro hmem
      rw [hunheard e hmem] at he
      cases he
    rw [hevents, ← List.append_assoc, List.count_append, hnone]
    exact h.events e he

theorem Known.mark {b b' : QuicheBackend Conn Cfg G T} {m : Mark Conn}
    {earlier : List (Event ConnectionKey)} {history : List (Mark Conn)}
    (hmark : QuicheBackend.Marked env b m b')
    (h : Known env.quiche b.connections (earlier ++ b.events) history) :
    Known env.quiche b'.connections (earlier ++ b'.events) (history ++ [m]) where
  live key c hget := by
    obtain ⟨c₀, hget₀, hwaits⟩ := hmark.get hget
    rw [waits_concat, ← h.live key c₀ hget₀]
    exact hwaits
  fresh key hkey := by
    rw [hmark.length_eq] at hkey
    rw [waits_concat, h.fresh key hkey]
    split
    · next heq =>
      subst heq
      exact hmark.waits_of_length_le hkey
    · rfl
  polls := by
    rw [throughout_concat]
    refine ⟨h.polls, ?_⟩
    rintro key before after events rfl
    obtain ⟨hget, hpolls, -⟩ := hmark.polled
    exact ⟨hpolls, h.live key before hget⟩
  events e he := by
    rw [hmark.events, ← List.append_assoc, List.count_append, h.events e he, List.flatMap_append,
      List.count_append]
    simp

/-- **The history of a run is right.** -/
theorem known {s : Recorded Conn Cfg G T} (h : Reachable Init anyStep (exec env) s) :
    Known env.quiche s.running.backend.connections s.events s.history := by
  have hinit : Known env.quiche (.new : Connections Conn) [] [] :=
    ⟨nofun, fun _ _ => rfl, throughout_nil _, fun _ _ => rfl⟩
  refine invariant (Known env.quiche) hinit ?_ (fun _ _ _ _ => Known.quiet)
    (fun _ _ _ _ _ => Known.mark) h
  intro connections events events' history hperm hknown
  refine ⟨hknown.live, hknown.fresh, hknown.polls, ?_⟩
  intro e he
  rw [← hperm.count_eq]
  exact hknown.events e he

end Recorded

end Aquic.Backend.Quiche

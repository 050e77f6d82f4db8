import Aquic.Backend.Quiche.Ledger

/-!
# Every operation goes through steps of the ledger

The operations of the quiche backend, from `send` and `recv` to those of the application. All but
`tick` and the two that the owner of the backend is told by (`clock_update` and consuming the events)
are steps of the ledger.
-/

namespace Aquic.Backend.Quiche

open Aquic.Cid Aquic.Collections Aquic.Net Aquic.Run Aquic.Stream Aquic.Timer Aquic.Tokens

namespace QuicheBackend

variable {Conn Cfg G T : Type} (env : Env Conn Cfg G T)

variable {b b' : QuicheBackend Conn Cfg G T} {key : ConnectionKey} {c c' : Connection Conn}

/-! ## `send` -/

theorem sendPackets_follows {out out' : List Message} {result : SendResult}
    (h : b.sendPackets env key out = some (b', out', result)) : Follows b b' := by
  unfold sendPackets at h
  split at h
  · cases h
    exact .of_eq rfl
  · next c hget =>
    split at h
    · cases h
    · next written hwritten =>
      obtain ⟨inner, hinner⟩ := Io.writePending_connection hwritten
      have hio : Follows b { b with io := written.io } := .of_eq rfl
      have hput : Follows { b with io := written.io }
          (({ b with io := written.io }.put key written.connection).log (.writePending key)) :=
        (Follows.put hget (by rw [hinner]; rfl)).trans (.of_eq rfl)
      have hwrite := ((hio.trans hput).trans (writeStreamDgramEvents_follows env _ key)).trans
        (scheduleTimer_follows _ key .quicheTimeout fun c => env.quiche.timeoutInstant c.inner)
      simp only at h
      split at h <;> cases h
      · exact hwrite
      · exact hwrite.trans (scheduleTimer_follows ..)
      · exact hwrite
      · exact hwrite
      · exact hwrite

theorem sendLoop_follows {count : Nat} {out out' : List Message}
    (h : sendLoop env count b out = some (b', out')) : Follows b b' := by
  induction count generalizing b out with
  | zero =>
    obtain ⟨rfl, rfl⟩ := Prod.mk.inj (Option.some.inj h)
    exact .of_eq rfl
  | succ count ih =>
    unfold sendLoop at h
    have hpeek : Follows b b.peekActive := .of_eq rfl
    have hnext (b₁ : QuicheBackend Conn Cfg G T) : Follows b₁ b₁.nextActive := .of_eq rfl
    refine hpeek.trans ?_
    simp only at h
    split at h
    · cases h
      exact .of_eq rfl
    · next key _ =>
      split at h
      · cases h
        exact .of_eq rfl
      · split at h
        · exact ((forgetConnection_follows env _ key).trans (hnext _)).trans (ih h)
        · split at h
          · cases h
          · next b₁ _ hsend => exact ((sendPackets_follows env hsend).trans (hnext b₁)).trans (ih h)
          · next b₁ _ hsend =>
            have hmark := (hnext b₁).trans (.of_eq (ledger_markActive b₁.nextActive key))
            exact ((sendPackets_follows env hsend).trans hmark).trans (ih h)
          · next hsend =>
            cases h
            exact sendPackets_follows env hsend

theorem send_follows {out out' : List Message} (h : b.send env out = some (b', out')) :
    Follows b b' := by
  have hcalls (b₁ : QuicheBackend Conn Cfg G T) : Follows b₁ { b₁ with calls := [] } := .of_eq rfl
  exact (handleScheduledEvents_follows env b).trans ((hcalls _).trans (sendLoop_follows env h))

/-! ## `recv` -/

/-- The end of a connection is reported under a condition. -/
theorem reported_if (p : Prop) [Decidable p]
    {reported : Connection Conn × Option (ConnectionEvent ConnectionKey)}
    (h : Connection.Reported key c.entry reported.1 reported.2.toList) :
    Connection.Reported key c.entry (if p then reported else (c, none)).1
      (if p then reported else (c, none)).2.toList := by
  split
  · exact h
  · exact .inl ⟨rfl, rfl⟩

theorem delegatePacket_follows (b : QuicheBackend Conn Cfg G T) (header : Header)
    (packet : Packet) : Follows b (b.delegatePacket env header packet).1 := by
  unfold delegatePacket
  split
  · exact .of_eq rfl
  · next key _ =>
    split
    · exact .of_eq rfl
    · next cs c hmark =>
      obtain ⟨hget, hactive⟩ := getMarkActive_follows hmark
      refine hactive.trans ?_
      generalize hb₁ : { b with connections := cs } = b₁
      replace hget : b₁.connections.get key = some c := hb₁ ▸ hget
      generalize env.quiche.recv c.inner packet.payload _ = received
      obtain ⟨inner, result⟩ := received
      simp only
      split
      · exact forgetConnection_follows env _ key
      · have hput : Follows b₁ (b₁.put key { c with inner }) := .put hget rfl
        refine Follows.trans ?_ (scheduleTimer_follows ..)
        refine Follows.trans ?_ (writeStreamDgramEvents_follows env _ key)
        refine Follows.trans ?_ (handlePathEvents_follows env _ key)
        refine hput.trans ?_
        have hlog : Follows (b₁.put key { c with inner })
            ((b₁.put key { c with inner }).log (.recv key packet.payload)) := .of_eq rfl
        refine hlog.trans ?_
        have hget' := get_put hget { c with inner }
        generalize hb₂ : (b₁.put key { c with inner }).log (.recv key packet.payload) = b₂
        replace hget' : b₂.connections.get key = some { c with inner } := hb₂ ▸ hget'
        generalize { c with inner } = c' at hget' ⊢
        cases result with
        | ok read =>
          simp only
          split
          · exact checkConnectionHandshakeProgress_follows env _ key
          · exact .of_eq rfl
        | error e =>
          have hhalted := c'.getHaltEvent_reported key .unknownVersion
          have hclosed c := Connection.getCloseEvent_reported env.quiche c key
          exact Follows.report hget' ((reported_if _ hhalted).trans (reported_if _ (hclosed _)))

theorem scheduleTimer_push (b : QuicheBackend Conn Cfg G T) (events : List (Event ConnectionKey))
    (key : ConnectionKey) (kind : TimerKind) (due : Connection Conn → Option Instant) :
    (b.push events).scheduleTimer key kind due = (b.scheduleTimer key kind due).push events := by
  have hget : (b.push events).connections.get key = b.connections.get key := rfl
  unfold scheduleTimer
  rw [hget]
  cases b.connections.get key with
  | none => rfl
  | some c =>
    simp only
    cases due c <;> rfl

theorem scheduleEstablishTimeout_push (b : QuicheBackend Conn Cfg G T)
    (events : List (Event ConnectionKey)) (key : ConnectionKey) :
    (b.push events).scheduleEstablishTimeout env key =
      (b.scheduleEstablishTimeout env key).map (·.push events) := by
  have hget : (b.push events).connections.get key = b.connections.get key := rfl
  have hconfig : (b.push events).config = b.config := rfl
  have htime : (b.push events).time = b.time := rfl
  unfold scheduleEstablishTimeout
  simp only [hget, hconfig, htime]
  cases b.connections.get key with
  | none => rfl
  | some c =>
    simp only
    split
    · rfl
    · simp only [Option.map_map, Function.comp_def, scheduleTimer_push]

theorem registerNewConnection_follows {peerAddr : SocketAddr}
    (hentry : c.entry = ⟨fun _ => none, false⟩)
    (h : b.registerNewConnection env c peerAddr = some (b', key)) : Follows b b' := by
  simp only [registerNewConnection, Option.bind_eq_bind, Option.bind_eq_some_iff] at h
  obtain ⟨⟨cs, k⟩, hinsert, b₁, hestablish, h⟩ := h
  obtain ⟨rfl, rfl⟩ := Prod.mk.inj (Option.some.inj h)
  obtain ⟨rfl, hall, -⟩ := Connections.insert_cases hinsert
  have hfree : b.ledger.entries b.ledger.nextKey = none :=
    congrArg (Option.map Connection.entry) (Slots.get_push_key b.connections.all c)
  have hentries (k : ConnectionKey) : (cs.get k).map Connection.entry =
      Function.update b.ledger.entries b.ledger.nextKey (some ⟨fun _ => none, false⟩) k := by
    show (cs.all.get k).map _ = _
    rw [hall, Slots.get_push]
    by_cases hk : k = b.connections.all.slots.length
    · subst hk
      simp [ledger, Slots.push, hentry]
    · simp [ledger, Slots.push, hk, Connections.get]
  -- the `New` event is pushed last, but the timers do not depend on it
  have hregister : Follows b ({ b with connections := cs }.push
      [.connection (.new (b.connections.all.push c).2 (env.quiche.isServer c.inner))]) := by
    refine .single ?_
    have hstep := Ledger.Step.register b.ledger hfree (env.quiche.isServer c.inner)
    convert hstep using 1
    simp only [ledger, Ledger.push, Ledger.put, Ledger.mk.injEq]
    exact ⟨rfl, funext hentries, by simp [push, hall, Slots.push], rfl⟩
  have hschedule := hregister.trans (scheduleTimer_follows _ (b.connections.all.push c).2
    .quicheTimeout fun c => env.quiche.timeoutInstant c.inner)
  rw [scheduleTimer_push] at hschedule
  have hestablish' := congrArg (Option.map (push ·
    [.connection (.new (b.connections.all.push c).2 (env.quiche.isServer c.inner))])) hestablish
  rw [← scheduleEstablishTimeout_push] at hestablish'
  exact hschedule.trans (scheduleEstablishTimeout_follows env hestablish')

theorem entry_new (lib : Library Conn Cfg) (inner : Conn) (verified : Bool) :
    (Connection.new lib inner verified).entry = ⟨fun _ => none, false⟩ := by
  have htimers : (Connection.new lib inner verified).timerKey = fun _ => none := by
    funext kind
    cases kind <;> rfl
  unfold Connection.entry
  rw [htimers]
  rfl

theorem acceptConnection_follows {server : ServerConfig Cfg T} {packet : Packet}
    {scid : ConnectionId} {token : Option Token}
    (h : b.acceptConnection env server packet scid token = some b') : Follows b b' := by
  unfold acceptConnection at h
  split at h
  next quiche result _ =>
  have hconfig (config : Config Cfg G T) : Follows b { b with config } := .of_eq rfl
  simp only at h
  split at h
  · cases h
    exact hconfig _
  · obtain ⟨⟨b₁, key⟩, hregister, rfl⟩ := Option.map_eq_some_iff.mp h
    have hlog (call : Call) : Follows b₁ (b₁.log call) := .of_eq rfl
    exact ((hconfig _).trans (registerNewConnection_follows env (entry_new ..) hregister)).trans
      (hlog _)

/-- A retry, a version negotiation and a stateless reset are written past the ledger. -/
theorem respondWithRetry_ledger {server : ServerConfig Cfg T} {header : Header} {packet : Packet}
    {scid : ConnectionId} {out out' : List Message} {consumed : Bool}
    (h : b.respondWithRetry env server header packet scid out = some (b', out', consumed)) :
    b'.ledger = b.ledger := by
  simp only [respondWithRetry, Option.bind_eq_bind, Option.bind_eq_some_iff] at h
  obtain ⟨expiresAt, -, h⟩ := h
  split at h
  · cases h
    rfl
  · obtain ⟨⟨io, out₁, result⟩, -, h⟩ := Option.bind_eq_some_iff.mp h
    simp only at h
    split at h <;> cases h <;> rfl

theorem handleInitialPacketAsServer_follows {header : Header} {packet : Packet}
    {out out' : List Message} {consumed : Bool}
    (h : b.handleInitialPacketAsServer env header packet out = some (b', out', consumed)) :
    Follows b b' := by
  have hconfig (config : Config Cfg G T) : Follows b { b with config } := .of_eq rfl
  unfold handleInitialPacketAsServer at h
  split at h
  · cases h
    exact .of_eq rfl
  · next server _ =>
    split at h
    · obtain ⟨⟨io, out₁, result⟩, -, h⟩ := Option.bind_eq_some_iff.mp h
      cases h
      exact .of_eq rfl
    · split at h
      · cases h
        exact .of_eq rfl
      · simp only at h
        split at h
        · cases h
          exact hconfig _
        · obtain ⟨b₁, haccept, heq⟩ := Option.map_eq_some_iff.mp h
          obtain ⟨rfl, -⟩ := Prod.mk.inj heq
          exact (hconfig _).trans (acceptConnection_follows env haccept)
        · split at h
          · obtain ⟨b₁, haccept, heq⟩ := Option.map_eq_some_iff.mp h
            obtain ⟨rfl, -⟩ := Prod.mk.inj heq
            exact (hconfig _).trans (acceptConnection_follows env haccept)
          · exact (hconfig _).trans (.of_eq (respondWithRetry_ledger env h))

theorem handlePacketWithStatelessReset_ledger {header : Header} {packet : Packet}
    {out out' : List Message}
    (h : b.handlePacketWithStatelessReset env header packet out = some (b', out')) :
    b'.ledger = b.ledger := by
  unfold handlePacketWithStatelessReset at h
  split at h
  · cases h
    rfl
  · obtain ⟨_, -, heq⟩ := Option.map_eq_some_iff.mp h
    cases heq
    rfl

theorem recvPacket_follows {cidLength : Nat} {packet : Packet} {out out' : List Message}
    {consumed : Bool} (h : recvPacket env cidLength b packet out = some (b', out', consumed)) :
    Follows b b' := by
  unfold recvPacket at h
  split at h
  · cases h
    exact .of_eq rfl
  · next header _ =>
    split at h
    · split at h
      · exact handleInitialPacketAsServer_follows env h
      · cases h
        exact .of_eq rfl
    · have hdelegate := delegatePacket_follows env b header packet
      generalize b.delegatePacket env header packet = delegated at hdelegate h
      obtain ⟨b₁, handled⟩ := delegated
      cases handled with
      | true =>
        cases h
        exact hdelegate
      | false =>
        obtain ⟨_, hreset, heq⟩ := Option.map_eq_some_iff.mp h
        cases heq
        exact hdelegate.trans (.of_eq (handlePacketWithStatelessReset_ledger env hreset))

theorem recvLoop_follows {cidLength : Nat} {packets packets' : List Packet}
    {out out' : List Message}
    (h : recvLoop env cidLength packets b out = some (b', packets', out')) : Follows b b' := by
  induction packets generalizing b out with
  | nil =>
    cases h
    exact .of_eq rfl
  | cons packet packets ih =>
    unfold recvLoop at h
    split at h
    · cases h
    · next hpacket => exact (recvPacket_follows env hpacket).trans (ih h)
    · next hpacket =>
      cases h
      exact recvPacket_follows env hpacket

theorem recv_follows {packets packets' : List Packet} {out out' : List Message}
    (h : b.recv env packets out = some (b', packets', out')) : Follows b b' := by
  have hcalls : Follows b { b with calls := [] } := .of_eq rfl
  exact hcalls.trans (recvLoop_follows env h)

/-! ## Connections -/

theorem getOpen_follows (h : b.getOpen env key = some (b', c)) :
    b'.connections.get key = some c ∧ Follows b b' := by
  obtain ⟨c, hfilter, heq⟩ := Option.map_eq_some_iff.mp h
  obtain ⟨rfl, rfl⟩ := Prod.mk.inj heq
  obtain ⟨hget, -⟩ := Option.filter_eq_some_iff.mp hfilter
  unfold Connections.getMarkActiveIf
  split <;> exact ⟨hget, .of_eq rfl⟩

theorem closeOne_follows (err : Nat) (reason : List UInt8) (b : QuicheBackend Conn Cfg G T)
    (key : ConnectionKey) : Follows b (closeOne env err reason b key) := by
  unfold closeOne
  split
  · exact .of_eq rfl
  · next cs c hmark =>
    obtain ⟨hget, hactive⟩ := getMarkActive_follows hmark
    exact hactive.trans (.put hget rfl)

theorem close_follows (b : QuicheBackend Conn Cfg G T) (err : Nat) (reason : List UInt8)
    (keys : List ConnectionKey) : Follows b (b.close env err reason keys) := by
  have hclosed : Follows b { b with isOpen := false } := .of_eq rfl
  unfold close
  split
  · exact hclosed.trans (foldl_follows (closeOne_follows env err reason) _ _)
  · exact .of_eq rfl

theorem connect_follows {serverName : String} {peerAddr : SocketAddr}
    {session : Option (List UInt8)} {result : Except Error ConnectionKey}
    (h : b.connect env serverName peerAddr session = some (b', result)) : Follows b b' := by
  have hconfig (config : Config Cfg G T) : Follows b { b with config } := .of_eq rfl
  unfold connect at h
  split at h
  · cases h
    exact .of_eq rfl
  · split at h
    · cases h
      exact .of_eq rfl
    · simp only at h
      split at h
      · cases h
        exact hconfig _
      · next inner _ =>
        obtain ⟨⟨b₁, key⟩, hregister, heq⟩ := Option.map_eq_some_iff.mp h
        obtain ⟨rfl, -⟩ := Prod.mk.inj heq
        refine (hconfig _).trans (registerNewConnection_follows env ?_ hregister)
        cases session with
        | none => exact entry_new ..
        | some ticket => exact entry_new env.quiche inner true

theorem connectionClose_follows (b : QuicheBackend Conn Cfg G T) (key : ConnectionKey) (err : Nat)
    (reason : List UInt8) : Follows b (b.connectionClose env key err reason).1 := by
  unfold connectionClose
  split
  · exact .of_eq rfl
  · split
    · exact .of_eq rfl
    · next b₁ c hopen =>
      obtain ⟨hget, hactive⟩ := getOpen_follows env hopen
      refine hactive.trans ?_
      split
      · exact .put hget rfl
      · exact .put hget rfl
      · next inner _ _ =>
        exact Follows.report hget
          (Connection.getCloseEvent_reported env.quiche { c with inner } key)

/-! ## Migration -/

/-- What `get_dgram_out_size_event` adds to the events. -/
theorem dgramOutSize_follows (hget : b.connections.get key = some c) (c₁ : Connection Conn)
    (hentry : c₁.entry = c.entry) :
    Follows b ((b.put key (c₁.getDgramOutSizeEvent env.quiche key).1).push
      ((c₁.getDgramOutSizeEvent env.quiche key).2.toList.map .datagram)) := by
  obtain ⟨hsize, hid⟩ := getDgramOutSizeEvent_announces env.quiche c₁ key
  refine (Follows.put hget (hsize.trans hentry)).trans (.push _ fun e he => ?_)
  obtain ⟨event, hevent, rfl⟩ := List.mem_map.mp he
  exact routine_of_get (get_put hget _) rfl rfl rfl (hid event (Option.mem_toList.mp hevent))

theorem migrateSources_follows (keys : List ConnectionKey) (b : QuicheBackend Conn Cfg G T) :
    Follows b (migrateSources env keys b).1 := by
  induction keys generalizing b with
  | nil => exact .of_eq rfl
  | cons key keys ih =>
    unfold migrateSources
    split
    · exact ih b
    · next c hfilter =>
      obtain ⟨hget, -⟩ := Option.filter_eq_some_iff.mp hfilter
      split
      · next inner _ _ =>
        have hsize : Follows b _ := dgramOutSize_follows env hget { c with inner } rfl
        exact hsize.trans (ih _)
      · next inner _ _ =>
        have hhalted : Follows b _ := Follows.report hget
          (Connection.getHaltEvent_reported { c with inner } key .migrationFailed)
        exact hhalted.trans (ih _)

theorem applyDecision_follows (b : QuicheBackend Conn Cfg G T) (decision : ConnectionKey × Bool) :
    Follows b (b.applyDecision env decision) := by
  unfold applyDecision
  split
  · exact .of_eq (ledger_markActive ..)
  · exact forgetConnection_follows env _ _

theorem migrateNetwork_follows (b : QuicheBackend Conn Cfg G T) (newListenAddr : Option IpAddr)
    (keys : List ConnectionKey) : Follows b (b.migrateNetwork env newListenAddr keys).1 := by
  unfold migrateNetwork
  split
  · exact .of_eq rfl
  · split
    · exact .of_eq rfl
    · have hlisten : Follows b { b with listenAddr := newListenAddr.getD b.listenAddr } := .of_eq rfl
      exact (hlisten.trans (migrateSources_follows env keys _)).trans
        (foldl_follows (applyDecision_follows env) _ _)

/-! ## Streams -/

theorem streamRecv_follows (b : QuicheBackend Conn Cfg G T) (key : ConnectionKey)
    (streamId : StreamId) (outLen : Nat) : Follows b (b.streamRecv env key streamId outLen).1 := by
  unfold streamRecv
  split
  · exact .of_eq rfl
  · split
    · exact .of_eq rfl
    · split
      · exact .of_eq rfl
      · split
        · exact .of_eq rfl
        · next hopen =>
          obtain ⟨hget, hactive⟩ := getOpen_follows env hopen
          exact hactive.trans (.put hget rfl)

theorem streamSend_follows (b : QuicheBackend Conn Cfg G T) (key : ConnectionKey)
    (streamId : StreamId) (bytes : List UInt8) (fin : Bool) :
    Follows b (b.streamSend env key streamId bytes fin).1 := by
  unfold streamSend
  split
  · exact .of_eq rfl
  · split
    · exact .of_eq rfl
    · split
      · exact .of_eq rfl
      · next hopen =>
        obtain ⟨hget, hactive⟩ := getOpen_follows env hopen
        refine hactive.trans ?_
        split
        · exact .put hget rfl
        · exact .of_eq rfl

theorem entry_setStreamsExhausted (c : Connection Conn) (bidirectional : Bool) :
    (c.setStreamsExhausted bidirectional).entry = c.entry := by
  cases bidirectional <;> rfl

theorem entry_allocateStreamId {bidirectional : Bool} {streamId : StreamId}
    (h : c.allocateStreamId bidirectional = some (c', streamId)) : c'.entry = c.entry := by
  unfold Connection.allocateStreamId at h
  split at h
  · obtain ⟨_, -, heq⟩ := Option.map_eq_some_iff.mp h
    cases heq
    rfl
  · obtain ⟨_, -, heq⟩ := Option.map_eq_some_iff.mp h
    cases heq
    rfl

theorem streamOpenSend_follows (b : QuicheBackend Conn Cfg G T) (key : ConnectionKey)
    (bidirectional : Bool) (bytes : List UInt8) (fin : Bool) :
    Follows b (b.streamOpenSend env key bidirectional bytes fin).1 := by
  unfold streamOpenSend
  split
  · exact .of_eq rfl
  · split
    · exact .of_eq rfl
    · next b₁ c hopen =>
      obtain ⟨hget, hactive⟩ := getOpen_follows env hopen
      refine hactive.trans ?_
      split
      · exact .put hget (entry_setStreamsExhausted c bidirectional)
      · split
        · exact .put hget (entry_setStreamsExhausted c bidirectional)
        · next c' streamId hallocate =>
          have hput : Follows b₁ (b₁.put key c') := .put hget (entry_allocateStreamId hallocate)
          have hpush : Follows (b₁.put key c')
              ((b₁.put key c').push [.stream (.available key streamId)]) := by
            refine .push _ fun e he => ?_
            obtain rfl := List.mem_singleton.mp he
            exact routine_of_get (get_put hget c') rfl rfl rfl rfl
          exact (hput.trans hpush).trans (streamSend_follows env _ key streamId bytes fin)

theorem changeStream_follows (b : QuicheBackend Conn Cfg G T) (key : ConnectionKey)
    (illegal : Bool) (change : Conn → Conn) :
    Follows b (b.changeStream env key illegal change) := by
  unfold changeStream
  split
  · exact .of_eq rfl
  · split
    · exact .of_eq rfl
    · next hopen =>
      obtain ⟨hget, hactive⟩ := getOpen_follows env hopen
      exact hactive.trans (.put hget rfl)

/-! ## Datagrams -/

theorem dgramRecvZc_follows (b : QuicheBackend Conn Cfg G T) (key : ConnectionKey) :
    Follows b (b.dgramRecvZc env key).1 := by
  unfold dgramRecvZc
  split
  · exact .of_eq rfl
  · split
    · exact .of_eq rfl
    · next c hget => split <;> exact .put hget rfl

theorem dgramSend_follows (b : QuicheBackend Conn Cfg G T) (key : ConnectionKey)
    (bytes : List UInt8) : Follows b (b.dgramSend env key bytes).1 := by
  unfold dgramSend
  split
  · exact .of_eq rfl
  · split
    · exact .of_eq rfl
    · next hopen =>
      obtain ⟨hget, hactive⟩ := getOpen_follows env hopen
      refine hactive.trans ?_
      split <;> exact .put hget rfl

end QuicheBackend

/-! ## Runs -/

namespace Running

variable {Conn Cfg G T : Type} (env : Env Conn Cfg G T) {b b' : QuicheBackend Conn Cfg G T}

open QuicheBackend

/-- **Every operation goes through steps of the ledger**, except that `tick` moves the wheel and
consuming the events takes them away. -/
theorem call_follows {op : Operation} (htick : op ≠ .tick) (hconsume : op ≠ .consumeEvents)
    (h : call env b op = some b') : Follows b b' := by
  cases op with
  | clockUpdate clock clockSys =>
    cases h
    exact .of_eq rfl
  | consumeEvents => exact absurd rfl hconsume
  | close err reason keys =>
    simp only [call] at h
    split at h <;> cases h
    exact close_follows env b err reason keys
  | connect serverName peerAddr session =>
    obtain ⟨⟨b₁, _⟩, hconnect, rfl⟩ := Option.map_eq_some_iff.mp h
    exact connect_follows env hconnect
  | connectionClose key err reason =>
    cases h
    exact connectionClose_follows env b key err reason
  | send out =>
    obtain ⟨⟨b₁, _⟩, hsend, rfl⟩ := Option.map_eq_some_iff.mp h
    exact send_follows env hsend
  | recv inPackets outMessages =>
    obtain ⟨⟨b₁, _⟩, hrecv, rfl⟩ := Option.map_eq_some_iff.mp h
    exact recv_follows env hrecv
  | tick => exact absurd rfl htick
  | migrateNetwork newListenAddr keys =>
    simp only [call] at h
    split at h <;> cases h
    exact migrateNetwork_follows env b newListenAddr keys
  | streamRecv key streamId outLen =>
    cases h
    exact streamRecv_follows env b key streamId outLen
  | streamOpenSend key bidirectional bytes fin =>
    cases h
    exact streamOpenSend_follows env b key bidirectional bytes fin
  | streamSend key streamId bytes fin =>
    cases h
    exact streamSend_follows env b key streamId bytes fin
  | streamStopSending key streamId err =>
    cases h
    exact changeStream_follows env b key _ _
  | streamResetSending key streamId err =>
    cases h
    exact changeStream_follows env b key _ _
  | streamSetPriority key streamId priority =>
    cases h
    exact changeStream_follows env b key _ _
  | dgramRecv key outLen =>
    cases h
    exact dgramRecvZc_follows env b key
  | dgramRecvZc key =>
    cases h
    exact dgramRecvZc_follows env b key
  | dgramSend key bytes =>
    cases h
    exact dgramSend_follows env b key bytes
  | dropMessage i =>
    cases h
    exact .of_eq rfl

/-- The ledger with the events that were consumed before. -/
def ledger (s : Running Conn Cfg G T) : Ledger := s.backend.ledger.after s.consumed

/-- **The invariant rule for ledgers**: what the steps of a ledger keep holds in every run, if it does
not depend on the order of the events nor on the wheel. -/
theorem ledger_invariant {P : Ledger → Prop}
    (hinit : ∀ timer, P { timer, entries := fun _ => none, nextKey := 0, events := [] })
    (hstep : ∀ g g', Ledger.Step g g' → P g → P g')
    (hperm : ∀ g events, events.Perm g.events → P g → P { g with events })
    (htimer : ∀ g timer, P g → P { g with timer }) {s : Running Conn Cfg G T}
    (h : Reachable Init anyStep (exec env) s) : P s.ledger := by
  have hsteps {g g' : Ledger} (hfollows : Relation.ReflTransGen Ledger.Step g g')
      (earlier : List (Event ConnectionKey)) (hg : P (g.after earlier)) : P (g'.after earlier) := by
    induction hfollows with
    | refl => exact hg
    | tail _ hlast ih => exact hstep _ _ (hlast.after earlier) ih
  induction h with
  | @init s hs =>
    obtain ⟨hconsumed, config, listenAddr, clock, clockSys, rng, hnew⟩ := hs
    have hledger : s.ledger = { timer := s.backend.time.timer, entries := fun _ => none
                                nextKey := 0, events := [] } := by
      unfold ledger
      rw [hconsumed]
      obtain ⟨io, -, hnew⟩ := Option.map_eq_some_iff.mp hnew
      rw [← hnew]
      rfl
    rw [hledger]
    exact hinit _
  | @step s s' op _ _ hexec ih =>
    obtain ⟨b', hcall, rfl⟩ := Option.map_eq_some_iff.mp hexec
    cases op with
    | tick =>
      cases hcall
      exact htimer s.ledger _ ih
    | consumeEvents =>
      cases hcall
      have hreversed : (s.consumed ++ s.backend.events.reverse ++ []).Perm s.ledger.events := by
        rw [List.append_nil]
        exact (List.reverse_perm _).append_left s.consumed
      exact hperm s.ledger _ hreversed ih
    | _ => exact hsteps (call_follows env (by simp) (by simp) hcall) s.consumed ih

end Running

end Aquic.Backend.Quiche

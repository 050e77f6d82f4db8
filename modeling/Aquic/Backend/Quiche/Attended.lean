import Aquic.Backend.Quiche.Minds

/-!
# No connection is left alone

The owner of a quiche backend does not look at connections: it calls `send`, which polls the connections in the
queue, and `tick`, which fires timers. A live connection that is neither in the queue nor waits for its timeout
is never looked at again.

Every operation that changes a connection marks it, and `send` schedules the timeout of each connection that it
takes from the queue. So a connection is always attended to, if `send` does not strand one.
-/

namespace Aquic.Backend.Quiche

open Aquic.Cid Aquic.Collections Aquic.Net Aquic.Polling Aquic.Run Aquic.Stream Aquic.Timer Aquic.Tokens

namespace QuicheBackend

variable {Conn Cfg G T : Type} {env : Env Conn Cfg G T} {b b' b₁ : QuicheBackend Conn Cfg G T}
  {key : ConnectionKey} {c c' : Connection Conn} {others : Set ConnectionKey}

/-! ## Rules -/

/-- Neither the connections nor the timers change. -/
theorem Tended.of_eq (h : Tended env others b) (hconnections : b'.connections = b.connections)
    (htime : b'.time = b.time) : Tended env others b' := by
  apply h.keep
  · exact congrArg (fun connections => connections.active.toList) hconnections
  · exact congrArg Connections.get hconnections
  · intro hsound
    have hminds : Minds 0 b b' :=
      .of_eq (congrArg Connections.all hconnections) (congrArg Connections.active hconnections) htime
    refine ⟨(hminds.awaited hsound).1, fun k hawaited => ?_⟩
    show b'.time.Awaits _
    rw [htime]
    exact hawaited

theorem markActive_minds (b : QuicheBackend Conn Cfg G T) (key : ConnectionKey) :
    Minds key b (b.markActive key) ∧ (b.markActive key).Queued key := by
  unfold markActive Connections.markActive
  split
  · exact ⟨.mark b key rfl, fun _ => LinkedHashSet.mem_replace.mpr (.inr rfl)⟩
  · next hdead => exact ⟨.refl key b, fun hlive => absurd hlive hdead⟩

variable (env) in
theorem get_forgetConnection (b : QuicheBackend Conn Cfg G T) (key : ConnectionKey) :
    (b.forgetConnection env key).connections.get key = none := by
  cases hget : b.connections.get key with
  | none => rwa [forgetConnection_dead env hget]
  | some c => rw [(forgetConnection_forgets env (Option.isSome_of_eq_some hget)).get, if_pos rfl]

theorem getOpen_minds (h : b.getOpen env key = some (b₁, c)) :
    b₁.connections.get key = some c ∧ Minds key b b₁ ∧ b₁.Queued key := by
  obtain ⟨c₁, hfilter, heq⟩ := Option.map_eq_some_iff.mp h
  obtain ⟨rfl, rfl⟩ := Prod.mk.inj heq
  obtain ⟨hget, hopen⟩ := Option.filter_eq_some_iff.mp hfilter
  have hany : (b.connections.get key).any (isConnectionOpen env.quiche) = true := by
    rw [hget]
    exact hopen
  unfold Connections.getMarkActiveIf
  rw [if_pos hany]
  exact ⟨hget, .mark b key rfl, fun _ => LinkedHashSet.mem_replace.mpr (.inr rfl)⟩

/-! ## Scheduled events -/

theorem handleScheduledEvent_minds (b : QuicheBackend Conn Cfg G T) (event : TimerEvent) :
    Minds event.connectionKey b (b.handleScheduledEvent env event) ∧
      (b.handleScheduledEvent env event).Queued event.connectionKey := by
  have hminds {b₁ : QuicheBackend Conn Cfg G T} (hmark : Minds event.connectionKey b b₁)
      (hqueued : b₁.Queued event.connectionKey) {b' : QuicheBackend Conn Cfg G T}
      (h : Minds event.connectionKey b₁ b') :
      Minds event.connectionKey b b' ∧ b'.Queued event.connectionKey :=
    ⟨hmark.trans h, h.queued hqueued⟩
  unfold handleScheduledEvent
  simp only
  split
  · next hmark =>
    rw [Connections.getMarkActive, Option.map_eq_none_iff] at hmark
    exact ⟨.refl _ b, Attendance.queued_of_dead hmark⟩
  · next connections c hmark =>
    obtain ⟨hget, hactive, hqueued⟩ := getMarkActive_minds hmark
    apply hminds hactive hqueued
    generalize hb₁ : { b with connections } = b₁
    replace hget : b₁.connections.get event.connectionKey = some c := hb₁ ▸ hget
    split
    · exact .refl _ b₁
    · exact .put hget rfl
    · split
      · exact .refl _ b₁
      · have htimers : (c.getHaltEvent event.connectionKey .timeout).1.timerKey = c.timerKey := by
          unfold Connection.getHaltEvent
          split <;> rfl
        generalize c.getHaltEvent event.connectionKey .timeout = halted at htimers ⊢
        have hreport := (Minds.put hget htimers).trans (Minds.push _ (halted.2.toList.map .connection))
        refine hreport.trans ?_
        split
        · exact Minds.put (get_put hget halted.1) rfl
        · apply forgetConnection_minds

theorem handleScheduledEvents_tended (h : Tended env ∅ b) :
    Tended env ∅ (b.handleScheduledEvents env) := by
  apply Attendance.foldl_tended TimerEvent.connectionKey handleScheduledEvent_minds
  refine ⟨h.sound, fun k => ?_⟩
  by_cases hpopped : ⟨k, .quicheTimeout⟩ ∈ b.time.popFiredEvents.2
  · exact .inr (.inr (List.mem_map_of_mem (f := TimerEvent.connectionKey) hpopped))
  · rcases h.attended k with hmem | hattended | hother
    · exact .inl hmem
    · refine .inr (.inl fun c hget htimeout => ?_)
      exact (EventTimer.awaits_popFiredEvents (hattended c hget htimeout)).resolve_right hpopped
    · exact absurd hother (Set.notMem_empty k)

/-! ## `send` -/

/-- What `send_packets` does for the loop. -/
theorem poll_minds {s s' : QuicheBackend Conn Cfg G T × List Message} {o : Outcome}
    (hpoll : (poller env).poll s key = some (s', o)) :
    Minds key s.1 s'.1 ∧ (s.1.ledger.Sound → s'.1.Attended env key) := by
  obtain ⟨⟨b', out', result⟩, hsend, heq⟩ := Option.map_eq_some_iff.mp hpoll
  obtain ⟨rfl, rfl⟩ := Prod.mk.inj heq
  exact sendPackets_minds hsend

/-- The steps of the loop attend to the connections. -/
theorem poller_attends : (poller env).Attends (attendance.comap Prod.fst) (HasTimeout env) where
  queue := rfl
  conn := rfl
  pop s hsound := ⟨hsound, fun _ hattended => hattended⟩
  forget s k _ := by
    have hminds : Minds k s.1 (s.1.forgetConnection env k) := forgetConnection_minds s.1 k
    refine Attendance.serves_of_attended hminds.others hminds.awaited fun _ => ?_
    exact Attendance.attended_of_dead (get_forgetConnection env s.1 k)
  done s k s' _ hpoll := by
    obtain ⟨hminds, hattended⟩ := poll_minds hpoll
    exact Attendance.serves_of_attended hminds.others hminds.awaited hattended
  again s k s' _ hpoll := by
    obtain ⟨hminds, hattended⟩ := poll_minds hpoll
    have hmark : Minds k s'.1.nextActive (s'.1.nextActive.markActive k) := (markActive_minds ..).1
    have hmarked : (s'.1.nextActive.markActive k).connections.get = s'.1.connections.get ∧
        (s'.1.nextActive.markActive k).time = s'.1.time := by
      unfold markActive Connections.markActive
      split <;> exact ⟨rfl, rfl⟩
    refine Attendance.serves_of_attended ?_ ?_ ?_
    · intro k' hk
      exact (hmark.others k' hk).trans (hminds.others k' hk)
    · intro hsound
      obtain ⟨hsound', hawaited⟩ := hminds.awaited hsound
      obtain ⟨hsound'', hawaited'⟩ := hmark.awaited hsound'
      exact ⟨hsound'', fun k' hk h => hawaited' k' hk (hawaited k' hk h)⟩
    · intro hsound c hget htimeout
      have hget : s'.1.connections.get k = some c := hmarked.1 ▸ hget
      show (s'.1.nextActive.markActive k).time.Awaits _
      rw [hmarked.2]
      exact hattended hsound c hget htimeout
  stop s k s' _ hpoll hsound := by
    obtain ⟨hminds, -⟩ := poll_minds hpoll
    exact ⟨(hminds.awaited hsound).1, fun k' hk => hminds.attended hsound hk⟩

/-- **`send` leaves nobody alone**, unless it strands a connection. -/
theorem send_tended {out out' : List Message}
    (hstrands : ¬ StrandsActive env (b.handleScheduledEvents env) out)
    (h : b.send env out = some (b', out')) (hb : Tended env ∅ b) : Tended env ∅ b' := by
  have hscheduled := handleScheduledEvents_tended hb
  unfold send at h
  rw [sendLoop_eq_run] at h
  have htended := (poller_lawful env).tended poller_attends
    (s := (({ b.handleScheduledEvents env with calls := [] } : QuicheBackend Conn Cfg G T), out))
    (b.handleScheduledEvents env).connections.active.nodup rfl (Nat.le_refl _) hstrands
    ⟨hscheduled.sound, hscheduled.attended⟩ h
  exact ⟨htended.sound, htended.attended⟩

/-! ## `recv` -/

theorem delegatePacket_tended (header : Header) (packet : Packet) (hb : Tended env others b) :
    Tended env others (b.delegatePacket env header packet).1 := by
  unfold delegatePacket
  split
  · exact hb
  · next key _ =>
    split
    · exact hb
    · next connections c hmark =>
      obtain ⟨hget, hactive, hqueued⟩ := getMarkActive_minds hmark
      refine hactive.tended_of_marked hqueued ?_ hb
      generalize hb₁ : { b with connections } = b₁
      replace hget : b₁.connections.get key = some c := hb₁ ▸ hget
      generalize env.quiche.recv c.inner packet.payload _ = received
      obtain ⟨inner, result⟩ := received
      simp only
      split
      · exact forgetConnection_minds b₁ key
      · refine .trans ?_ (scheduleQuicheTimeout_minds env _ key)
        refine .trans ?_ (writeStreamDgramEvents_minds env _ key)
        refine .trans ?_ (handlePathEvents_minds _ key)
        have hput : Minds key b₁ (b₁.put key { c with inner }) := .put hget rfl
        have hreceived := hput.trans (log_minds _ key (.recv key packet.payload))
        have hget' := get_put hget { c with inner }
        refine hreceived.trans ?_
        generalize hb₂ : (b₁.put key { c with inner }).log (.recv key packet.payload) = b₂
        replace hget' : b₂.connections.get key = some { c with inner } := hb₂ ▸ hget'
        generalize { c with inner } = c' at hget' ⊢
        cases result with
        | ok read =>
          simp only
          split
          · apply checkConnectionHandshakeProgress_minds
          · exact .refl key b₂
        | error e =>
          refine (Minds.put hget' ?_).trans (Minds.push _ _)
          have hreported (p q : Prop) [Decidable p] [Decidable q] := (reported_if p
            (c'.getHaltEvent_reported key .unknownVersion)).trans (reported_if q
              (Connection.getCloseEvent_reported env.quiche _ key))
          exact (hreported _ _).timers

/-- A new connection is in the queue. -/
theorem insert_minds {peerAddr : SocketAddr} {connections : Connections Conn}
    (hentry : c.entry = ⟨fun _ => none, false⟩)
    (h : b.connections.insert env.quiche c peerAddr = some (connections, key)) :
    Minds key b { b with connections } ∧ { b with connections }.Queued key := by
  obtain ⟨hkey, hall, hactive, -⟩ := Connections.insert_cases h
  obtain ⟨-, hget⟩ := Connections.insert_spec env.quiche h
  have hqueue {k : ConnectionKey} (hk : k ∈ b.connections.active.toList ∨ k = key) :
      k ∈ connections.active.toList := by
    rw [hactive]
    exact LinkedHashSet.mem_replace.mpr hk
  have hregister (isServer : Bool) := Ledger.Step.register b.ledger
    (congrArg (Option.map Connection.entry) (Slots.get_push_key b.connections.all c)) isServer
  have hentries : { b with connections }.ledger.entries =
      Function.update b.ledger.entries b.ledger.nextKey (some ⟨fun _ => none, false⟩) := by
    funext k
    show (connections.get k).map Connection.entry = _
    have hnext : b.ledger.nextKey = key := hkey.symm
    rw [hget k, hnext]
    by_cases hk : k = key
    · subst hk
      rw [if_pos rfl, Function.update_self, Option.map_some, hentry]
    · rw [if_neg hk, Function.update_of_ne hk]
      rfl
  refine ⟨.of_timers (fun k hk => ?_) (fun k _ hk => hqueue (.inl hk)) (fun _ _ => hqueue (.inr rfl)) rfl
    fun hsound => ?_, fun _ => hqueue (.inr rfl)⟩
  · show connections.get k = _
    rw [hget k, if_neg hk]
  · exact ⟨(hsound.step (hregister true)).of_eq rfl hentries, fun _ _ harmed => harmed⟩

theorem registerNewConnection_tended {peerAddr : SocketAddr}
    (hentry : c.entry = ⟨fun _ => none, false⟩)
    (h : b.registerNewConnection env c peerAddr = some (b', key)) (hb : Tended env others b) :
    Tended env others b' := by
  simp only [registerNewConnection, Option.bind_eq_bind, Option.bind_eq_some_iff] at h
  obtain ⟨⟨connections, k⟩, hinsert, b₁, hestablish, h⟩ := h
  obtain ⟨rfl, rfl⟩ := Prod.mk.inj (Option.some.inj h)
  obtain ⟨hminds, hqueued⟩ := insert_minds hentry hinsert
  have hscheduled := scheduleQuicheTimeout_minds env { b with connections } k
  have hestablished := hscheduled.trans (scheduleEstablishTimeout_minds hestablish)
  exact hminds.tended_of_marked hqueued (hestablished.trans (Minds.push b₁ _)) hb

theorem acceptConnection_tended {server : ServerConfig Cfg T} {packet : Packet} {scid : ConnectionId}
    {token : Option Token} (h : b.acceptConnection env server packet scid token = some b')
    (hb : Tended env others b) : Tended env others b' := by
  have hconfig (config : Config Cfg G T) : Tended env others { b with config } := hb.of_eq rfl rfl
  unfold acceptConnection at h
  split at h
  simp only at h
  split at h
  · cases h
    exact hconfig _
  · obtain ⟨⟨b₁, key⟩, hregister, rfl⟩ := Option.map_eq_some_iff.mp h
    exact (registerNewConnection_tended (entry_new ..) hregister (hconfig _)).of_eq rfl rfl

theorem respondWithRetry_tended {server : ServerConfig Cfg T} {header : Header} {packet : Packet}
    {scid : ConnectionId} {out out' : List Message} {consumed : Bool}
    (h : b.respondWithRetry env server header packet scid out = some (b', out', consumed))
    (hb : Tended env others b) : Tended env others b' := by
  simp only [respondWithRetry, Option.bind_eq_bind, Option.bind_eq_some_iff] at h
  obtain ⟨expiresAt, -, h⟩ := h
  split at h
  · cases h
    exact hb.of_eq rfl rfl
  · obtain ⟨⟨io, out₁, result⟩, -, h⟩ := Option.bind_eq_some_iff.mp h
    simp only at h
    split at h <;> cases h <;> exact hb.of_eq rfl rfl

theorem handleInitialPacketAsServer_tended {header : Header} {packet : Packet}
    {out out' : List Message} {consumed : Bool}
    (h : b.handleInitialPacketAsServer env header packet out = some (b', out', consumed))
    (hb : Tended env others b) : Tended env others b' := by
  have hconfig (config : Config Cfg G T) : Tended env others { b with config } := hb.of_eq rfl rfl
  unfold handleInitialPacketAsServer at h
  split at h
  · cases h
    exact hb
  · split at h
    · obtain ⟨⟨io, out₁, result⟩, -, h⟩ := Option.bind_eq_some_iff.mp h
      cases h
      exact hb.of_eq rfl rfl
    · split at h
      · cases h
        exact hb
      · simp only at h
        split at h
        · cases h
          exact hconfig _
        · obtain ⟨b₁, haccept, heq⟩ := Option.map_eq_some_iff.mp h
          obtain ⟨rfl, -⟩ := Prod.mk.inj heq
          exact acceptConnection_tended haccept (hconfig _)
        · split at h
          · obtain ⟨b₁, haccept, heq⟩ := Option.map_eq_some_iff.mp h
            obtain ⟨rfl, -⟩ := Prod.mk.inj heq
            exact acceptConnection_tended haccept (hconfig _)
          · exact respondWithRetry_tended h (hconfig _)

theorem handlePacketWithStatelessReset_tended {header : Header} {packet : Packet}
    {out out' : List Message}
    (h : b.handlePacketWithStatelessReset env header packet out = some (b', out'))
    (hb : Tended env others b) : Tended env others b' := by
  unfold handlePacketWithStatelessReset at h
  split at h
  · cases h
    exact hb
  · obtain ⟨_, -, heq⟩ := Option.map_eq_some_iff.mp h
    cases heq
    exact hb.of_eq rfl rfl

theorem recvPacket_tended {cidLength : Nat} {packet : Packet} {out out' : List Message}
    {consumed : Bool} (h : recvPacket env cidLength b packet out = some (b', out', consumed))
    (hb : Tended env others b) : Tended env others b' := by
  unfold recvPacket at h
  split at h
  · cases h
    exact hb
  · next header _ =>
    split at h
    · split at h
      · exact handleInitialPacketAsServer_tended h hb
      · cases h
        exact hb
    · have hdelegated := delegatePacket_tended header packet hb
      generalize b.delegatePacket env header packet = delegated at hdelegated h
      obtain ⟨b₁, handled⟩ := delegated
      cases handled with
      | true =>
        cases h
        exact hdelegated
      | false =>
        obtain ⟨_, hreset, heq⟩ := Option.map_eq_some_iff.mp h
        cases heq
        exact handlePacketWithStatelessReset_tended hreset hdelegated

theorem recvLoop_tended {cidLength : Nat} {packets packets' : List Packet}
    {out out' : List Message}
    (h : recvLoop env cidLength packets b out = some (b', packets', out'))
    (hb : Tended env others b) : Tended env others b' := by
  induction packets generalizing b out with
  | nil =>
    cases h
    exact hb
  | cons packet packets ih =>
    unfold recvLoop at h
    split at h
    · cases h
    · next hpacket => exact ih h (recvPacket_tended hpacket hb)
    · next hpacket =>
      cases h
      exact recvPacket_tended hpacket hb

/-! ## The application -/

/-- An operation on an open connection marks it. -/
theorem Tended.of_open (hb : Tended env others b) (hopen : b.getOpen env key = some (b₁, c))
    (h : Minds key b₁ b') : Tended env others b' := by
  obtain ⟨-, hmark, hqueued⟩ := getOpen_minds hopen
  exact hmark.tended_of_marked hqueued h hb

theorem put_of_open (hopen : b.getOpen env key = some (b₁, c)) (htimers : c'.timerKey = c.timerKey) :
    Minds key b₁ (b₁.put key c') := .put (getOpen_minds hopen).1 htimers

theorem closeOne_minds (err : Nat) (reason : List UInt8) (b : QuicheBackend Conn Cfg G T)
    (key : ConnectionKey) :
    Minds key b (closeOne env err reason b key) ∧ (closeOne env err reason b key).Queued key := by
  unfold closeOne
  split
  · next hmark =>
    rw [Connections.getMarkActive, Option.map_eq_none_iff] at hmark
    exact ⟨.refl key b, Attendance.queued_of_dead hmark⟩
  · next connections c hmark =>
    obtain ⟨hget, hactive, hqueued⟩ := getMarkActive_minds hmark
    have hput : Minds key { b with connections }
        ({ b with connections }.put key { c with inner := (env.quiche.close c.inner true err reason).1 }) :=
      .put hget rfl
    exact ⟨hactive.trans hput, hput.queued hqueued⟩

theorem close_tended (err : Nat) (reason : List UInt8) (keys : List ConnectionKey)
    (hb : Tended env ∅ b) : Tended env ∅ (b.close env err reason keys) := by
  unfold close
  split
  · apply Attendance.foldl_tended id (closeOne_minds err reason)
    have hclosed : Tended env ∅ { b with isOpen := false } := hb.of_eq rfl rfl
    exact hclosed.mono fun k hk => absurd hk (Set.notMem_empty k)
  · exact hb

theorem connect_tended {serverName : String} {peerAddr : SocketAddr} {session : Option (List UInt8)}
    {result : Except Error ConnectionKey}
    (h : b.connect env serverName peerAddr session = some (b', result)) (hb : Tended env others b) :
    Tended env others b' := by
  have hconfig (config : Config Cfg G T) : Tended env others { b with config } := hb.of_eq rfl rfl
  unfold connect at h
  split at h
  · cases h
    exact hb
  · split at h
    · cases h
      exact hb
    · simp only at h
      split at h
      · cases h
        exact hconfig _
      · next inner _ =>
        obtain ⟨⟨b₁, key⟩, hregister, heq⟩ := Option.map_eq_some_iff.mp h
        obtain ⟨rfl, -⟩ := Prod.mk.inj heq
        refine registerNewConnection_tended ?_ hregister (hconfig _)
        cases session with
        | none => exact entry_new ..
        | some ticket => exact entry_new env.quiche inner true

theorem connectionClose_tended (key : ConnectionKey) (err : Nat) (reason : List UInt8)
    (hb : Tended env others b) : Tended env others (b.connectionClose env key err reason).1 := by
  unfold connectionClose
  split
  · exact hb
  · split
    · exact hb
    · next b₁ c hopen =>
      refine hb.of_open hopen ?_
      split
      · exact put_of_open hopen rfl
      · exact put_of_open hopen rfl
      · next inner _ _ =>
        have htimers := (Connection.getCloseEvent_reported env.quiche { c with inner } key).timers
        exact (put_of_open hopen htimers).trans (Minds.push _ _)

theorem streamRecv_tended (key : ConnectionKey) (streamId : StreamId) (outLen : Nat)
    (hb : Tended env others b) : Tended env others (b.streamRecv env key streamId outLen).1 := by
  unfold streamRecv
  split
  · exact hb
  · split
    · exact hb
    · split
      · exact hb
      · split
        · exact hb
        · next hopen => exact hb.of_open hopen (put_of_open hopen rfl)

theorem streamSend_tended (key : ConnectionKey) (streamId : StreamId) (bytes : List UInt8) (fin : Bool)
    (hb : Tended env others b) : Tended env others (b.streamSend env key streamId bytes fin).1 := by
  unfold streamSend
  split
  · exact hb
  · split
    · exact hb
    · split
      · exact hb
      · next hopen =>
        refine hb.of_open hopen ?_
        split
        · exact put_of_open hopen rfl
        · exact .refl key _

theorem streamOpenSend_tended (key : ConnectionKey) (bidirectional : Bool) (bytes : List UInt8)
    (fin : Bool) (hb : Tended env others b) :
    Tended env others (b.streamOpenSend env key bidirectional bytes fin).1 := by
  unfold streamOpenSend
  split
  · exact hb
  · split
    · exact hb
    · next b₁ c hopen =>
      have hexhausted := congrArg Entry.timers (entry_setStreamsExhausted c bidirectional)
      split
      · exact hb.of_open hopen (put_of_open hopen hexhausted)
      · split
        · exact hb.of_open hopen (put_of_open hopen hexhausted)
        · next c' streamId hallocate =>
          have htimers := congrArg Entry.timers (entry_allocateStreamId hallocate)
          exact streamSend_tended key streamId bytes fin
            (hb.of_open hopen ((put_of_open hopen htimers).trans (Minds.push _ _)))

theorem changeStream_tended (key : ConnectionKey) (illegal : Bool) (change : Conn → Conn)
    (hb : Tended env others b) : Tended env others (b.changeStream env key illegal change) := by
  unfold changeStream
  split
  · exact hb
  · split
    · exact hb
    · next hopen => exact hb.of_open hopen (put_of_open hopen rfl)

theorem dgramSend_tended (key : ConnectionKey) (bytes : List UInt8) (hb : Tended env others b) :
    Tended env others (b.dgramSend env key bytes).1 := by
  unfold dgramSend
  split
  · exact hb
  · split
    · exact hb
    · next hopen =>
      refine hb.of_open hopen ?_
      split <;> exact put_of_open hopen rfl

/-- quiche's `dgram_recv_vec` takes a datagram from a queue, and has nothing to do with timeouts. -/
def KeepsTimeout (lib : Library Conn Cfg) : Prop :=
  ∀ c, lib.timeoutInstant (lib.dgramRecvVec c).1 = lib.timeoutInstant c

/-- A connection is changed without being marked, and keeps its timeout. -/
theorem put_tended (hget : b.connections.get key = some c) (htimers : c'.timerKey = c.timerKey)
    (htimeout : env.quiche.timeoutInstant c'.inner = env.quiche.timeoutInstant c.inner)
    (hb : Tended env others b) : Tended env others (b.put key c') := by
  have hminds : Minds key b (b.put key c') := .put hget htimers
  apply hminds.tended_of_attended rfl ?_ hb
  intro hattended c₁ hget₁ hneeds
  obtain rfl := Option.some.inj ((get_put hget c').symm.trans hget₁)
  unfold HasTimeout at hneeds
  rw [htimeout] at hneeds
  exact hattended c hget hneeds

/-- Receiving a datagram does not mark the connection. -/
theorem dgramRecvZc_tended (hlib : KeepsTimeout env.quiche) (key : ConnectionKey)
    (hb : Tended env others b) : Tended env others (b.dgramRecvZc env key).1 := by
  unfold dgramRecvZc
  split
  · exact hb
  · split
    · exact hb
    · next c hget =>
      have htimeout := hlib c.inner
      split
      · next hresult =>
        rw [hresult] at htimeout
        exact put_tended hget rfl htimeout hb
      · next hresult =>
        rw [hresult] at htimeout
        exact put_tended hget rfl htimeout hb
      · next hresult =>
        rw [hresult] at htimeout
        exact put_tended hget rfl htimeout hb

/-! ## Migration -/

/-- The first loop changes connections, and the decisions name them. -/
theorem migrateSources_tended (keys : List ConnectionKey) (hb : Tended env others b) :
    Tended env {k | k ∈ (migrateSources env keys b).2.map Prod.fst ∨ k ∈ others}
      (migrateSources env keys b).1 := by
  induction keys generalizing b others with
  | nil => exact hb.mono fun k hk => .inr hk
  | cons key keys ih =>
    unfold migrateSources
    split
    · exact ih hb
    · next c hfilter =>
      obtain ⟨hget, -⟩ := Option.filter_eq_some_iff.mp hfilter
      have hpending {b₁ : QuicheBackend Conn Cfg G T} (hminds : Minds key b b₁) (decision : Bool) :
          Tended env {k | k ∈ ((key, decision) :: (migrateSources env keys b₁).2).map Prod.fst ∨
            k ∈ others} (migrateSources env keys b₁).1 := by
        apply (ih (hminds.tended hb)).mono
        intro k hk
        rcases hk with hk | rfl | hk
        · exact .inl (List.mem_cons_of_mem _ hk)
        · exact .inl List.mem_cons_self
        · exact .inr hk
      split
      · next inner _ _ =>
        have hsize := (getDgramOutSizeEvent_announces env.quiche { c with inner } key).1
        exact hpending ((Minds.put hget (congrArg Entry.timers hsize)).trans (Minds.push _ _)) true
      · next inner _ _ =>
        have hhalted := (Connection.getHaltEvent_reported { c with inner } key .migrationFailed).timers
        exact hpending ((Minds.put hget hhalted).trans (Minds.push _ _)) false

theorem applyDecision_minds (b : QuicheBackend Conn Cfg G T) (decision : ConnectionKey × Bool) :
    Minds decision.1 b (b.applyDecision env decision) ∧
      (b.applyDecision env decision).Queued decision.1 := by
  unfold applyDecision
  split
  · exact markActive_minds b decision.1
  · exact ⟨forgetConnection_minds b decision.1, Attendance.queued_of_dead (get_forgetConnection ..)⟩

theorem migrateNetwork_tended (newListenAddr : Option IpAddr) (keys : List ConnectionKey)
    (hb : Tended env ∅ b) : Tended env ∅ (b.migrateNetwork env newListenAddr keys).1 := by
  unfold migrateNetwork
  split
  · exact hb
  · split
    · exact hb
    · have hlisten : Tended env ∅ { b with listenAddr := newListenAddr.getD b.listenAddr } :=
        hb.of_eq rfl rfl
      apply Attendance.foldl_tended Prod.fst applyDecision_minds
      apply (migrateSources_tended keys hlisten).mono
      intro k hk
      exact hk.resolve_right (Set.notMem_empty k)

/-! ## `tick` -/

/-- A timeout that comes up is no longer in the wheel, but has fired. -/
theorem tick_tended (hfit : WheelTimer.EpochsFitDuring (b.time.clock.nanos + 1 - b.time.timer.currentClock)
      b.time.timer b.time.clock.nanos) (hafter : b.tick.time.timer.EpochsFit)
    (hb : Tended env others b) : Tended env others b.tick := by
  refine hb.keep rfl rfl fun hsound => ?_
  obtain ⟨htimed, hdistinct⟩ := hsound
  obtain ⟨hshape, hdetaches⟩ := WheelTimer.progressLoop_detaches _ htimed.shape hfit
  refine ⟨⟨⟨hshape, hafter, ?_, ?_⟩, hdistinct⟩, fun k hawaited => ?_⟩
  · intro key entry kind timerKey hget hkind
    exact hdetaches.keeps timerKey (htimed.issued key entry kind timerKey hget hkind)
  · intro timerKey event hlookup
    exact htimed.found timerKey event (hdetaches.lookup timerKey _ hlookup)
  · exact EventTimer.Awaits.tick hdetaches hawaited

end QuicheBackend

/-! ## Every run -/

namespace Running

variable {Conn Cfg G T : Type} (env : Env Conn Cfg G T)

open QuicheBackend

/-- The condition on an operation: no level of the wheel passes epoch `2 ^ 64 - 2`, and `send` strands
nobody. -/
def StrandsNobody (s : Running Conn Cfg G T) (op : Operation) : Prop :=
  EpochsFit s op ∧ ∀ out, op = .send out → ¬ StrandsActive env (s.backend.handleScheduledEvents env) out

variable {env} {s s' : Running Conn Cfg G T}

theorem tended_init (h : Init s) : Tended env ∅ s.backend := by
  have htimed := timed_init h
  obtain ⟨-, config, listenAddr, clock, clockSys, rng, hnew⟩ := h
  obtain ⟨buffer, -, hbackend⟩ := Option.map_eq_some_iff.mp hnew
  have hdead (key : ConnectionKey) : s.backend.connections.get key = none := by
    rw [← hbackend]
    rfl
  refine ⟨⟨htimed, fun key entry kind timerKey key' entry' kind' hget => ?_⟩,
    fun key => .inr (.inl (Attendance.attended_of_dead (hdead key)))⟩
  have hnone : s.backend.ledger.entries key = none := by
    show (s.backend.connections.get key).map Connection.entry = none
    rw [hdead key]
    rfl
  rw [hnone] at hget
  cases hget

theorem tended_exec (hlib : KeepsTimeout env.quiche) {op : Operation} (h : Tended env ∅ s.backend)
    (hop : StrandsNobody env s op) (hexec : exec env s op = some s') : Tended env ∅ s'.backend := by
  obtain ⟨b, hcall, rfl⟩ := Option.map_eq_some_iff.mp hexec
  show Tended env ∅ b
  cases op with
  | clockUpdate clock clockSys =>
    cases hcall
    exact ⟨h.sound, h.attended⟩
  | consumeEvents =>
    cases hcall
    exact h.of_eq rfl rfl
  | close err reason keys =>
    simp only [call] at hcall
    split at hcall <;> cases hcall
    exact close_tended err reason keys h
  | connect serverName peerAddr session =>
    obtain ⟨⟨b₁, _⟩, hconnect, rfl⟩ := Option.map_eq_some_iff.mp hcall
    exact connect_tended hconnect h
  | connectionClose key err reason =>
    cases hcall
    exact connectionClose_tended key err reason h
  | send out =>
    obtain ⟨⟨b₁, _⟩, hsend, rfl⟩ := Option.map_eq_some_iff.mp hcall
    exact send_tended (hop.2 out rfl) hsend h
  | recv inPackets outMessages =>
    obtain ⟨⟨b₁, _⟩, hrecv, rfl⟩ := Option.map_eq_some_iff.mp hcall
    exact recvLoop_tended hrecv (h.of_eq rfl rfl)
  | tick =>
    cases hcall
    obtain ⟨hduring, hafter⟩ := hop.1 rfl
    exact tick_tended hduring hafter h
  | migrateNetwork newListenAddr keys =>
    simp only [call] at hcall
    split at hcall <;> cases hcall
    exact migrateNetwork_tended newListenAddr keys h
  | streamRecv key streamId outLen =>
    cases hcall
    exact streamRecv_tended key streamId outLen h
  | streamOpenSend key bidirectional bytes fin =>
    cases hcall
    exact streamOpenSend_tended key bidirectional bytes fin h
  | streamSend key streamId bytes fin =>
    cases hcall
    exact streamSend_tended key streamId bytes fin h
  | streamStopSending key streamId err =>
    cases hcall
    exact changeStream_tended key _ _ h
  | streamResetSending key streamId err =>
    cases hcall
    exact changeStream_tended key _ _ h
  | streamSetPriority key streamId priority =>
    cases hcall
    exact changeStream_tended key _ _ h
  | dgramRecv key outLen =>
    cases hcall
    exact dgramRecvZc_tended hlib key h
  | dgramRecvZc key =>
    cases hcall
    exact dgramRecvZc_tended hlib key h
  | dgramSend key bytes =>
    cases hcall
    exact dgramSend_tended key bytes h
  | dropMessage i =>
    cases hcall
    exact h.of_eq rfl rfl

theorem tended_of_reachable (hlib : KeepsTimeout env.quiche)
    (h : Reachable Init (StrandsNobody env) (exec env) s) : Tended env ∅ s.backend :=
  h.invariant (fun _ => tended_init) fun _ _ _ hinv hop hexec => tended_exec hlib hinv hop hexec

/-- **No connection is left alone**, in every run in which no level of the wheel passes epoch
`2 ^ 64 - 2` and `send` strands nobody: a live connection waits to be polled, or its timeout is pending or
has fired, unless quiche asks for no timeout. -/
theorem no_connection_left_alone (hlib : KeepsTimeout env.quiche)
    (h : Reachable Init (StrandsNobody env) (exec env) s) {key : ConnectionKey} {c : Connection Conn}
    (hget : s.backend.connections.get key = some c) :
    key ∈ s.backend.connections.active.toList ∨ 0 < s.pending key .quicheTimeout ∨
      s.backend.Fired key ∨ env.quiche.timeoutInstant c.inner = none := by
  rcases (tended_of_reachable hlib h).attended key with hmem | hattended | hother
  · exact .inl hmem
  · cases hdue : env.quiche.timeoutInstant c.inner with
    | none => exact .inr (.inr (.inr rfl))
    | some due =>
      have htimeout : HasTimeout env c := by
        unfold HasTimeout
        rw [hdue]
        exact Option.some_ne_none due
      rcases hattended c hget htimeout with hpending | hfired
      · exact .inr (.inl (WheelTimer.pending_iff_countP_pos.mp hpending))
      · exact .inr (.inr (.inl hfired))
  · exact absurd hother (Set.notMem_empty key)

/-- A condition that can be evaluated: whoever has another one behind him in the queue is open. -/
def OpenAhead (env : Env Conn Cfg G T) (s : Running Conn Cfg G T) (op : Operation) : Prop :=
  EpochsFit s op ∧
    ∀ key ∈ (s.backend.handleScheduledEvents env).connections.active.toList.dropLast,
      ((s.backend.handleScheduledEvents env).connections.get key).any (env.quiche.isClosed ·.inner) = false

instance (env : Env Conn Cfg G T) (s : Running Conn Cfg G T) (op : Operation) :
    Decidable (OpenAhead env s op) :=
  inferInstanceAs (Decidable (_ ∧ _))

theorem strandsNobody_of_openAhead (h : Reachable Init (OpenAhead env) (exec env) s) :
    Reachable Init (StrandsNobody env) (exec env) s :=
  h.invariant (fun _ => .init) fun _ _ _ hs hopen hexec =>
    hs.step ⟨hopen.1, fun _ _ => not_strandsActive_of_open env hopen.2⟩ hexec

/-- A timeout comes up while a second connection waits in the queue: the first one is neither in the queue nor
in the wheel, but has fired. -/
theorem no_connection_left_alone_fired :
    ∃ s : Running IdleConnection Unit RandomIdGenerator Unit,
      0 ∉ s.backend.connections.active.toList ∧ s.pending 0 .quicheTimeout = 0 ∧ s.backend.Fired 0 := by
  let second : Instant := ⟨10 ^ 6, by decide⟩
  let fourth : Instant := ⟨3 * 10 ^ 6, by decide⟩
  have hrun : ∃ s : Running IdleConnection Unit RandomIdGenerator Unit,
      Reachable Init (OpenAhead (expiringEnv second)) (exec (expiringEnv second)) s ∧
        decide (0 ∉ s.backend.connections.active.toList ∧ s.pending 0 .quicheTimeout = 0 ∧
          (s.backend.connections.get 0).isSome) = true :=
    exists_reachable (idleClient.map (⟨·, []⟩)) (fun s hs => by
        obtain ⟨b, hb, rfl⟩ := Option.map_eq_some_iff.mp hs
        exact idleClient_init hb)
      [.connect "" peerAddr none, .send [], .connect "" peerAddr none, .clockUpdate fourth 0, .tick]
      (by decide +kernel)
  obtain ⟨s, hs, hstate⟩ := hrun
  obtain ⟨hqueue, hpending, hlive⟩ := of_decide_eq_true hstate
  obtain ⟨c, hget⟩ := Option.isSome_iff_exists.mp hlive
  refine ⟨s, hqueue, hpending, ?_⟩
  rcases no_connection_left_alone (fun _ => rfl) (strandsNobody_of_openAhead hs) hget with
    hmem | hpos | hfired | hnone
  · exact absurd hmem hqueue
  · exact absurd hpending hpos.ne'
  · exact hfired
  · cases hnone

end Running

end Aquic.Backend.Quiche

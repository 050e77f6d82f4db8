import Aquic.Backend.Quinn.Minds
import Aquic.Backend.Quinn.Pending

/-!
# No connection of quinn is left alone

As in the quiche backend, every operation that changes a connection marks it, and `send` schedules the timeout of
each connection that it takes from the queue: a live connection waits to be polled, or a timer will bring it back,
if `send` does not strand one.
-/

namespace Aquic.Backend.Quinn

open Aquic.Collections Aquic.Net Aquic.Polling Aquic.Run Aquic.Stream Aquic.Timer

namespace QuinnBackend

variable {Conn : Type} {lib : Library Conn} {b b' : QuinnBackend Conn} {id : QuinnConnectionId}
  {key : ConnectionKey} {c c' : Connection Conn} {others : Set ConnectionKey}

/-- Neither the connections nor the timers change. -/
theorem Tended.of_eq (h : Tended lib others b) (hconnections : b'.connections = b.connections)
    (htime : b'.time = b.time) : Tended lib others b' := by
  apply h.keep
  · exact congrArg (fun connections => connections.active.toList) hconnections
  · exact congrArg (fun connections => connections.all.get) hconnections
  · intro hsound
    refine ⟨?_, fun k hawaited => ?_⟩
    · show Remembers _ _
      unfold timerKeys
      rw [htime, hconnections]
      exact hsound
    · obtain ⟨c, hget, hawaits⟩ := hawaited
      exact ⟨c, hconnections ▸ hget, htime ▸ hawaits⟩

/-! ## Scheduled events -/

/-- A timeout of a connection that is gone is ignored, even if its handle is in use again. -/
theorem handleScheduledEvent_minds (b : QuinnBackend Conn) (id : QuinnConnectionId) :
    (Minds id.key b (b.handleScheduledEvent lib id) ∧ (b.handleScheduledEvent lib id).Queued id.key) ∨
      (b.handleScheduledEvent lib id = b ∧ ∀ c ∈ b.connections.all.get id.key, ¬ c.version = id.version) := by
  unfold handleScheduledEvent
  cases hmark : b.connections.getMarkActive id with
  | none =>
    refine .inr ⟨rfl, fun c hget hversion => ?_⟩
    have hnone : b.connections.get id = none := Option.map_eq_none_iff.mp hmark
    rw [Connections.get, Option.filter_eq_none_iff] at hnone
    exact hnone c hget (decide_eq_true hversion)
  | some marked =>
    obtain ⟨connections, c⟩ := marked
    obtain ⟨hget, -, hactive, hqueued⟩ := getMarkActive_minds hmark
    have hput (inner : Conn) : Minds id.key { b with connections }
        ({ b with connections }.put id.key { c with inner }) := .put hget rfl
    exact .inl ⟨hactive.trans (hput _), (hput _).queued hqueued⟩

theorem handleScheduledEvents_tended (h : Tended lib ∅ b) : Tended lib ∅ (b.handleScheduledEvents lib) := by
  apply Attendance.foldl_tended_of_about QuinnConnectionId.key (fun id c => c.version = id.version)
    handleScheduledEvent_minds
  have hsound : Sound { b with time := b.time.popFiredEvents.1 } := h.sound
  refine ⟨hsound, fun k => ?_⟩
  rcases h.attended k with hmem | hattended | hother
  · exact .inl hmem
  · cases hget : b.connections.all.get k with
    | none => exact .inr (.inl (Attendance.attended_of_dead hget))
    | some c =>
      by_cases hpopped : c.id k ∈ b.time.popFiredEvents.2
      · exact .inr (.inr ⟨c.id k, hpopped, rfl, c, hget, rfl⟩)
      · refine .inr (.inl fun c₁ hget₁ hneeds => ?_)
        obtain ⟨c₂, hget₂, hawaits⟩ := hattended c₁ hget₁ hneeds
        obtain rfl := Option.some.inj (hget.symm.trans hget₂)
        exact ⟨c, hget, (EventTimer.awaits_popFiredEvents hawaits).resolve_right hpopped⟩
  · exact absurd hother (Set.notMem_empty k)

/-! ## `send` -/

theorem writePending_timer {io io' : Io} {out out' : List Message} {now : Instant} {complete : Bool}
    (h : io.writePending .release lib c out now = some (io', c', out', complete)) :
    c'.timerQuinnTimeoutKey = c.timerQuinnTimeoutKey := by
  obtain ⟨written, -, heq⟩ := Option.map_eq_some_iff.mp h
  obtain ⟨-, heq⟩ := Prod.mk.inj heq
  obtain ⟨rfl, -⟩ := Prod.mk.inj heq
  rfl

/-- What `write_pending` does for the loop. -/
theorem poll_minds {s s' : QuinnBackend Conn × List Message} {o : Outcome}
    (hpoll : (poller lib).poll s key = some (s', o)) : Minds key s.1 s'.1 := by
  cases hget : s.1.connections.all.get key with
  | none =>
    rw [poll_none lib hget hpoll]
    exact .refl key s.1
  | some c =>
    obtain ⟨io, c', complete, hwrite, -, heq⟩ := poll_spec lib hget hpoll
    have hio : Minds key s.1 { s.1 with io } := .of_eq rfl rfl rfl
    have hput : Minds key { s.1 with io } ({ s.1 with io }.put key c') := .put hget (writePending_timer hwrite)
    rw [heq]
    exact (hio.trans hput).trans (Minds.of_eq rfl rfl rfl)

/-- The steps of the loop attend to the connections. -/
theorem poller_attends (hlib : KeepsTimeout lib) :
    (poller lib).Attends (attendance.comap Prod.fst) (HasTimeout lib) where
  queue := rfl
  conn := rfl
  pop s hsound := ⟨hsound, fun _ hattended => hattended⟩
  forget s k hlive := by
    obtain ⟨c, hget⟩ := Option.isSome_iff_exists.mp hlive
    replace hget : s.1.connections.all.get k = some c := hget
    have hforget : (poller lib).forget s k = (s.1.forgetConnection (c.id k), s.2) := by
      simp only [poller, hget]
    rw [hforget]
    have hminds := forgetConnection_minds s.1 (c.id k)
    refine Attendance.serves_of_attended hminds.others hminds.awaited fun _ => ?_
    apply Attendance.attended_of_dead
    exact ((forgetConnection_forgets hget).get k).trans (if_pos rfl)
  done s k s' hlive hpoll := by
    have hminds := poll_minds hpoll
    obtain ⟨c, hget⟩ := Option.isSome_iff_exists.mp hlive
    obtain ⟨io, c', complete, -, -, heq⟩ := poll_spec lib hget hpoll
    have hget' : s'.1.nextActive.connections.all.get k = some c' := by
      show s'.1.connections.all.get k = some c'
      rw [heq]
      exact get_put (b := { s.1 with io }) hget c'
    have hsettle : (poller lib).settle ((poller lib).pop s') k =
        (s'.1.nextActive.scheduleQuinnTimeout lib (c'.id k), s'.2) := by
      simp only [poller, hget']
    have hschedule := scheduleQuinnTimeout_minds lib s'.1.nextActive (c'.id k)
    rw [hsettle]
    refine Attendance.serves_of_attended ?_ ?_ ?_
    · intro k' hk
      exact (hschedule.others k' hk).trans (hminds.others k' hk)
    · intro hsound
      obtain ⟨hsound', hawaited⟩ := hminds.awaited hsound
      obtain ⟨hsound'', hawaited'⟩ := hschedule.awaited hsound'
      exact ⟨hsound'', fun k' hk h => hawaited' k' hk (hawaited k' hk h)⟩
    · intro hsound
      have hsound' : s'.1.nextActive.Sound := (hminds.awaited hsound).1
      exact scheduleQuinnTimeout_attended hlib hsound' (Connections.get_id hget')
  again s k s' hlive hpoll := by
    -- polling never asks for that
    obtain ⟨c, hget⟩ := Option.isSome_iff_exists.mp hlive
    obtain ⟨io, c', complete, -, ho, -⟩ := poll_spec lib hget hpoll
    cases complete <;> cases ho
  stop s k s' _ hpoll hsound := by
    have hminds := poll_minds hpoll
    exact ⟨(hminds.awaited hsound).1, fun k' hk => hminds.attended hsound hk⟩

/-- **`send` leaves nobody alone**, unless it strands a connection. -/
theorem send_tended (hlib : KeepsTimeout lib) {out out' : List Message}
    (hstrands : ¬ StrandsActive lib (b.handleScheduledEvents lib) out)
    (h : b.send lib out = some (b', out')) (hb : Tended lib ∅ b) : Tended lib ∅ b' := by
  have hscheduled := handleScheduledEvents_tended hb
  unfold send at h
  rw [sendLoop_eq_run] at h
  have htended := (poller_lawful lib).tended (poller_attends hlib)
    (s := (({ b.handleScheduledEvents lib with calls := [] } : QuinnBackend Conn), out))
    (b.handleScheduledEvents lib).connections.active.nodup rfl (Nat.le_refl _) hstrands
    ⟨hscheduled.sound, hscheduled.attended⟩ h
  exact ⟨htended.sound, htended.attended⟩

/-! ## `tick` -/

theorem tick_tended (hfit : WheelTimer.EpochsFitDuring (b.time.clock.nanos + 1 - b.time.timer.currentClock)
      b.time.timer b.time.clock.nanos) (hafter : b.time.tick.timer.EpochsFit)
    (hb : Tended lib others b) : Tended lib others { b with time := b.time.tick } := by
  refine hb.keep rfl rfl fun hsound => ?_
  obtain ⟨hshape, hdetaches⟩ := WheelTimer.progressLoop_detaches _ (Remembers.shape hsound) hfit
  refine ⟨⟨hshape, hafter, ?_, ?_⟩, fun k hawaited => ?_⟩
  · intro k timerKey hkey
    exact hdetaches.keeps timerKey (Remembers.issued hsound k timerKey hkey)
  · intro k timerKey id hkey hlookup
    exact Remembers.own hsound k timerKey id hkey (hdetaches.lookup timerKey _ hlookup)
  · obtain ⟨c, hget, hawaits⟩ := hawaited
    exact ⟨c, hget, EventTimer.Awaits.tick hdetaches hawaits⟩

/-- A connection is changed without being marked, and asks for no new timeout. -/
theorem put_tended (hget : b.connections.all.get key = some c)
    (htimer : c'.timerQuinnTimeoutKey = c.timerQuinnTimeoutKey) (hversion : c'.version = c.version)
    (htimeout : HasTimeout lib c' → HasTimeout lib c) (hb : Tended lib others b) :
    Tended lib others (b.put key c') := by
  have hminds : Minds key b (b.put key c') := .put hget htimer
  apply hminds.tended_of_attended rfl ?_ hb
  intro hattended c₁ hget₁ hneeds
  obtain rfl := Option.some.inj ((get_put hget c').symm.trans hget₁)
  obtain ⟨c₂, hget₂, hawaits⟩ := hattended c hget (htimeout hneeds)
  obtain rfl := Option.some.inj (hget.symm.trans hget₂)
  refine ⟨_, hget₁, ?_⟩
  unfold Connection.id at hawaits ⊢
  rwa [hversion]

end QuinnBackend

namespace EndpointBackend

variable {Conn End Cfg Incoming Signal Report : Type} {env : Env Conn End Cfg Incoming Signal Report}
  {b b' : EndpointBackend Conn End Cfg} {key : ConnectionKey} {id : QuinnConnectionId}
  {others : Set ConnectionKey}

variable (env) in
abbrev Tended (others : Set ConnectionKey) (b : EndpointBackend Conn End Cfg) : Prop :=
  QuinnBackend.Tended env.quinn others b.toQuinnBackend

theorem Tended.of_eq (h : Tended env others b) (hbase : b'.toQuinnBackend = b.toQuinnBackend) :
    Tended env others b' := by
  unfold Tended
  rwa [hbase]

/-- An operation on an open connection marks it. -/
theorem tended_of_open {backend backend' : QuinnBackend Conn} {c : Connection Conn}
    (hopen : b.getOpen env.quinn id = some (backend, c)) (h : QuinnBackend.Minds id.key backend backend')
    (hb : Tended env others b) : Tended env others { b with toQuinnBackend := backend' } := by
  obtain ⟨-, hmark, hqueued⟩ := QuinnBackend.getOpen_minds hopen
  exact hmark.tended_of_marked hqueued h hb

/-- What most operations on an open connection amount to. -/
theorem put_open_tended {backend : QuinnBackend Conn} {c : Connection Conn}
    (hopen : b.getOpen env.quinn id = some (backend, c)) (inner : Conn) (hb : Tended env others b) :
    Tended env others { b with toQuinnBackend := backend.put id.key { c with inner } } :=
  tended_of_open hopen (.put (QuinnBackend.getOpen_minds hopen).1 rfl) hb

/-! ## New connections -/

/-- The connection under the handle goes, if there is one, and the new one is in the queue. -/
theorem insertRaw_minds (b : QuinnBackend Conn) (key : ConnectionKey) (connection : Conn) :
    QuinnBackend.Minds key b { b with connections := (b.connections.insertRaw key connection).1 } ∧
      { b with connections := (b.connections.insertRaw key connection).1 }.Queued key := by
  have hremoved : ∃ connections, ((b.connections.removeRaw key).map Prod.fst).getD b.connections =
      connections ∧ QuinnBackend.Minds key b { b with connections } ∧ connections.all.get key = none := by
    refine ⟨_, rfl, ?_⟩
    unfold Connections.removeRaw
    cases hget : b.connections.all.get key with
    | none => exact ⟨.refl key b, hget⟩
    | some c =>
      exact ⟨.remove (Slots.get_remove _ key) rfl (.inl rfl), (Slots.get_remove _ key key).trans (if_pos rfl)⟩
  obtain ⟨connections, hconnections, hminds, hdead⟩ := hremoved
  unfold Connections.insertRaw
  rw [hconnections]
  have hqueued : key ∈ (connections.active.replace key).toList := LinkedHashSet.mem_replace.mpr (.inr rfl)
  refine ⟨hminds.trans (QuinnBackend.Minds.of_timers (fun k hk => ?_) (fun k _ hmem => ?_) (fun _ _ => hqueued)
    rfl fun hsound => ⟨?_, fun _ _ h => h⟩), fun _ => hqueued⟩
  · exact (Slots.get_insert ..).trans (if_neg hk)
  · exact LinkedHashSet.mem_replace.mpr (.inl hmem)
  · refine Remembers.mono hsound fun k timerKey hkey => ?_
    unfold QuinnBackend.timerKeys at hkey ⊢
    rw [Slots.get_insert] at hkey
    by_cases hk : k = key
    · -- the new connection remembers nothing
      rw [if_pos hk] at hkey
      cases hkey
    · rwa [if_neg hk] at hkey

theorem registerNewConnection_tended (key : ConnectionKey) (connection : Conn)
    (hb : Tended env others b) : Tended env others (b.registerNewConnection env key connection).1 := by
  obtain ⟨hminds, hqueued⟩ := insertRaw_minds b.toQuinnBackend key connection
  have hschedule := QuinnBackend.scheduleQuinnTimeout_minds env.quinn
    { b.toQuinnBackend with connections := (b.connections.insertRaw key connection).1 }
    (b.connections.insertRaw key connection).2
  exact hminds.tended_of_marked hqueued (hschedule.trans (QuinnBackend.Minds.push _ _)) hb

/-! ## `recv` -/

theorem handleQuinnConnectionEvent_tended {event : Signal} {fuel : Nat}
    (h : b.handleQuinnConnectionEvent env key event fuel = some b') (hb : Tended env others b) :
    Tended env others b' := by
  unfold handleQuinnConnectionEvent at h
  split at h
  · cases h
    exact hb
  · next connections c hmark =>
    obtain ⟨hget, hactive, hqueued⟩ := QuinnBackend.getMarkActiveRaw_minds hmark
    obtain ⟨⟨endpoint, inner⟩, -, h⟩ := Option.bind_eq_some_iff.mp h
    obtain ⟨backend, hdrain, h⟩ := Option.bind_eq_some_iff.mp h
    cases h
    have hput : QuinnBackend.Minds key { b.toQuinnBackend with connections }
        ({ b.toQuinnBackend with connections }.put key { c with inner }) := .put hget rfl
    exact hactive.tended_of_marked hqueued (hput.trans (QuinnBackend.drainEvents_minds hdrain)) hb

theorem writeResponse_tended {transmit : Transmit} {bytes : List UInt8} {capacity : Nat}
    {out out' : List Message} (h : b.writeResponse transmit bytes capacity out = some (b', out'))
    (hb : Tended env others b) : Tended env others b' := by
  obtain ⟨msg, -, heq⟩ := Option.map_eq_some_iff.mp h
  cases heq
  exact hb

theorem handleQuinnNewConnectionEvent_tended {incoming : Incoming} {capacity : Nat}
    {out out' : List Message}
    (h : b.handleQuinnNewConnectionEvent env incoming capacity out = some (b', out'))
    (hb : Tended env others b) : Tended env others b' := by
  unfold handleQuinnNewConnectionEvent at h
  split at h
  · cases h
    exact hb
  · split at h
    · split at h
      · exact writeResponse_tended h hb
      · cases h
        exact hb
    · split at h
      · cases h
        exact registerNewConnection_tended _ _ hb
      · exact writeResponse_tended h hb
      · cases h
        exact hb

theorem handleQuinnDatagramEvent_tended {event : QuinnDatagramEvent Incoming Signal} {capacity : Nat}
    {out out' : List Message} {fuel : Nat}
    (h : b.handleQuinnDatagramEvent env event capacity out fuel = some (b', out'))
    (hb : Tended env others b) : Tended env others b' := by
  cases event with
  | connectionEvent key event =>
    obtain ⟨b₁, hevent, heq⟩ := Option.map_eq_some_iff.mp h
    cases heq
    exact (handleQuinnConnectionEvent_tended hevent hb).of_eq rfl
  | newConnection incoming => exact handleQuinnNewConnectionEvent_tended h hb
  | response transmit => exact writeResponse_tended h hb

theorem recvLoop_tended {fuel : Nat} {packets packets' : List Packet} {out out' : List Message}
    (h : recvLoop env fuel packets b out = some (b', packets', out')) (hb : Tended env others b) :
    Tended env others b' := by
  induction packets generalizing b out with
  | nil =>
    cases h
    exact hb
  | cons packet packets ih =>
    unfold recvLoop at h
    split at h
    · cases h
      exact hb
    · generalize env.endpoint.handle b.endpoint b.time.clock packet.fromAddr packet.toAddr
        (codepointOf packet.ecn) packet.payload = handled at h
      obtain ⟨endpoint, event, bytes⟩ := handled
      simp only at h
      split at h
      · exact ih h hb
      · split at h
        · cases h
        · next hevent => exact ih h (handleQuinnDatagramEvent_tended hevent hb)

/-! ## Connections -/

theorem closeOne_tended {err : Nat} {reason : List UInt8} (h : closeOne env err reason b key = some b')
    (hb : Tended env others b) : Tended env others b' := by
  unfold closeOne at h
  split at h
  · cases h
    exact hb
  · next connections c hmark =>
    obtain ⟨hget, hactive, hqueued⟩ := QuinnBackend.getMarkActiveRaw_minds hmark
    obtain ⟨code, -, rfl⟩ := Option.map_eq_some_iff.mp h
    exact hactive.tended_of_marked hqueued (QuinnBackend.Minds.put hget rfl) hb

theorem close_tended {err : Nat} {reason : List UInt8} (h : b.close env err reason = some b')
    (hb : Tended env others b) : Tended env others b' := by
  have hloop (keys : List ConnectionKey) (b₁ : EndpointBackend Conn End Cfg)
      (h : keys.foldlM (closeOne env err reason) b₁ = some b') (hb : Tended env others b₁) :
      Tended env others b' := by
    induction keys generalizing b₁ with
    | nil =>
      cases h
      exact hb
    | cons key keys ih =>
      obtain ⟨b₂, hone, hrest⟩ := Option.bind_eq_some_iff.mp h
      exact ih b₂ hrest (closeOne_tended hone hb)
  unfold close at h
  split at h
  · exact hloop _ _ h hb
  · cases h
    exact hb

theorem connect_tended (serverName : String) (peerAddr : SocketAddr) (hb : Tended env others b) :
    Tended env others (b.connect env serverName peerAddr).1 := by
  unfold connect
  split
  · exact hb
  · split
    · exact hb
    · split
      · exact hb
      · exact registerNewConnection_tended _ _ hb

theorem connectionClose_tended {err : Nat} {reason : List UInt8} {result : Except Error Unit}
    (h : b.connectionClose env id err reason = some (b', result)) (hb : Tended env others b) :
    Tended env others b' := by
  unfold connectionClose at h
  split at h
  · cases h
    exact hb
  · split at h
    · cases h
      exact hb
    · next backend c hopen =>
      obtain ⟨code, -, heq⟩ := Option.map_eq_some_iff.mp h
      obtain ⟨rfl, -⟩ := Prod.mk.inj heq
      obtain ⟨hget, -⟩ := QuinnBackend.getOpen_minds hopen
      refine tended_of_open hopen (.trans (QuinnBackend.Minds.put hget ?_) (QuinnBackend.Minds.push _ _)) hb
      apply QuinnBackend.getCloseEvent_timer

theorem migrateOne_tended (key : ConnectionKey) (hb : Tended env others b) :
    Tended env others (migrateOne env b key) := by
  unfold migrateOne
  split
  · exact hb
  · next connections c hmark =>
    obtain ⟨hget, hactive, hqueued⟩ := QuinnBackend.getMarkActiveRaw_minds hmark
    refine hactive.tended_of_marked hqueued (.trans (QuinnBackend.Minds.put hget ?_)
      (QuinnBackend.Minds.push _ _)) hb
    exact QuinnBackend.getDgramOutSizeEvent_timer env.quinn _ key

theorem migrateNetwork_tended (newListenAddr : Option IpAddr) (hb : Tended env others b) :
    Tended env others (b.migrateNetwork env newListenAddr).1 := by
  have hloop (keys : List ConnectionKey) (b₁ : EndpointBackend Conn End Cfg) (hb : Tended env others b₁) :
      Tended env others (keys.foldl (migrateOne env) b₁) := by
    induction keys generalizing b₁ with
    | nil => exact hb
    | cons key keys ih => exact ih _ (migrateOne_tended key hb)
  unfold migrateNetwork
  split
  · exact hb
  · split
    · exact hb
    · exact hloop _ _ (QuinnBackend.Tended.of_eq hb rfl rfl)

/-! ## Streams and datagrams -/

theorem streamRecv_tended {streamId : StreamId} {outLen fuel : Nat}
    {result : Except Error (List UInt8 × Bool)}
    (h : b.streamRecv env id streamId outLen fuel = some (b', result)) (hb : Tended env others b) :
    Tended env others b' := by
  unfold streamRecv at h
  split at h
  · cases h
    exact hb
  · split at h
    · cases h
      exact hb
    · split at h
      · cases h
        exact hb
      · split at h
        · cases h
          exact hb
        · next hopen =>
          split at h
          · cases h
            exact put_open_tended hopen _ hb
          · cases h
            exact put_open_tended hopen _ hb
          · obtain ⟨⟨inner, _⟩, -, heq⟩ := Option.map_eq_some_iff.mp h
            cases heq
            exact put_open_tended hopen inner hb

theorem streamSend_tended (id : QuinnConnectionId) (streamId : StreamId) (bytes : List UInt8) (fin : Bool)
    (hb : Tended env others b) : Tended env others (b.streamSend env id streamId bytes fin).1 := by
  unfold streamSend
  split
  · exact hb
  · split
    · exact hb
    · split
      · exact hb
      · next hopen => exact put_open_tended hopen _ hb

theorem streamOpenSend_tended (id : QuinnConnectionId) (bidirectional : Bool) (bytes : List UInt8)
    (fin : Bool) (hb : Tended env others b) :
    Tended env others (b.streamOpenSend env id bidirectional bytes fin).1 := by
  unfold streamOpenSend
  split
  · exact hb
  · split
    · exact hb
    · next hopen =>
      split
      · exact put_open_tended hopen _ hb
      · exact streamSend_tended id _ bytes fin (put_open_tended hopen _ hb)

theorem changeStream_tended {illegal : Bool} {change : Conn → Option Conn}
    (h : b.changeStream env id illegal change = some b') (hb : Tended env others b) :
    Tended env others b' := by
  unfold changeStream at h
  split at h
  · cases h
    exact hb
  · split at h
    · cases h
      exact hb
    · next hopen =>
      obtain ⟨inner, -, rfl⟩ := Option.map_eq_some_iff.mp h
      exact put_open_tended hopen inner hb

/-- Receiving a datagram does not mark the connection. -/
theorem dgramRecvZc_tended (hlib : QuinnBackend.KeepsTimeout env.quinn) (id : QuinnConnectionId)
    (hb : Tended env others b) : Tended env others (b.dgramRecvZc env id).1 := by
  unfold dgramRecvZc
  split
  · exact hb
  · split
    · exact hb
    · next c hget =>
      obtain ⟨hall, -⟩ := QuinnBackend.id_of_get hget
      refine QuinnBackend.put_tended hall rfl rfl (fun hneeds hnone => hneeds ?_) hb
      exact hlib.recvDatagram c.inner hnone

theorem dgramSend_tended (id : QuinnConnectionId) (bytes : List UInt8) (hb : Tended env others b) :
    Tended env others (b.dgramSend env id bytes).1 := by
  unfold dgramSend
  split
  · exact hb
  · split
    · exact hb
    · next hopen => exact put_open_tended hopen _ hb

end EndpointBackend

/-! ## Every run -/

namespace Running

variable {Conn End Cfg Incoming Signal Report : Type} (env : Env Conn End Cfg Incoming Signal Report)

open EndpointBackend

/-- The condition on an operation: no level of the wheel passes epoch `2 ^ 64 - 2`. Only `tick` moves the
wheel. -/
def EpochsFit (s : Running Conn End Cfg) (op : Operation) : Prop :=
  (op matches .tick) = true →
    WheelTimer.EpochsFitDuring (s.backend.time.clock.nanos + 1 - s.backend.time.timer.currentClock)
      s.backend.time.timer s.backend.time.clock.nanos ∧ s.backend.time.tick.timer.EpochsFit

instance (s : Running Conn End Cfg) (op : Operation) : Decidable (EpochsFit s op) :=
  inferInstanceAs (Decidable (_ → _))

/-- No level of the wheel passes epoch `2 ^ 64 - 2`, and `send` strands nobody. -/
def StrandsNobody (s : Running Conn End Cfg) (op : Operation) : Prop :=
  EpochsFit s op ∧ ∀ out, op = .send out →
    ¬ QuinnBackend.StrandsActive env.quinn (s.backend.handleScheduledEvents env.quinn) out

/-- The number of pending timers of a connection. -/
def pending (s : Running Conn End Cfg) (id : QuinnConnectionId) : Nat :=
  s.backend.time.timer.countP fun event => event = some id

variable {env} {s s' : Running Conn End Cfg}

theorem tended_init (h : Init s) : Tended env ∅ s.backend := by
  obtain ⟨-, config, endpoint, primaryBuffers, reservedBuffers, listenAddr, clock, hbackend⟩ := h
  have hdead (key : ConnectionKey) : s.backend.connections.all.get key = none := by
    rw [hbackend]
    rfl
  obtain ⟨timer, hnew, -⟩ := EventTimer.new_total (E := QuinnConnectionId) clock
  have htimer : s.backend.time.timer = timer := by
    rw [hbackend]
    simp [EndpointBackend.new, EventTimer.new, hnew]
  obtain ⟨hshape, -⟩ := WheelTimer.new_shape (by decide) hnew
  have hkeys (key : ConnectionKey) (timerKey : TimerKey) :
      s.backend.timerKeys key ≠ some timerKey := by
    unfold QuinnBackend.timerKeys
    rw [hdead key]
    exact Option.some_ne_none timerKey |>.symm
  refine ⟨⟨?_, ?_, ?_, ?_⟩, fun key => .inr (.inl (Attendance.attended_of_dead (hdead key)))⟩
  · rw [htimer]
    exact hshape
  · rw [htimer]
    exact (WheelTimer.new_ticked hnew).epochsFit hshape (Nat.two_pow_pos _)
  · intro key timerKey hkey
    exact absurd hkey (hkeys key timerKey)
  · intro key timerKey id hkey
    exact absurd hkey (hkeys key timerKey)

theorem tended_exec (hlib : QuinnBackend.KeepsTimeout env.quinn) {op : Operation}
    (h : Tended env ∅ s.backend) (hop : StrandsNobody env s op) (hexec : exec env s op = some s') :
    Tended env ∅ s'.backend := by
  obtain ⟨b, hcall, rfl⟩ := Option.map_eq_some_iff.mp hexec
  show Tended env ∅ b
  cases op with
  | clockUpdate clock =>
    cases hcall
    exact ⟨h.sound, h.attended⟩
  | consumeEvents =>
    cases hcall
    exact QuinnBackend.Tended.of_eq h rfl rfl
  | close err reason => exact close_tended hcall h
  | connect serverName peerAddr =>
    cases hcall
    exact connect_tended serverName peerAddr h
  | connectionClose id err reason =>
    obtain ⟨⟨b₁, _⟩, hclose, rfl⟩ := Option.map_eq_some_iff.mp hcall
    exact connectionClose_tended hclose h
  | send out =>
    obtain ⟨⟨backend, _⟩, hsend, rfl⟩ := Option.map_eq_some_iff.mp hcall
    exact QuinnBackend.send_tended hlib (hop.2 out rfl) hsend h
  | recv inPackets outMessages fuel =>
    obtain ⟨⟨b₁, _⟩, hrecv, rfl⟩ := Option.map_eq_some_iff.mp hcall
    exact recvLoop_tended hrecv h
  | tick =>
    cases hcall
    obtain ⟨hduring, hafter⟩ := hop.1 rfl
    exact QuinnBackend.tick_tended hduring hafter h
  | migrateNetwork newListenAddr =>
    cases hcall
    exact migrateNetwork_tended newListenAddr h
  | streamRecv id streamId outLen fuel =>
    obtain ⟨⟨b₁, _⟩, hrecv, rfl⟩ := Option.map_eq_some_iff.mp hcall
    exact streamRecv_tended hrecv h
  | streamOpenSend id bidirectional bytes fin =>
    cases hcall
    exact streamOpenSend_tended id bidirectional bytes fin h
  | streamSend id streamId bytes fin =>
    cases hcall
    exact streamSend_tended id streamId bytes fin h
  | streamStopSending id streamId err =>
    simp only [call, streamStopSending] at hcall
    exact changeStream_tended hcall h
  | streamResetSending id streamId err =>
    simp only [call, streamResetSending] at hcall
    exact changeStream_tended hcall h
  | streamSetPriority id streamId priority =>
    simp only [call, streamSetPriority] at hcall
    exact changeStream_tended hcall h
  | dgramRecv id outLen =>
    cases hcall
    exact dgramRecvZc_tended hlib id h
  | dgramRecvZc id =>
    cases hcall
    exact dgramRecvZc_tended hlib id h
  | dgramSend id bytes =>
    cases hcall
    exact dgramSend_tended id bytes h
  | dropMessage primary capacity =>
    cases primary with
    | true =>
      cases hcall
      exact QuinnBackend.Tended.of_eq h rfl rfl
    | false =>
      cases hcall
      exact h

theorem tended_of_reachable (hlib : QuinnBackend.KeepsTimeout env.quinn)
    (h : Reachable Init (StrandsNobody env) (exec env) s) : Tended env ∅ s.backend :=
  h.invariant (fun _ => tended_init) fun _ _ _ hinv hop hexec => tended_exec hlib hinv hop hexec

/-- **Every connection is looked after**, in every run in which no level of the wheel passes epoch
`2 ^ 64 - 2` and `send` strands nobody: it waits to be polled, or its timeout is pending or has fired,
unless quinn asks for no timeout. -/
theorem every_connection_looked_after (hlib : QuinnBackend.KeepsTimeout env.quinn)
    (h : Reachable Init (StrandsNobody env) (exec env) s) {key : ConnectionKey} {c : Connection Conn}
    (hget : s.backend.connections.all.get key = some c) :
    key ∈ s.backend.connections.active.toList ∨ 0 < s.pending (c.id key) ∨
      s.backend.time.Fired (c.id key) ∨ (env.quinn.pollTimeout c.inner).2 = none := by
  rcases (tended_of_reachable hlib h).attended key with hmem | hattended | hother
  · exact .inl hmem
  · by_cases hneeds : QuinnBackend.HasTimeout env.quinn c
    · obtain ⟨c₁, hget₁, hawaits⟩ := hattended c hget hneeds
      obtain rfl := Option.some.inj (hget.symm.trans hget₁)
      rcases hawaits with hpending | hfired
      · exact .inr (.inl (WheelTimer.pending_iff_countP_pos.mp hpending))
      · exact .inr (.inr (.inl hfired))
    · exact .inr (.inr (.inr (not_not.mp hneeds)))
  · exact absurd hother (Set.notMem_empty key)

/-- A condition that can be evaluated: whoever has another one behind him in the queue is open. -/
def OpenAhead (env : Env Conn End Cfg Incoming Signal Report) (s : Running Conn End Cfg)
    (op : Operation) : Prop :=
  EpochsFit s op ∧
    ∀ key ∈ (s.backend.handleScheduledEvents env.quinn).connections.active.toList.dropLast,
      ((s.backend.handleScheduledEvents env.quinn).connections.all.get key).any
        (env.quinn.isDrained ·.inner) = false

instance (env : Env Conn End Cfg Incoming Signal Report) (s : Running Conn End Cfg) (op : Operation) :
    Decidable (OpenAhead env s op) :=
  inferInstanceAs (Decidable (_ ∧ _))

theorem strandsNobody_of_openAhead (h : Reachable Init (OpenAhead env) (exec env) s) :
    Reachable Init (StrandsNobody env) (exec env) s :=
  h.invariant (fun _ => .init) fun _ _ _ hs hopen hexec =>
    hs.step ⟨hopen.1, fun _ _ => QuinnBackend.not_strandsActive_of_open env.quinn hopen.2⟩ hexec

/-- A connection is reset and forgotten, and its handle is handed out again: the timer of the second
connection fires. -/
theorem every_connection_looked_after_reused :
    ∃ s : Running Transient Nat Unit,
      s.backend.connections.get ⟨0, 0⟩ = none ∧ s.backend.replaced = [] ∧
      0 ∉ s.backend.connections.active.toList ∧ s.pending ⟨0, 1⟩ = 0 ∧ s.backend.time.Fired ⟨0, 1⟩ := by
  have hrun : ∃ s : Running Transient Nat Unit,
      Reachable Init (OpenAhead (transientEnv Remembered.idleDeadline))
          (exec (transientEnv Remembered.idleDeadline)) s ∧
        decide (s.backend.connections.get ⟨0, 0⟩ = none ∧ s.backend.replaced = [] ∧
          0 ∉ s.backend.connections.active.toList ∧ s.pending ⟨0, 1⟩ = 0 ∧
          (s.backend.connections.get ⟨0, 1⟩).any (!·.inner.drained) = true) = true :=
    exists_reachable (some Remembered.transientClient.running)
      (fun s hs => Option.some.inj hs ▸ Remembered.transientClient_init.1)
      [.connect "" fragilePeer, .send [], .recv [resetPacket] [] 3, .connect "" fragilePeer, .send [],
        .clockUpdate Remembered.afterDeadline, .tick]
      (by decide +kernel)
  obtain ⟨s, hs, hstate⟩ := hrun
  obtain ⟨hgone, hreplaced, hqueue, hpending, hlive⟩ := of_decide_eq_true hstate
  obtain ⟨c, hget, hopen⟩ := (Option.any_eq_true ..).mp hlive
  obtain ⟨hall, hid⟩ := QuinnBackend.id_of_get (b := s.backend.toQuinnBackend) hget
  refine ⟨s, hgone, hreplaced, hqueue, hpending, ?_⟩
  have hkeeps : QuinnBackend.KeepsTimeout (transientEnv Remembered.idleDeadline).quinn :=
    ⟨fun _ h => h, fun _ h => h⟩
  rcases every_connection_looked_after hkeeps (strandsNobody_of_openAhead hs) hall with
    hmem | hpos | hfired | hnone
  · exact absurd hmem hqueue
  · rw [hid] at hpos
    exact absurd hpending hpos.ne'
  · rwa [hid] at hfired
  · have hclosed : c.inner.drained = false := by simpa using hopen
    have hdue : (if c.inner.drained then none else some Remembered.idleDeadline) = none := hnone
    rw [hclosed] at hdue
    cases hdue

end Running

end Aquic.Backend.Quinn

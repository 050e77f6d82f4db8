import Aquic.Backend.Quinn.Minds
import Aquic.Backend.Quinn.Turn

/-!
# What is true of every connection

The backend changes a connection of quinn by calling its methods, and in no other way. So whatever is
true of a new connection, and stays true when a method is called, is true of every connection that is
registered, in every reachable state.

Asking for events for the endpoint is the one thing that may end it. This is done in a turn only, and a
turn leaves no drained connection behind; a property that says nothing about connections that have not
drained is true again at its end.
-/

namespace Aquic.Backend.Quinn

open Aquic.Collections Aquic.Net Aquic.Run Aquic.Stream Aquic.Timer

variable {Conn End Cfg Incoming Signal Report : Type}

/-- A connection before and after one of its methods was called, other than `poll_endpoint_events`. -/
inductive Env.Advances (env : Env Conn End Cfg Incoming Signal Report) : Conn → Conn → Prop
  | deliver (c : Conn) (signal : Signal) : Advances env c (env.endpoint.deliver c signal)
  | close (c : Conn) (now : Instant) (code : Nat) (reason : List UInt8) :
      Advances env c (env.quinn.close c now code reason)
  | handleTimeout (c : Conn) (now : Instant) : Advances env c (env.quinn.handleTimeout c now)
  | pollTimeout (c : Conn) : Advances env c (env.quinn.pollTimeout c).1
  | pollTransmit (c : Conn) (now : Instant) (maxDatagrams : Nat) :
      Advances env c (env.quinn.pollTransmit c now maxDatagrams).1
  | poll (c : Conn) : Advances env c (env.quinn.poll c).1
  | localAddressChanged (c : Conn) : Advances env c (env.quinn.localAddressChanged c)
  | pathChanged (c : Conn) (now : Instant) : Advances env c (env.quinn.pathChanged c now)
  | openStream (c : Conn) (dir : Dir) : Advances env c (env.quinn.openStream c dir).1
  | acceptStream (c : Conn) (dir : Dir) : Advances env c (env.quinn.acceptStream c dir).1
  | readStream (c : Conn) (id : StreamId) : Advances env c (env.quinn.readStream c id).1
  | nextChunk (c : Conn) (id : StreamId) (maxLength : Nat) :
      Advances env c (env.quinn.nextChunk c id maxLength).1
  | writeChunk (c : Conn) (id : StreamId) (bytes : List UInt8) :
      Advances env c (env.quinn.writeChunk c id bytes).1
  | finish (c : Conn) (id : StreamId) : Advances env c (env.quinn.finish c id).1
  | stop (c : Conn) (id : StreamId) (code : Nat) : Advances env c (env.quinn.stop c id code)
  | reset (c : Conn) (id : StreamId) (code : Nat) : Advances env c (env.quinn.reset c id code)
  | setPriority (c : Conn) (id : StreamId) (priority : Int) :
      Advances env c (env.quinn.setPriority c id priority)
  | recvDatagram (c : Conn) : Advances env c (env.quinn.recvDatagram c).1
  | sendDatagram (c : Conn) (bytes : List UInt8) :
      Advances env c (env.quinn.sendDatagram c bytes).1

/-- Connections have this property from the beginning, and keep it until they are asked for events for
the endpoint. -/
structure Env.Keeps (env : Env Conn End Cfg Incoming Signal Report) (P : Conn → Prop) : Prop where
  undrained c : env.quinn.isDrained c = false → P c
  advances c c' : env.Advances c c' → P c → P c'
  connect e now cfg peerAddr serverName e' key c :
    env.endpoint.connect e now cfg peerAddr serverName = (e', .ok (key, c)) → P c
  accept e incoming now cfg e' key c :
    env.endpoint.accept e incoming now cfg = (e', .ok (key, c)) → P c

/-! ## Below the operations -/

namespace QuinnBackend

/-- It is true of every registered connection. -/
def Every (P : Conn → Prop) (b : QuinnBackend Conn) : Prop :=
  ∀ key c, b.connections.all.get key = some c → P c.inner

variable {P : Conn → Prop} {b b' : QuinnBackend Conn} {key : ConnectionKey} {id : QuinnConnectionId}
  {c : Connection Conn}

theorem Every.of_all (h : Every P b) (hall : b'.connections.all = b.connections.all) : Every P b' := by
  intro key c hget
  rw [hall] at hget
  exact h key c hget

/-- One connection changes. -/
theorem Every.of_others (h : Every P b) (key : ConnectionKey)
    (hothers : ∀ k ≠ key, b'.connections.all.get k = b.connections.all.get k)
    (hself : ∀ c, b'.connections.all.get key = some c → P c.inner) : Every P b' := by
  intro k c hget
  by_cases hk : k = key
  · subst hk
    exact hself c hget
  · rw [hothers k hk] at hget
    exact h k c hget

theorem Every.put (h : Every P b) (hget : b.connections.all.get key = some c) {c' : Connection Conn}
    (hc : P c'.inner) : Every P (b.put key c') := by
  refine h.of_others _ (fun k hk => Slots.get_set_of_ne hk) fun c₁ hget₁ => ?_
  obtain rfl := Option.some.inj ((get_put hget c').symm.trans hget₁)
  exact hc

variable {env : Env Conn End Cfg Incoming Signal Report}

theorem forgetConnection_every (h : Every P b) (id : QuinnConnectionId) :
    Every P (b.forgetConnection id) := by
  cases hget : b.connections.get id with
  | none =>
    unfold forgetConnection Connections.remove
    rw [hget]
    exact h
  | some c =>
    obtain ⟨hall, hid⟩ := id_of_get hget
    have hforgets := forgetConnection_forgets hall
    rw [hid] at hforgets
    intro k c₁ hget₁
    rw [hforgets.get] at hget₁
    split at hget₁
    · cases hget₁
    · exact h k c₁ hget₁

theorem scheduleQuinnTimeout_every (henv : env.Keeps P) (h : Every P b) (id : QuinnConnectionId) :
    Every P (b.scheduleQuinnTimeout env.quinn id) := by
  cases hget : b.connections.get id with
  | none =>
    unfold scheduleQuinnTimeout
    rw [hget]
    exact h
  | some c =>
    have hinner := registered_scheduleQuinnTimeout env.quinn hget
    obtain ⟨hall, -⟩ := id_of_get hget
    refine h.of_others _ (scheduleQuinnTimeout_touches env.quinn b id).others fun c₁ hget₁ => ?_
    unfold registered at hinner
    rw [hget₁, Option.map_some] at hinner
    rw [show c₁.inner = _ from Option.some.inj hinner]
    exact henv.advances _ _ (.pollTimeout c.inner) (h _ _ hall)

theorem handleScheduledEvent_every (henv : env.Keeps P) (h : Every P b) (id : QuinnConnectionId) :
    Every P (b.handleScheduledEvent env.quinn id) := by
  unfold handleScheduledEvent
  split
  · exact h
  · next connections c hmark =>
    obtain ⟨hget, -, hactive, -⟩ := getMarkActive_minds hmark
    obtain ⟨c₁, hget₁, heq⟩ := Option.map_eq_some_iff.mp hmark
    cases heq
    have hmarked : Every P { b with
        connections := { b.connections with active := b.connections.active.replace id.key } } :=
      h.of_all rfl
    exact hmarked.put hget (henv.advances _ _ (.handleTimeout ..) (h _ _ hget))

theorem handleScheduledEvents_every (henv : env.Keeps P) (h : Every P b) :
    Every P (b.handleScheduledEvents env.quinn) := by
  have hloop (ids : List QuinnConnectionId) (b₁ : QuinnBackend Conn) (h : Every P b₁) :
      Every P (ids.foldl (handleScheduledEvent env.quinn) b₁) := by
    induction ids generalizing b₁ with
    | nil => exact h
    | cons id ids ih => exact ih _ (handleScheduledEvent_every henv h id)
  exact hloop _ _ (h.of_all rfl)

theorem writePendingLoop_every (henv : env.Keeps P) {listenAddr : IpAddr} {now : Timer.Instant} {pmtu : Nat}
    {pool pool' : List Nat} {inner inner' : Conn} {out out' : List Message} {complete : Bool}
    (hinner : P inner)
    (h : Io.writePendingLoop .release env.quinn listenAddr now pmtu pool inner out =
      some (pool', inner', out', complete)) : P inner' := by
  induction pool generalizing inner out with
  | nil =>
    cases h
    exact hinner
  | cons capacity pool ih =>
    unfold Io.writePendingLoop at h
    simp only at h
    split at h
    · cases h
    · have hadvances := henv.advances _ _ (.pollTransmit inner now (reserved capacity pmtu / pmtu)) hinner
      split at h
      · next heq =>
        rw [heq] at hadvances
        cases h
        exact hadvances
      · next heq =>
        rw [heq] at hadvances
        split at h
        · cases h
        · exact ih hadvances h

theorem sendLoop_every (henv : env.Keeps P) {n : Nat} {out out' : List Message} (hb : Every P b)
    (h : sendLoop env.quinn n b out = some (b', out')) : Every P b' := by
  induction n generalizing b out with
  | zero =>
    cases h
    exact hb.of_all rfl
  | succ n ih =>
    unfold sendLoop at h
    replace hb : Every P b.peekActive := hb.of_all rfl
    simp only at h
    generalize b.peekActive = b₁ at h hb
    split at h
    · cases h
      exact hb
    · next key _ =>
      split at h
      · cases h
        exact hb
      · next c hget =>
        split at h
        · cases h
          exact hb
        · split at h
          · refine ih ?_ h
            exact (forgetConnection_every hb _).of_all rfl
          · split at h
            · cases h
            · next io c' out₁ complete hwrite =>
              obtain ⟨⟨pool, inner, out₂, complete'⟩, hpool, heq⟩ := Option.map_eq_some_iff.mp hwrite
              cases heq
              have hinner := writePendingLoop_every henv (hb _ _ hget) hpool
              have hput : Every P ({ b₁ with io := { b₁.io with primaryBuffers := pool } }.put key
                  { c with inner }) := (hb.of_all rfl).put hget hinner
              split at h
              · refine ih ?_ h
                apply scheduleQuinnTimeout_every henv
                exact hput.of_all rfl
              · cases h
                exact hput.of_all rfl

theorem send_every (henv : env.Keeps P) {out out' : List Message} (hb : Every P b)
    (h : b.send env.quinn out = some (b', out')) : Every P b' := by
  have hhandled : Every P { b.handleScheduledEvents env.quinn with calls := [] } :=
    (handleScheduledEvents_every henv hb).of_all rfl
  exact sendLoop_every henv hhandled h

theorem getOpen_every (hb : Every P b) (h : b.getOpen env.quinn id = some (b', c)) :
    b'.connections.all.get id.key = some c ∧ P c.inner ∧ Every P b' := by
  obtain ⟨hget, -, -⟩ := getOpen_follows env.quinn h
  obtain ⟨⟨connections, c₁⟩, hmark, heq⟩ := Option.map_eq_some_iff.mp h
  cases heq
  obtain ⟨c₂, -, heq⟩ := Option.map_eq_some_iff.mp hmark
  cases heq
  exact ⟨hget, hb _ _ hget, hb.of_all rfl⟩

theorem getMarkActiveRaw_every {connections : Connections Conn} (hb : Every P b)
    (h : b.connections.getMarkActiveRaw key = some (connections, c)) :
    connections.all.get key = some c ∧ P c.inner ∧ Every P { b with connections } := by
  obtain ⟨c₁, hget, heq⟩ := Option.map_eq_some_iff.mp h
  cases heq
  exact ⟨hget, hb _ _ hget, hb.of_all rfl⟩

end QuinnBackend

/-! ## The operations -/

namespace EndpointBackend

variable {env : Env Conn End Cfg Incoming Signal Report} {P : Conn → Prop}
  {b b' : EndpointBackend Conn End Cfg} {key : ConnectionKey} {id : QuinnConnectionId}

abbrev Every (P : Conn → Prop) (b : EndpointBackend Conn End Cfg) : Prop :=
  QuinnBackend.Every P b.toQuinnBackend

/-- What most operations on an open connection amount to. -/
theorem put_open_every {backend : QuinnBackend Conn} {c : Connection Conn}
    (hopen : b.getOpen env.quinn id = some (backend, c)) (hb : Every P b) {inner : Conn}
    (hinner : P c.inner → P inner) :
    Every P { b with toQuinnBackend := backend.put id.key { c with inner } } := by
  obtain ⟨hget, hc, hactive⟩ := QuinnBackend.getOpen_every hb hopen
  exact hactive.put hget (hinner hc)

/-! ### New connections -/

theorem registerNewConnection_every (henv : env.Keeps P) {connection : Conn} (hnew : P connection)
    (hb : Every P b) : Every P (b.registerNewConnection env key connection).1 := by
  have hinserted : QuinnBackend.Every P
      { b.toQuinnBackend with connections := (b.connections.insertRaw key connection).1 } := by
    apply hb.of_others key
    · intro k hk
      refine (Slots.get_insert ..).trans ?_
      rw [if_neg hk]
      unfold Connections.removeRaw
      cases b.connections.all.get key with
      | none => rfl
      | some c => exact (Slots.get_remove _ key k).trans (if_neg hk)
    · intro c hget
      replace hget : (Slots.insert _ key _).get key = some c := hget
      rw [Slots.get_insert, if_pos rfl] at hget
      cases hget
      exact hnew
  exact QuinnBackend.Every.of_all (QuinnBackend.scheduleQuinnTimeout_every henv hinserted _) rfl

/-! ### `recv` -/

/-- Only one connection has its turn. -/
theorem handleQuinnConnectionEvent_others {event : Signal} {fuel : Nat}
    (h : b.handleQuinnConnectionEvent env key event fuel = some b') :
    ∀ k ≠ key, b'.connections.all.get k = b.connections.all.get k := by
  unfold handleQuinnConnectionEvent at h
  split at h
  · cases h
    exact fun _ _ => rfl
  · next connections c hmark =>
    obtain ⟨hget, hactive, -⟩ := QuinnBackend.getMarkActiveRaw_minds hmark
    obtain ⟨⟨endpoint, inner⟩, -, h⟩ := Option.bind_eq_some_iff.mp h
    obtain ⟨backend, hdrain, h⟩ := Option.bind_eq_some_iff.mp h
    cases h
    have hput : QuinnBackend.Minds key { b.toQuinnBackend with connections }
        ({ b.toQuinnBackend with connections }.put key { c with inner }) := .put hget rfl
    exact ((hactive.trans hput).trans (QuinnBackend.drainEvents_minds hdrain)).others

/-- A connection that is left after its turn has not drained. -/
theorem handleQuinnConnectionEvent_every (henv : env.Keeps P) {event : Signal} {fuel : Nat}
    (h : b.handleQuinnConnectionEvent env key event fuel = some b') (hb : Every P b) : Every P b' := by
  refine hb.of_others key (handleQuinnConnectionEvent_others h) fun c' hget' => ?_
  cases hget : b.connections.all.get key with
  | none =>
    unfold handleQuinnConnectionEvent Connections.getMarkActiveRaw at h
    rw [hget] at h
    cases h
    exact hb key c' hget'
  | some c =>
    obtain ⟨t, hof, rfl, hpasses⟩ := Turn.exists_of hget h
    obtain ⟨-, rfl, -⟩ := Turn.of_eq_some hof
    have hleft := hpasses.left
    unfold QuinnBackend.registered at hleft
    rw [hget', Option.map_some] at hleft
    split at hleft
    · cases hleft
    · next hdrained =>
      rw [show c'.inner = _ from Option.some.inj hleft]
      exact henv.advances _ _ (.pollTimeout t.left.inner)
        (henv.undrained _ (Bool.eq_false_iff.mpr hdrained))

theorem writeResponse_every {transmit : Transmit} {bytes : List UInt8} {capacity : Nat}
    {out out' : List Message} (h : b.writeResponse transmit bytes capacity out = some (b', out'))
    (hb : Every P b) : Every P b' := by
  obtain ⟨msg, -, heq⟩ := Option.map_eq_some_iff.mp h
  cases heq
  exact hb

theorem handleQuinnNewConnectionEvent_every (henv : env.Keeps P) {incoming : Incoming} {capacity : Nat}
    {out out' : List Message}
    (h : b.handleQuinnNewConnectionEvent env incoming capacity out = some (b', out'))
    (hb : Every P b) : Every P b' := by
  unfold handleQuinnNewConnectionEvent at h
  split at h
  · cases h
    exact hb
  · split at h
    · split at h
      · exact writeResponse_every h hb
      · cases h
        exact hb
    · split at h
      · next haccept =>
        cases h
        exact registerNewConnection_every henv (henv.accept _ _ _ _ _ _ _ haccept) hb
      · exact writeResponse_every h hb
      · cases h
        exact hb

theorem handleQuinnDatagramEvent_every (henv : env.Keeps P)
    {event : QuinnDatagramEvent Incoming Signal} {capacity : Nat} {out out' : List Message} {fuel : Nat}
    (h : b.handleQuinnDatagramEvent env event capacity out fuel = some (b', out'))
    (hb : Every P b) : Every P b' := by
  cases event with
  | connectionEvent key event =>
    obtain ⟨b₁, hevent, heq⟩ := Option.map_eq_some_iff.mp h
    cases heq
    have hb₁ : Every P b₁ := handleQuinnConnectionEvent_every henv hevent hb
    exact hb₁
  | newConnection incoming => exact handleQuinnNewConnectionEvent_every henv h hb
  | response transmit => exact writeResponse_every h hb

theorem recvLoop_every (henv : env.Keeps P) {fuel : Nat} {packets packets' : List Packet}
    {out out' : List Message} (h : recvLoop env fuel packets b out = some (b', packets', out'))
    (hb : Every P b) : Every P b' := by
  induction packets generalizing b out with
  | nil =>
    cases h
    exact hb
  | cons packet packets ih =>
    unfold recvLoop at h
    split at h
    · cases h
      exact hb
    · generalize env.endpoint.handle b.endpoint b.time.clock packet.fromAddr packet.toAddr
        (codepointOf packet.ecn) packet.payload = handled at h
      obtain ⟨endpoint, event, bytes⟩ := handled
      simp only at h
      split at h
      · exact ih h hb
      · split at h
        · cases h
        · next hevent => exact ih h (handleQuinnDatagramEvent_every henv hevent hb)

/-! ### Connections -/

theorem closeOne_every (henv : env.Keeps P) {err : Nat} {reason : List UInt8}
    (h : closeOne env err reason b key = some b') (hb : Every P b) : Every P b' := by
  unfold closeOne at h
  split at h
  · cases h
    exact hb
  · next connections c hmark =>
    obtain ⟨hget, hc, hactive⟩ := QuinnBackend.getMarkActiveRaw_every hb hmark
    obtain ⟨code, -, rfl⟩ := Option.map_eq_some_iff.mp h
    exact hactive.put hget (henv.advances _ _ (.close ..) hc)

theorem close_every (henv : env.Keeps P) {err : Nat} {reason : List UInt8}
    (h : b.close env err reason = some b') (hb : Every P b) : Every P b' := by
  have hloop (keys : List ConnectionKey) (b₁ : EndpointBackend Conn End Cfg)
      (h : keys.foldlM (closeOne env err reason) b₁ = some b') (hb : Every P b₁) : Every P b' := by
    induction keys generalizing b₁ with
    | nil =>
      cases h
      exact hb
    | cons key keys ih =>
      obtain ⟨b₂, hone, hrest⟩ := Option.bind_eq_some_iff.mp h
      exact ih b₂ hrest (closeOne_every henv hone hb)
  unfold close at h
  split at h
  · exact hloop _ _ h hb
  · cases h
    exact hb

theorem connect_every (henv : env.Keeps P) (serverName : String) (peerAddr : SocketAddr)
    (hb : Every P b) : Every P (b.connect env serverName peerAddr).1 := by
  unfold connect
  split
  · exact hb
  · split
    · exact hb
    · split
      · exact hb
      · next hconnect =>
        exact registerNewConnection_every henv (henv.connect _ _ _ _ _ _ _ _ hconnect) hb

theorem connectionClose_every (henv : env.Keeps P) {err : Nat} {reason : List UInt8}
    {result : Except Error Unit} (h : b.connectionClose env id err reason = some (b', result))
    (hb : Every P b) : Every P b' := by
  unfold connectionClose at h
  split at h
  · cases h
    exact hb
  · split at h
    · cases h
      exact hb
    · next backend c hopen =>
      obtain ⟨hget, hc, hactive⟩ := QuinnBackend.getOpen_every hb hopen
      obtain ⟨code, -, heq⟩ := Option.map_eq_some_iff.mp h
      obtain ⟨rfl, -⟩ := Prod.mk.inj heq
      have hclosed : P (Connection.getCloseEvent
          { c with inner := env.quinn.close c.inner b.time.clock code reason } id.key err reason true
          true).1.inner := by
        rw [Connection.inner_getCloseEvent]
        exact henv.advances _ _ (.close ..) hc
      exact (hactive.put hget hclosed).of_all rfl

theorem migrateOne_every (henv : env.Keeps P) (hb : Every P b) : Every P (migrateOne env b key) := by
  unfold migrateOne
  split
  · exact hb
  · next connections c hmark =>
    obtain ⟨hget, hc, hactive⟩ := QuinnBackend.getMarkActiveRaw_every hb hmark
    have hchanged := henv.advances _ _ (.pathChanged _ b.time.clock)
      (henv.advances _ _ (.localAddressChanged _) hc)
    generalize env.quinn.pathChanged (env.quinn.localAddressChanged c.inner) b.time.clock = inner
      at hchanged ⊢
    have hsize : P (({ c with inner } : Connection Conn).getDgramOutSizeEvent env.quinn key).1.inner := by
      rw [Connection.inner_getDgramOutSizeEvent]
      exact hchanged
    exact (hactive.put hget hsize).of_all rfl

theorem migrateNetwork_every (henv : env.Keeps P) (newListenAddr : Option IpAddr) (hb : Every P b) :
    Every P (b.migrateNetwork env newListenAddr).1 := by
  have hloop (keys : List ConnectionKey) (b₁ : EndpointBackend Conn End Cfg) (hb : Every P b₁) :
      Every P (keys.foldl (migrateOne env) b₁) := by
    induction keys generalizing b₁ with
    | nil => exact hb
    | cons key keys ih => exact ih _ (migrateOne_every henv hb)
  unfold migrateNetwork
  split
  · exact hb
  · split
    · exact hb
    · exact hloop _ _ hb

/-! ### Streams -/

theorem readLoop_every (henv : env.Keeps P) {streamId : StreamId} {outLen fuel : Nat} {inner inner' : Conn}
    {read : List UInt8} {result : Except Error (List UInt8 × Bool)}
    (h : readLoop env streamId outLen fuel inner read = some (inner', result)) (hinner : P inner) :
    P inner' := by
  induction fuel generalizing inner read with
  | zero => cases h
  | succ fuel ih =>
    unfold readLoop at h
    have hnext := henv.advances _ _ (.nextChunk inner streamId (outLen - read.length)) hinner
    generalize env.quinn.nextChunk inner streamId (outLen - read.length) = answer at h hnext
    obtain ⟨c, chunk⟩ := answer
    split at h
    · cases h
      exact hinner
    · split at h
      · next heq =>
        cases heq
        split at h
        · exact ih h hnext
        · cases h
      -- the loop ends
      all_goals
        next heq =>
        cases heq
        cases h
        exact hnext

theorem streamRecv_every (henv : env.Keeps P) {streamId : StreamId} {outLen fuel : Nat}
    {result : Except Error (List UInt8 × Bool)}
    (h : b.streamRecv env id streamId outLen fuel = some (b', result)) (hb : Every P b) : Every P b' := by
  unfold streamRecv at h
  split at h
  · cases h
    exact hb
  · split at h
    · cases h
      exact hb
    · split at h
      · cases h
        exact hb
      · split at h
        · cases h
          exact hb
        · next backend c hopen =>
          have hread := henv.advances _ _ (.readStream c.inner streamId)
          generalize env.quinn.readStream c.inner streamId = answer at h hread
          split at h
          · cases h
            exact put_open_every hopen hb hread
          · cases h
            exact put_open_every hopen hb hread
          · obtain ⟨⟨inner, _⟩, hloop, heq⟩ := Option.map_eq_some_iff.mp h
            cases heq
            exact put_open_every hopen hb fun hc => readLoop_every henv hloop (hread hc)

theorem streamSend_every (henv : env.Keeps P) (id : QuinnConnectionId) (streamId : StreamId)
    (bytes : List UInt8) (fin : Bool) (hb : Every P b) :
    Every P (b.streamSend env id streamId bytes fin).1 := by
  unfold streamSend
  split
  · exact hb
  · split
    · exact hb
    · split
      · exact hb
      · next backend c hopen =>
        apply put_open_every hopen hb
        intro hc
        -- what is written, and whether the stream is finished then
        have hfinish (inner : Conn) (hinner : P inner) : P (env.quinn.finish inner streamId).1 :=
          henv.advances _ _ (.finish inner streamId) hinner
        have hwrite := henv.advances _ _ (.writeChunk c.inner streamId bytes) hc
        generalize hwritten :
          (if bytes = [] then _ else _ : Conn × Except Error (Option (List UInt8))) = written
        have hinner : P written.1 := by
          rw [← hwritten]
          split
          · exact hc
          · split <;> next heq => rwa [heq] at hwrite
        obtain ⟨inner, written⟩ := written
        simp only
        split
        · replace hfinish := hfinish inner hinner
          split <;> next heq => rwa [heq] at hfinish
        · exact hinner

theorem streamOpenSend_every (henv : env.Keeps P) (id : QuinnConnectionId) (bidirectional : Bool)
    (bytes : List UInt8) (fin : Bool) (hb : Every P b) :
    Every P (b.streamOpenSend env id bidirectional bytes fin).1 := by
  unfold streamOpenSend
  split
  · exact hb
  · split
    · exact hb
    · next backend c hopen =>
      have hstream := henv.advances _ _ (.openStream c.inner (if bidirectional then .bi else .uni))
      generalize env.quinn.openStream c.inner (if bidirectional then .bi else .uni) = answer at hstream ⊢
      split
      · exact put_open_every hopen hb hstream
      · exact streamSend_every henv id _ bytes fin (put_open_every hopen hb hstream)

theorem changeStream_every {illegal : Bool} {change : Conn → Option Conn}
    (h : b.changeStream env id illegal change = some b') (hb : Every P b)
    (hchange : ∀ c c', change c = some c' → P c → P c') : Every P b' := by
  unfold changeStream at h
  split at h
  · cases h
    exact hb
  · split at h
    · cases h
      exact hb
    · next hopen =>
      obtain ⟨inner, hinner, rfl⟩ := Option.map_eq_some_iff.mp h
      exact put_open_every hopen hb (hchange _ _ hinner)

/-! ### Datagrams -/

theorem dgramRecvZc_every (henv : env.Keeps P) (id : QuinnConnectionId) (hb : Every P b) :
    Every P (b.dgramRecvZc env id).1 := by
  unfold dgramRecvZc
  split
  · exact hb
  · split
    · exact hb
    · next c hget =>
      obtain ⟨hall, -⟩ := QuinnBackend.id_of_get hget
      exact hb.put hall (henv.advances _ _ (.recvDatagram c.inner) (hb _ _ hall))

theorem dgramSend_every (henv : env.Keeps P) (id : QuinnConnectionId) (bytes : List UInt8)
    (hb : Every P b) : Every P (b.dgramSend env id bytes).1 := by
  unfold dgramSend
  split
  · exact hb
  · split
    · exact hb
    · next backend c hopen =>
      exact put_open_every hopen hb (henv.advances _ _ (.sendDatagram c.inner bytes))

end EndpointBackend

/-! ## Every run -/

namespace Running

variable {env : Env Conn End Cfg Incoming Signal Report} {P : Conn → Prop} {s s' : Running Conn End Cfg}

open EndpointBackend

theorem every_init (h : s.Init) : Every P s.backend := by
  obtain ⟨-, config, endpoint, primaryBuffers, reservedBuffers, listenAddr, clock, hbackend⟩ := h
  intro key c hget
  rw [hbackend] at hget
  cases hget

/-- **Every operation keeps what the methods of a connection keep.** -/
theorem exec_every (henv : env.Keeps P) {op : Operation} (hexec : s.exec env op = some s')
    (h : Every P s.backend) : Every P s'.backend := by
  obtain ⟨b, hcall, rfl⟩ := Option.map_eq_some_iff.mp hexec
  show Every P b
  cases op with
  | clockUpdate clock | consumeEvents | tick =>
    cases hcall
    exact h
  | close err reason => exact close_every henv hcall h
  | connect serverName peerAddr =>
    cases hcall
    exact connect_every henv serverName peerAddr h
  | connectionClose id err reason =>
    obtain ⟨⟨b₁, _⟩, hclose, rfl⟩ := Option.map_eq_some_iff.mp hcall
    exact connectionClose_every henv hclose h
  | send out =>
    obtain ⟨⟨backend, _⟩, hsend, rfl⟩ := Option.map_eq_some_iff.mp hcall
    exact QuinnBackend.send_every henv h hsend
  | recv inPackets outMessages fuel =>
    obtain ⟨⟨b₁, _⟩, hrecv, rfl⟩ := Option.map_eq_some_iff.mp hcall
    exact recvLoop_every henv hrecv h
  | migrateNetwork newListenAddr =>
    cases hcall
    exact migrateNetwork_every henv newListenAddr h
  | streamRecv id streamId outLen fuel =>
    obtain ⟨⟨b₁, _⟩, hrecv, rfl⟩ := Option.map_eq_some_iff.mp hcall
    exact streamRecv_every henv hrecv h
  | streamOpenSend id bidirectional bytes fin =>
    cases hcall
    exact streamOpenSend_every henv id bidirectional bytes fin h
  | streamSend id streamId bytes fin =>
    cases hcall
    exact streamSend_every henv id streamId bytes fin h
  | streamStopSending id streamId err =>
    simp only [call, streamStopSending] at hcall
    refine changeStream_every hcall h fun c c' hchange => ?_
    obtain ⟨code, -, rfl⟩ := Option.map_eq_some_iff.mp hchange
    exact henv.advances _ _ (.stop c streamId code)
  | streamResetSending id streamId err =>
    simp only [call, streamResetSending] at hcall
    refine changeStream_every hcall h fun c c' hchange => ?_
    obtain ⟨code, -, rfl⟩ := Option.map_eq_some_iff.mp hchange
    exact henv.advances _ _ (.reset c streamId code)
  | streamSetPriority id streamId priority =>
    simp only [call, streamSetPriority] at hcall
    refine changeStream_every hcall h fun c c' hchange => ?_
    cases hchange
    exact henv.advances _ _ (.setPriority c streamId _)
  | dgramRecv id outLen | dgramRecvZc id =>
    cases hcall
    exact dgramRecvZc_every henv id h
  | dgramSend id bytes =>
    cases hcall
    exact dgramSend_every henv id bytes h
  | dropMessage primary capacity =>
    cases primary with
    | true =>
      cases hcall
      exact h
    | false =>
      cases hcall
      exact h

end Running

end Aquic.Backend.Quinn

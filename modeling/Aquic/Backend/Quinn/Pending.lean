import Aquic.Backend.Quinn.Every
import Aquic.Backend.Quinn.Responses
import Aquic.Backend.Terminated
import Mathlib.Data.List.Induction

/-!
# What a forgotten connection still had to say

A connection of quinn queues events for the endpoint (`poll_endpoint_events`) and for the application
(`poll`) whenever its state machine advances: when it handles an event, and when it handles a timeout,
is closed or transmits. The backend polls both queues in one place only,
`handle_quinn_connection_event`, on the way of a received packet. `send` handles timeouts as well, and
forgets connections that have drained, with whatever is in their queues. One of the events lost is the
one that tells the endpoint that the connection is gone.

A connection is *quiet* when its queues are empty. Here it is settled which connections are quiet when
they are forgotten, and where the events have gone that they had before.
-/

namespace Aquic.Backend.Quinn

open Aquic.Collections Aquic.Net Aquic.Run

variable {Conn End Cfg Incoming Signal Report : Type}

/-- Nothing is queued, neither for the endpoint nor for the application. -/
def Env.Quiet (env : Env Conn End Cfg Incoming Signal Report) (c : Conn) : Prop :=
  (env.endpoint.pollEndpointEvents c).2 = [] ∧ (env.quinn.poll c).2 = none

instance (env : Env Conn End Cfg Incoming Signal Report) (c : Conn) : Decidable (env.Quiet c) :=
  inferInstanceAs (Decidable (_ ∧ _))

/-- What quinn says about its queues: polling takes out of them and puts nothing in, and so does
accepting a stream; the loss of a connection is its last event. -/
structure Env.Orderly (env : Env Conn End Cfg Incoming Signal Report) : Prop where
  reports_polled c : (env.endpoint.pollEndpointEvents (env.endpoint.pollEndpointEvents c).1).2 = []
  reports_poll c : (env.endpoint.pollEndpointEvents c).2 = [] →
    (env.endpoint.pollEndpointEvents (env.quinn.poll c).1).2 = []
  reports_accept c dir : (env.endpoint.pollEndpointEvents c).2 = [] →
    (env.endpoint.pollEndpointEvents (env.quinn.acceptStream c dir).1).2 = []
  poll_none c : (env.quinn.poll c).2 = none → (env.quinn.poll (env.quinn.poll c).1).2 = none
  poll_lost c reason : (env.quinn.poll c).2 = some (.connectionLost reason) →
    (env.quinn.poll (env.quinn.poll c).1).2 = none

/-- What quinn says about the event that tells the endpoint that a connection has drained: the method
that drains the connection queues it, and no method but `poll_endpoint_events` takes it out again. A new
connection has not drained. -/
structure Env.Announces (env : Env Conn End Cfg Incoming Signal Report) (Drained : Report → Prop) :
    Prop where
  advances c c' : env.Advances c c' → env.quinn.isDrained c' = true →
    (env.quinn.isDrained c = true ∧
      (env.endpoint.pollEndpointEvents c).2 ⊆ (env.endpoint.pollEndpointEvents c').2) ∨
    ∃ report ∈ (env.endpoint.pollEndpointEvents c').2, Drained report
  polled c : env.quinn.isDrained (env.endpoint.pollEndpointEvents c).1 = env.quinn.isDrained c
  connect e now cfg peerAddr serverName e' key c :
    env.endpoint.connect e now cfg peerAddr serverName = (e', .ok (key, c)) →
      env.quinn.isDrained c = false
  accept e incoming now cfg e' key c :
    env.endpoint.accept e incoming now cfg = (e', .ok (key, c)) → env.quinn.isDrained c = false

/-! ## After a turn -/

section

variable {env : Env Conn End Cfg Incoming Signal Report} {t : Turn Conn End Cfg Signal}

/-- Nothing is left for the endpoint once the connection was asked. -/
theorem Env.Orderly.deliverAll (henv : env.Orderly) (c : Conn) {signals : List Signal}
    (h : signals ≠ []) :
    (env.endpoint.pollEndpointEvents (env.endpoint.deliverAll c signals).1).2 = [] := by
  rw [← List.dropLast_concat_getLast h, EndpointLibrary.deliverAll_concat]
  exact henv.reports_polled _

/-- Nothing is left at all when the application was served, too. -/
theorem Env.Orderly.pollAll (henv : env.Orderly) {key : ConnectionKey} {fuel : Nat}
    {c left : Connection Conn} {polled : List (Connection Conn × QuinnEvent)}
    (hreports : (env.endpoint.pollEndpointEvents c.inner).2 = [])
    (h : pollAll env.quinn key fuel c = some (left, polled)) : env.Quiet left.inner := by
  induction fuel generalizing c left polled with
  | zero => cases h
  | succ fuel ih =>
    have hpoll := henv.reports_poll c.inner hreports
    have hnone := henv.poll_none c.inner
    have hlost := henv.poll_lost c.inner
    unfold Quinn.pollAll at h
    generalize env.quinn.poll c.inner = answer at h hpoll hnone hlost
    obtain ⟨inner, event⟩ := answer
    cases event with
    | none =>
      cases h
      exact ⟨hpoll, hnone rfl⟩
    | some event =>
      simp only at h
      split at h
      · next hends =>
        cases h
        cases event with
        | connectionLost reason =>
          rw [Connection.handled, Connection.inner_getLostEvent]
          exact ⟨hpoll, hlost reason rfl⟩
        | _ => exact absurd hends Bool.false_ne_true
      · obtain ⟨⟨left', polled'⟩, hrest, heq⟩ := Option.map_eq_some_iff.mp h
        cases heq
        refine ih ?_ hrest
        cases event with
        | connectionLost reason =>
          rw [Connection.handled, Connection.inner_getLostEvent]
          exact hpoll
        | stream event =>
          cases event with
          | opened dir => exact henv.reports_accept inner dir hpoll
          | _ => exact hpoll
        | _ => exact hpoll

/-- **A connection is quiet after its turn.** -/
theorem Env.Orderly.quiet_left (henv : env.Orderly) (h : t.PassesOn env) :
    env.Quiet t.left.inner := by
  obtain ⟨fuel, hpolled⟩ := h.polled
  refine henv.pollAll ?_ hpolled
  show (env.endpoint.pollEndpointEvents t.exchange.connection).2 = []
  rw [h.exchanged]
  exact henv.deliverAll _ h.delivered

theorem Env.Orderly.quiet_of_forgotten (henv : env.Orderly) (h : t.PassesOn env) {c : Conn}
    (hforgotten : t.forgotten env = some c) : env.Quiet c := by
  unfold Turn.forgotten at hforgotten
  split at hforgotten
  · cases hforgotten
    exact henv.quiet_left h
  · cases hforgotten

/-! ## What the endpoint is told -/

/-- If the connection has drained, the event that says so is one of these, or queued. -/
def Env.Told (env : Env Conn End Cfg Incoming Signal Report) (Drained : Report → Prop)
    (reports : List Report) (c : Conn) : Prop :=
  env.quinn.isDrained c = true →
    ∃ report ∈ reports ++ (env.endpoint.pollEndpointEvents c).2, Drained report

variable {Drained : Report → Prop} {reports : List Report} {c c' : Conn}

theorem Env.Told.advances (henv : env.Announces Drained) (hadvances : env.Advances c c')
    (h : env.Told Drained reports c) : env.Told Drained reports c' := by
  intro hdrained
  rcases henv.advances c c' hadvances hdrained with ⟨hbefore, hqueue⟩ | ⟨report, hmem, hreport⟩
  · obtain ⟨report, hmem, hreport⟩ := h hbefore
    refine ⟨report, ?_, hreport⟩
    rcases List.mem_append.mp hmem with hmem | hmem
    · exact List.mem_append_left _ hmem
    · exact List.mem_append_right _ (hqueue hmem)
  · exact ⟨report, List.mem_append_right _ hmem, hreport⟩

theorem Env.Told.polled (henv : env.Announces Drained) (h : env.Told Drained reports c) :
    env.Told Drained (reports ++ (env.endpoint.pollEndpointEvents c).2)
      (env.endpoint.pollEndpointEvents c).1 := by
  intro hdrained
  obtain ⟨report, hmem, hreport⟩ := h ((henv.polled c).symm.trans hdrained)
  exact ⟨report, List.mem_append_left _ hmem, hreport⟩

theorem Env.Told.deliverAll (henv : env.Announces Drained) (h : env.Told Drained [] c)
    (signals : List Signal) :
    env.Told Drained (env.endpoint.deliverAll c signals).2 (env.endpoint.deliverAll c signals).1 := by
  induction signals using List.reverseRecOn with
  | nil => exact h
  | append_singleton signals signal ih =>
    rw [EndpointLibrary.deliverAll_concat]
    exact (ih.advances henv (.deliver _ signal)).polled henv

theorem Env.Told.pollAll (henv : env.Announces Drained) {key : ConnectionKey} {fuel : Nat}
    {c left : Connection Conn} {polled : List (Connection Conn × QuinnEvent)}
    (hc : env.Told Drained reports c.inner)
    (h : pollAll env.quinn key fuel c = some (left, polled)) :
    env.Told Drained reports left.inner := by
  induction fuel generalizing c left polled with
  | zero => cases h
  | succ fuel ih =>
    have hpoll := hc.advances henv (.poll c.inner)
    unfold Quinn.pollAll at h
    generalize env.quinn.poll c.inner = answer at h hpoll
    obtain ⟨inner, event⟩ := answer
    cases event with
    | none =>
      cases h
      exact hpoll
    | some event =>
      have hhandled : env.Told Drained reports
          (({ c with inner } : Connection Conn).handled env.quinn key event).inner := by
        cases event with
        | connectionLost reason =>
          rw [Connection.handled, Connection.inner_getLostEvent]
          exact hpoll
        | stream event =>
          cases event with
          | opened dir => exact hpoll.advances henv (.acceptStream inner dir)
          | _ => exact hpoll
        | _ => exact hpoll
      simp only at h
      split at h
      · cases h
        exact hhandled
      · obtain ⟨⟨left', polled'⟩, hrest, heq⟩ := Option.map_eq_some_iff.mp h
        cases heq
        exact ih hhandled hrest

/-- A drained connection is announced as long as it was not asked. -/
theorem Env.Announces.keeps (henv : env.Announces Drained) : env.Keeps (env.Told Drained []) where
  undrained _ hopen hdrained := absurd (hdrained.symm.trans hopen) Bool.true_eq_false.mp
  advances _ _ hadvances h := h.advances henv hadvances
  connect _ _ _ _ _ _ _ _ hconnect hdrained :=
    absurd (hdrained.symm.trans (henv.connect _ _ _ _ _ _ _ _ hconnect)) Bool.true_eq_false.mp
  accept _ _ _ _ _ _ _ haccept hdrained :=
    absurd (hdrained.symm.trans (henv.accept _ _ _ _ _ _ _ haccept)) Bool.true_eq_false.mp

/-- **The endpoint is told in the turn** in which the connection is forgotten. -/
theorem Env.Announces.told_of_forgotten (henv : env.Announces Drained) (horderly : env.Orderly)
    (hpasses : t.PassesOn env) (hbefore : t.before.Every (env.Told Drained []))
    (hforgotten : t.forgotten env = some c) : ∃ report ∈ t.reports env, Drained report := by
  obtain ⟨fuel, hpolled⟩ := hpasses.polled
  have hexchanged := (hbefore _ _ hpasses.registered).deliverAll henv t.exchange.delivered
  rw [← hpasses.exchanged] at hexchanged
  have hleft := hexchanged.pollAll henv hpolled
  unfold Turn.forgotten at hforgotten
  split at hforgotten
  · next hdrained =>
    obtain ⟨report, hmem, hreport⟩ := hleft hdrained
    -- nothing is queued any more
    rw [(horderly.quiet_left hpasses).1, List.append_nil] at hmem
    exact ⟨report, hmem, hreport⟩
  · cases hforgotten

end

/-! ## What is forgotten -/

namespace QuinnBackend

variable (lib : Library Conn)

/-- The connection that the next iteration of the loop of `send` forgets. -/
def nextForgotten (b : QuinnBackend Conn) : Option Conn :=
  (b.connections.active.front.bind b.connections.all.get).bind fun c =>
    if b.io.hasPrimaryBuffer && lib.isDrained c.inner then some c.inner else none

/-- The connections that `send` forgets, as they are when they are forgotten. -/
def forgottenBySend (b : QuinnBackend Conn) (out : List Message) : List Conn :=
  let b := { handleScheduledEvents lib b with calls := [] }
  (List.range b.connections.active.length).filterMap fun n =>
    (sendLoop lib n b out).bind fun (b, _) => b.nextForgotten lib

variable {lib} {b b' b'' : QuinnBackend Conn} {key : ConnectionKey} {c : Connection Conn}

theorem nextForgotten_eq_some {inner : Conn} (h : b.nextForgotten lib = some inner) :
    ∃ key c, b.connections.active.front = some key ∧ b.connections.all.get key = some c ∧
      b.io.hasPrimaryBuffer = true ∧ lib.isDrained c.inner = true ∧ c.inner = inner := by
  obtain ⟨c, hfront, hif⟩ := Option.bind_eq_some_iff.mp h
  obtain ⟨key, hkey, hget⟩ := Option.bind_eq_some_iff.mp hfront
  split at hif
  · next hcond =>
    obtain ⟨hbuffer, hdrained⟩ := Bool.and_eq_true_iff.mp hcond
    exact ⟨key, c, hkey, hget, hbuffer, hdrained, Option.some.inj hif⟩
  · cases hif

/-- The next iteration forgets it indeed. -/
theorem sendLoop_of_nextForgotten {n : Nat} {out : List Message} {inner : Conn}
    (h : b.peekActive.nextForgotten lib = some inner) :
    ∃ key c, c.inner = inner ∧ b.peekActive.connections.all.get key = some c ∧
      sendLoop lib (n + 1) b out =
        sendLoop lib n (b.peekActive.forgetConnection (c.id key)).nextActive out := by
  obtain ⟨key, c, hfront, hget, hbuffer, hdrained, hinner⟩ := nextForgotten_eq_some h
  refine ⟨key, c, hinner, hget, ?_⟩
  rw [sendLoop]
  simp only [hfront, hget, hbuffer, hdrained, Bool.true_eq_false, if_false, if_true]

/-- The connections that are still in the queue have not changed. -/
def Carries (b b' : QuinnBackend Conn) : Prop :=
  ∀ key ∈ b'.connections.active.toList, key ∈ b.connections.active.toList ∧
    b'.connections.all.get key = b.connections.all.get key

theorem Carries.trans (h : Carries b b') (h' : Carries b' b'') : Carries b b'' := by
  intro key hkey
  obtain ⟨hkey', hget'⟩ := h' key hkey
  obtain ⟨hkey'', hget⟩ := h key hkey'
  exact ⟨hkey'', hget'.trans hget⟩

theorem peekActive_carries (b : QuinnBackend Conn) : Carries b b.peekActive :=
  fun _ hkey => ⟨LinkedHashSet.mem_of_mem_popUntil hkey, rfl⟩

theorem nextActive_carries (b : QuinnBackend Conn) : Carries b b.nextActive :=
  fun _ hkey => ⟨LinkedHashSet.mem_of_mem_popFront hkey, rfl⟩

theorem forgetConnection_carries (hget : b.connections.all.get key = some c) :
    Carries b (b.forgetConnection (c.id key)) := by
  have hforgets := forgetConnection_forgets hget
  intro k hk
  rw [hforgets.active, LinkedHashSet.mem_remove] at hk
  rw [hforgets.get, if_neg hk.1]
  exact ⟨hk.2, rfl⟩

/-- The iteration of the loop on an open connection that is written completely. -/
theorem write_carries (hfront : b.connections.active.front = some key) (io : Io)
    (c : Connection Conn) (id : QuinnConnectionId) (hid : id.key = key) :
    Carries b ((({ b with io }.put key c).log (.writePending key)).nextActive.scheduleQuinnTimeout
      lib id) := by
  have htouches := scheduleQuinnTimeout_touches lib
    ((({ b with io }.put key c).log (.writePending key)).nextActive) id
  intro k hk
  rw [htouches.active] at hk
  obtain ⟨keys, hkeys⟩ := List.head?_eq_some_iff.mp hfront
  have hnodup := b.connections.active.nodup
  replace hk : k ∈ b.connections.active.toList.tail := hk
  rw [hkeys] at hnodup hk
  have hne : k ≠ key := by
    rintro rfl
    exact (List.nodup_cons.mp hnodup).1 hk
  rw [htouches.others k (hid ▸ hne), hkeys]
  exact ⟨List.mem_cons_of_mem _ hk, Slots.get_set_of_ne hne⟩

/-- When something is left to be written, there are no more buffers. -/
theorem writePendingLoop_incomplete {listenAddr : IpAddr} {now : Timer.Instant} {pmtu : Nat}
    {pool pool' : List Nat} {inner inner' : Conn} {out out' : List Message}
    (h : Io.writePendingLoop .release lib listenAddr now pmtu pool inner out =
      some (pool', inner', out', false)) : pool' = [] := by
  induction pool generalizing inner out with
  | nil =>
    cases h
    rfl
  | cons capacity pool ih =>
    unfold Io.writePendingLoop at h
    simp only at h
    split at h
    · cases h
    · split at h
      · cases h
      · split at h
        · cases h
        · exact ih h

/-- After any number of iterations, unless the loop had to stop for lack of buffers. -/
theorem sendLoop_carries {n : Nat} {out out' : List Message}
    (h : sendLoop lib n b out = some (b', out')) (hbuffer : b'.io.hasPrimaryBuffer = true) :
    Carries b b' := by
  induction n generalizing b out with
  | zero =>
    cases h
    exact peekActive_carries b
  | succ n ih =>
    unfold sendLoop at h
    have hpeek := peekActive_carries b
    simp only at h
    generalize b.peekActive = b₁ at h hpeek
    refine hpeek.trans ?_
    have hrefl : Carries b₁ b₁ := fun _ hkey => ⟨hkey, rfl⟩
    split at h
    · cases h
      exact hrefl
    · next key hfront =>
      split at h
      · cases h
        exact hrefl
      · next c hget =>
        split at h
        · cases h
          exact hrefl
        · split at h
          · exact ((forgetConnection_carries hget).trans (nextActive_carries _)).trans (ih h)
          · split at h
            · cases h
            · next io c' out₁ complete hwrite =>
              split at h
              · exact (write_carries hfront io c' (c'.id key) rfl).trans (ih h)
              · next hincomplete =>
                cases h
                obtain ⟨⟨pool, inner, out₂, complete'⟩, hpool, heq⟩ :=
                  Option.map_eq_some_iff.mp hwrite
                cases heq
                rw [Bool.not_eq_true] at hincomplete
                rw [hincomplete] at hpool
                obtain rfl := writePendingLoop_incomplete hpool
                exact absurd hbuffer Bool.false_ne_true

/-- What `send` forgets was drained and in the queue when the fired timeouts had been handled. -/
theorem mem_forgottenBySend {out : List Message} {inner : Conn}
    (h : inner ∈ b.forgottenBySend lib out) :
    ∃ key ∈ (b.handleScheduledEvents lib).connections.active.toList, ∃ c,
      (b.handleScheduledEvents lib).connections.all.get key = some c ∧
        lib.isDrained c.inner = true ∧ c.inner = inner := by
  obtain ⟨n, -, h⟩ := List.mem_filterMap.mp h
  obtain ⟨⟨b₁, out₁⟩, hloop, hnext⟩ := Option.bind_eq_some_iff.mp h
  obtain ⟨key, c, hfront, hget, hbuffer, hdrained, hinner⟩ := nextForgotten_eq_some hnext
  have hmem : key ∈ b₁.connections.active.toList := List.mem_of_head? hfront
  obtain ⟨hactive, hsame⟩ := sendLoop_carries hloop hbuffer key hmem
  exact ⟨key, hactive, c, hsame ▸ hget, hdrained, hinner⟩

end QuinnBackend

namespace EndpointBackend

variable (env : Env Conn End Cfg Incoming Signal Report)

/-- The turn that the next iteration of the loop of `recv` starts. -/
def nextTurn (b : EndpointBackend Conn End Cfg) (packet : Packet) (fuel : Nat) :
    Option (Turn Conn End Cfg Signal) :=
  match b.reservedBuffers with
  | [] => none
  | _ :: reservedBuffers =>
    match env.endpoint.handle b.endpoint b.time.clock packet.fromAddr packet.toAddr
        (codepointOf packet.ecn) packet.payload with
    | (endpoint, some (.connectionEvent key event), _) =>
      Turn.of env { b with endpoint, reservedBuffers } key event fuel
    | _ => none

/-- The turns of the loop of `recv`. -/
def turnsLoop (fuel : Nat) : List Packet → EndpointBackend Conn End Cfg → List Message →
    List (Turn Conn End Cfg Signal)
  | [], _, _ => []
  | packet :: packets, b, out =>
    (b.nextTurn env packet fuel).toList ++
      match recvLoop env fuel [packet] b out with
      | some (b, [], out) => turnsLoop fuel packets b out
      | _ => []

variable {env} {b b' : EndpointBackend Conn End Cfg} {t : Turn Conn End Cfg Signal} {fuel : Nat}

theorem events_of_follows (h : b.Follows b') : b.events <+: b'.events := by
  have hsteps {g g' : Ledger} (h : Relation.ReflTransGen Ledger.Step g g') : g.events <+: g'.events := by
    induction h with
    | refl => exact List.prefix_refl _
    | tail _ hstep ih =>
      refine ih.trans ?_
      cases hstep with
      | push | register | report => exact List.prefix_append ..
      | forget | replace => exact List.prefix_refl _
  exact hsteps h

/-- The loop does take the turn. -/
theorem recvLoop_of_nextTurn {packet : Packet} (out : List Message)
    (h : b.nextTurn env packet fuel = some t) :
    t.PassesOn env ∧ t.before.toQuinnBackend = b.toQuinnBackend ∧ ∃ capacity,
      recvLoop env fuel [packet] b out = some (t.after.returnBuffer capacity, [], out) := by
  unfold nextTurn at h
  unfold recvLoop
  generalize b.reservedBuffers = buffers at h ⊢
  cases buffers with
  | nil => cases h
  | cons capacity reservedBuffers =>
    generalize env.endpoint.handle b.endpoint b.time.clock packet.fromAddr packet.toAddr
      (codepointOf packet.ecn) packet.payload = handled at h ⊢
    obtain ⟨endpoint, event, bytes⟩ := handled
    cases event with
    | none => cases h
    | some event =>
      cases event with
      | newConnection incoming => cases h
      | response transmit => cases h
      | connectionEvent key event =>
        obtain ⟨hbefore, -, hevent, hpasses⟩ := Turn.of_eq_some h
        refine ⟨hpasses, by rw [hbefore], max capacity bytes.length, ?_⟩
        simp only [handleQuinnDatagramEvent]
        rw [hevent]
        rfl

/-- **What a turn of `recv` passes on** is not lost later. -/
theorem passesOn_of_mem_turnsLoop {P : Conn → Prop} (henv : env.Keeps P) (hb : Every P b)
    {packets packets' : List Packet} {out out' : List Message}
    (h : recvLoop env fuel packets b out = some (b', packets', out'))
    (ht : t ∈ turnsLoop env fuel packets b out) :
    t.PassesOn env ∧ Every P t.before ∧ t.after.events <+: b'.events := by
  induction packets generalizing b out with
  | nil => exact absurd ht List.not_mem_nil
  | cons packet packets ih =>
    rw [turnsLoop, List.mem_append, Option.mem_toList] at ht
    rcases ht with ht | ht
    · obtain ⟨hpasses, hbefore, capacity, hone⟩ := recvLoop_of_nextTurn out ht
      refine ⟨hpasses, ?_, ?_⟩
      · show QuinnBackend.Every P _
        rw [hbefore]
        exact hb
      · rw [← List.singleton_append, recvLoop_append hone] at h
        show (t.after.returnBuffer capacity).events <+: _
        exact events_of_follows (recvLoop_follows env h)
    · split at ht
      · next b₁ out₁ hone =>
        rw [← List.singleton_append, recvLoop_append hone] at h
        exact ih (recvLoop_every henv hone hb) h ht
      · exact absurd ht List.not_mem_nil

end EndpointBackend

/-! ## Runs -/

/-- A backend in use, with a history of the turns of connections, and of the connections that were
forgotten, as they were then. -/
structure Remembered (Conn End Cfg Signal : Type) where
  running : Running Conn End Cfg
  turns : List (Turn Conn End Cfg Signal)
  forgotten : List Conn

namespace Remembered

variable (env : Env Conn End Cfg Incoming Signal Report)

def Init (s : Remembered Conn End Cfg Signal) : Prop :=
  s.running.Init ∧ s.turns = [] ∧ s.forgotten = []

/-- The turns of an operation: they are taken in `recv` only. -/
def turnsOf (b : EndpointBackend Conn End Cfg) : Operation → List (Turn Conn End Cfg Signal)
  | .recv inPackets outMessages fuel => b.turnsLoop env fuel inPackets outMessages
  | _ => []

/-- The connections that an operation forgets: `forget_connection` is called in `send`, and at the end
of a turn. -/
def forgottenBy (b : EndpointBackend Conn End Cfg) : Operation → List Conn
  | .send out => b.forgottenBySend env.quinn out
  | op => (turnsOf env b op).filterMap (Turn.forgotten env)

def exec (s : Remembered Conn End Cfg Signal) (op : Operation) :
    Option (Remembered Conn End Cfg Signal) :=
  (s.running.exec env op).map fun running =>
    { running
      turns := s.turns ++ turnsOf env s.running.backend op
      forgotten := s.forgotten ++ forgottenBy env s.running.backend op }

/-- When `send` has handled the timeouts that have fired, the connections in its queue that have
drained are quiet. -/
def DrainsQuiet (s : Remembered Conn End Cfg Signal) (op : Operation) : Prop :=
  (op matches .send _) = true →
    ∀ key ∈ (s.running.backend.handleScheduledEvents env.quinn).connections.active.toList,
      ∀ c ∈ (s.running.backend.handleScheduledEvents env.quinn).connections.all.get key,
        env.quinn.isDrained c.inner = true → env.Quiet c.inner

instance (s : Remembered Conn End Cfg Signal) (op : Operation) : Decidable (DrainsQuiet env s op) :=
  inferInstanceAs (Decidable (_ = true → _))

/-- **Nothing that a connection had to say is lost with it.** -/
structure PassedOn (Drained : Report → Prop) (s : Remembered Conn End Cfg Signal) : Prop where
  /-- Whatever was polled was passed on, to the endpoint and to the owner. -/
  turns : ∀ t ∈ s.turns, t.PassesOn env
  owner : ∀ t ∈ s.turns, ∀ e ∈ t.translations env,
    e ∈ s.running.consumed ∨ e ∈ s.running.backend.events
  /-- A connection is forgotten at the end of a turn, with empty queues. -/
  forgotten : s.forgotten = s.turns.filterMap (Turn.forgotten env)
  quiet : ∀ c ∈ s.forgotten, env.Quiet c
  /-- The endpoint was told of every connection that was forgotten. -/
  told : ∀ t ∈ s.turns, (t.forgotten env).isSome → ∃ report ∈ t.reports env, Drained report

variable {env}

/-- The owner of the backend does not lose an event. -/
theorem mem_output {s s' : Running Conn End Cfg} {op : Operation} (h : s.exec env op = some s')
    {e : Event QuinnConnectionId} (he : e ∈ s.consumed ∨ e ∈ s.backend.events) :
    e ∈ s'.consumed ∨ e ∈ s'.backend.events := by
  obtain ⟨b, hcall, rfl⟩ := Option.map_eq_some_iff.mp h
  by_cases hop : op = .consumeEvents
  · subst hop
    refine .inl ?_
    rcases he with he | he
    · exact List.mem_append_left _ he
    · exact List.mem_append_right _ (List.mem_reverse.mpr he)
  · have hevents := EndpointBackend.events_of_follows (Running.call_follows env hop hcall)
    rcases he with he | he
    · refine .inl ?_
      cases op with
      | consumeEvents => exact absurd rfl hop
      | _ => exact he
    · exact .inr (hevents.subset he)

section

variable {Drained : Report → Prop} {s s' : Remembered Conn End Cfg Signal} {op : Operation}

/-- `send` forgets nobody, since a drained connection has something queued. -/
theorem forgottenBySend_eq_nil (hannounces : env.Announces Drained)
    (hevery : s.running.backend.Every (env.Told Drained [])) {out : List Message}
    (hquiet : DrainsQuiet env s (.send out)) :
    forgottenBy env s.running.backend (.send out) = [] := by
  refine List.eq_nil_iff_forall_not_mem.mpr fun inner hmem => ?_
  obtain ⟨key, hkey, c, hget, hdrained, rfl⟩ := QuinnBackend.mem_forgottenBySend hmem
  have hhandled := QuinnBackend.handleScheduledEvents_every hannounces.keeps hevery
  obtain ⟨report, hreport, -⟩ := hhandled key c hget hdrained
  rw [List.nil_append, (hquiet rfl key hkey c hget hdrained).1] at hreport
  exact List.not_mem_nil hreport

theorem turnsOf_passesOn (hannounces : env.Announces Drained)
    (hevery : s.running.backend.Every (env.Told Drained [])) {b : EndpointBackend Conn End Cfg}
    (hcall : Running.call env s.running.backend op = some b) {t : Turn Conn End Cfg Signal}
    (ht : t ∈ turnsOf env s.running.backend op) :
    t.PassesOn env ∧ t.before.Every (env.Told Drained []) ∧ t.after.events <+: b.events := by
  cases op with
  | recv inPackets outMessages fuel =>
    obtain ⟨⟨b₁, packets, out⟩, hrecv, rfl⟩ := Option.map_eq_some_iff.mp hcall
    exact EndpointBackend.passesOn_of_mem_turnsLoop hannounces.keeps hevery hrecv ht
  | _ => exact absurd ht List.not_mem_nil

theorem PassedOn.exec (henv : env.Orderly) (hannounces : env.Announces Drained)
    (hevery : s.running.backend.Every (env.Told Drained [])) (hquiet : DrainsQuiet env s op)
    (hexec : s.exec env op = some s') (h : s.PassedOn env Drained) : s'.PassedOn env Drained := by
  obtain ⟨running, hrunning, rfl⟩ := Option.map_eq_some_iff.mp hexec
  obtain ⟨b, hcall, hrun⟩ := Option.map_eq_some_iff.mp hrunning
  have hturns (t : Turn Conn End Cfg Signal) (ht : t ∈ turnsOf env s.running.backend op) :=
    turnsOf_passesOn hannounces hevery hcall ht
  have hforgotten : s.forgotten ++ forgottenBy env s.running.backend op =
      (s.turns ++ turnsOf env s.running.backend op).filterMap (Turn.forgotten env) := by
    rw [List.filterMap_append, ← h.forgotten]
    cases op with
    | send out => exact congrArg (s.forgotten ++ ·) (forgottenBySend_eq_nil hannounces hevery hquiet)
    | _ => rfl
  have hpasses : ∀ t ∈ s.turns ++ turnsOf env s.running.backend op, t.PassesOn env := by
    intro t ht
    rcases List.mem_append.mp ht with ht | ht
    · exact h.turns t ht
    · exact (hturns t ht).1
  refine ⟨hpasses, fun t ht e he => ?_, hforgotten, fun c hc => ?_, fun t ht hsome => ?_⟩
  · rcases List.mem_append.mp ht with ht | ht
    · exact mem_output hrunning (h.owner t ht e he)
    · -- the translations were pushed, and nothing is consumed in `recv`
      obtain ⟨hpass, -, hevents⟩ := hturns t ht
      cases hrun
      exact .inr (hevents.subset (hpass.translated.subset (List.mem_append_right _ he)))
  · replace hc : c ∈ s.forgotten ++ forgottenBy env s.running.backend op := hc
    rw [hforgotten] at hc
    obtain ⟨t, ht, hleft⟩ := List.mem_filterMap.mp hc
    exact henv.quiet_of_forgotten (hpasses t ht) hleft
  · rcases List.mem_append.mp ht with ht | ht
    · exact h.told t ht hsome
    · obtain ⟨hpass, hbefore, -⟩ := hturns t ht
      obtain ⟨c, hc⟩ := Option.isSome_iff_exists.mp hsome
      exact hannounces.told_of_forgotten henv hpass hbefore hc

/-- **Nothing is lost with a connection that is forgotten**, in every run in which `send` finds no
drained connection that has something queued. -/
theorem forgotten_passed_on (henv : env.Orderly) (hannounces : env.Announces Drained)
    (h : Reachable Init (DrainsQuiet env) (exec env) s) : s.PassedOn env Drained := by
  have hinv : s.running.backend.Every (env.Told Drained []) ∧ s.PassedOn env Drained := by
    induction h with
    | init hinit =>
      obtain ⟨hrunning, hturns, hforgotten⟩ := hinit
      refine ⟨Running.every_init hrunning, ?_⟩
      refine ⟨?_, ?_, by rw [hforgotten, hturns]; rfl, ?_, ?_⟩
      · rw [hturns]
        exact fun t ht => absurd ht List.not_mem_nil
      · rw [hturns]
        exact fun t ht => absurd ht List.not_mem_nil
      · rw [hforgotten]
        exact fun c hc => absurd hc List.not_mem_nil
      · rw [hturns]
        exact fun t ht => absurd ht List.not_mem_nil
    | step _ hquiet hexec ih =>
      obtain ⟨hevery, hpassed⟩ := ih
      refine ⟨?_, hpassed.exec henv hannounces hevery hquiet hexec⟩
      obtain ⟨running, hrunning, rfl⟩ := Option.map_eq_some_iff.mp hexec
      exact Running.exec_every hannounces.keeps hrunning hevery
  exact hinv.2

end

end Remembered

/-! ## A connection that times out -/

/-- A connection that is lost when its peer resets it, or when it is idle for too long. -/
structure Transient where
  drained : Bool
  /-- Queued for the endpoint: the connection is drained. -/
  report : Bool
  /-- Queued for the application. -/
  loss : Option ConnectionError
  deriving DecidableEq, Repr

def Transient.opened : Transient := ⟨false, false, none⟩

def Transient.lost (reason : ConnectionError) : Transient := ⟨true, true, some reason⟩

/-- The library of connections that time out at a fixed time. -/
def transientLibrary (due : Timer.Instant) : Library Transient where
  isDrained := Transient.drained
  isClosed := Transient.drained
  isServer _ := false
  currentMtu _ := 1200
  close c _ _ _ := c
  handleTimeout _ _ := .lost .timedOut
  pollTimeout c := (c, if c.drained then none else some due)
  pollTransmit c _ _ := (c, none)
  poll c := ({ c with loss := none }, c.loss.map .connectionLost)
  localAddressChanged c := c
  pathChanged c _ := c
  openStream c _ := (c, none)
  acceptStream c _ := (c, none)
  readStream c _ := (c, .error .closedStream)
  nextChunk c _ _ := (c, .error .blocked)
  writeChunk c _ _ := (c, .error .closedStream)
  finish c _ := (c, .error .closedStream)
  stop c _ _ := c
  reset c _ _ := c
  setPriority c _ _ := c
  recvDatagram c := (c, none)
  sendDatagram c _ := (c, .error .unsupportedByPeer)
  datagramMaxSize _ := none
  display _ := "error"

/-- An endpoint for one connection, which counts the open ones. -/
def transientEndpoint : EndpointLibrary Transient Nat Unit Unit Unit Unit where
  connect count _ _ _ _ := (count + 1, .ok (0, .opened))
  handle count _ _ _ _ _ := (count, some (.connectionEvent 0 ()), [])
  handleEvent count _ _ := (count - 1, none)
  ignore count _ := count
  retry count incoming := (count, .error incoming)
  accept count _ _ _ := (count, .error none)
  remoteAddressValidated _ := true
  deliver _ _ := .lost .reset
  pollEndpointEvents c := ({ c with report := false }, if c.report then [()] else [])

def transientEnv (due : Timer.Instant) : Env Transient Nat Unit Unit Unit Unit where
  quinn := transientLibrary due
  endpoint := transientEndpoint

/-- The one report of such a connection says that it has drained. -/
theorem transientEnv_announces (due : Timer.Instant) : (transientEnv due).Announces fun _ => True where
  advances c c' hadvances hdrained := by
    cases hadvances with
    | deliver signal => exact .inr ⟨(), List.mem_singleton_self _, trivial⟩
    | handleTimeout now => exact .inr ⟨(), List.mem_singleton_self _, trivial⟩
    | _ => exact .inl ⟨hdrained, List.Subset.refl _⟩
  polled _ := rfl
  connect _ _ _ _ _ _ _ _ hconnect := by
    cases hconnect
    rfl
  accept _ _ _ _ _ _ _ haccept := by
    cases haccept

theorem transientEnv_orderly (due : Timer.Instant) : (transientEnv due).Orderly where
  reports_polled _ := rfl
  reports_poll _ h := h
  reports_accept _ _ h := h
  poll_none _ _ := rfl
  poll_lost _ _ _ := rfl

namespace Remembered

/-- A client without connections. -/
def transientClient : Remembered Transient Nat Unit Unit where
  running :=
    { backend := .new { client := some (), server := none } 0 [1500] [1500] .localhost .zero
      consumed := [] }
  turns := []
  forgotten := []

theorem transientClient_init : transientClient.Init :=
  ⟨⟨rfl, { client := some (), server := none }, 0, [1500], [1500], .localhost, .zero, rfl⟩, rfl, rfl⟩

/-- A connection that is reset by its peer: everything is passed on. -/
theorem forgotten_passed_on_reset :
    ∃ s : Remembered Transient Nat Unit Unit, s.forgotten.length = 1 ∧
      s.running.backend.endpoint = 0 ∧
      s.turns.flatMap (Turn.translations (transientEnv .zero)) =
        [.connection (.halted ⟨0, 0⟩ .statelessReset)] ∧
      s.PassedOn (transientEnv .zero) fun _ => True := by
  have hrun : ∃ s : Remembered Transient Nat Unit Unit,
      Reachable Init (DrainsQuiet (transientEnv .zero)) (exec (transientEnv .zero)) s ∧
        decide (s.forgotten.length = 1 ∧ s.running.backend.endpoint = 0 ∧
          s.turns.flatMap (Turn.translations (transientEnv .zero)) =
            [.connection (.halted ⟨0, 0⟩ .statelessReset)]) = true :=
    exists_reachable (some transientClient)
      (fun s hs => Option.some.inj hs ▸ transientClient_init)
      [.connect "" fragilePeer, .recv [resetPacket] [] 3, .send []]
      (by decide +kernel)
  obtain ⟨s, hs, hstate⟩ := hrun
  obtain ⟨hlength, hendpoint, htranslations⟩ := of_decide_eq_true hstate
  exact ⟨s, hlength, hendpoint, htranslations,
    forgotten_passed_on (transientEnv_orderly .zero) (transientEnv_announces .zero) hs⟩

/-- When the connection times out. -/
def idleDeadline : Timer.Instant := ⟨2 * 10 ^ 6, by decide⟩

def afterDeadline : Timer.Instant := ⟨4 * 10 ^ 6, by decide⟩

/-- **A connection that times out takes its events with it**: it had no turn, the endpoint still counts
it, and the owner does not hear of a timeout. -/
theorem timed_out_unreported :
    ∃ s : Remembered Transient Nat Unit Unit,
      Reachable Init anyStep (exec (transientEnv idleDeadline)) s ∧
      (∃ c ∈ s.forgotten, ¬ (transientEnv idleDeadline).Quiet c) ∧ s.turns.isEmpty = true ∧
      s.running.backend.connections.keys = [] ∧ s.running.backend.endpoint = 1 ∧
      Event.connection (.halted ⟨0, 0⟩ .timeout) ∉ s.running.backend.events ∧
      ¬ s.PassedOn (transientEnv idleDeadline) fun _ => True := by
  have hrun : ∃ s : Remembered Transient Nat Unit Unit,
      Reachable Init anyStep (exec (transientEnv idleDeadline)) s ∧
        decide ((∃ c ∈ s.forgotten, ¬ (transientEnv idleDeadline).Quiet c) ∧
          s.turns.isEmpty = true ∧ s.running.backend.connections.keys = [] ∧
          s.running.backend.endpoint = 1 ∧
          Event.connection (.halted ⟨0, 0⟩ .timeout) ∉ s.running.backend.events) = true :=
    exists_reachable (some transientClient)
      (fun s hs => Option.some.inj hs ▸ transientClient_init)
      [.connect "" fragilePeer, .clockUpdate afterDeadline, .tick, .send []]
      (by decide +kernel)
  obtain ⟨s, hs, hstate⟩ := hrun
  obtain ⟨⟨c, hc, hloud⟩, hturns, hkeys, hendpoint, htimeout⟩ := of_decide_eq_true hstate
  exact ⟨s, hs, ⟨c, hc, hloud⟩, hturns, hkeys, hendpoint, htimeout,
    fun hpassed => hloud (hpassed.quiet c hc)⟩

end Remembered

end Aquic.Backend.Quinn

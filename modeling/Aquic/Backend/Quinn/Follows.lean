import Aquic.Backend.Quinn.Ledger
import Aquic.Lib.Run

/-!
# Every operation goes through steps of the ledger

The operations of the quinn backend with its endpoint. All but consuming the events, by which the
owner of the backend is told, are steps of the ledger.
-/

namespace Aquic.Backend.Quinn

open Aquic.Collections Aquic.Net Aquic.Run Aquic.Stream Aquic.Timer

namespace EndpointBackend

variable {Conn End Cfg Incoming Signal Report : Type}
  (env : Env Conn End Cfg Incoming Signal Report)

def ledger (b : EndpointBackend Conn End Cfg) : Ledger := b.toQuinnBackend.ledger b.replaced

/-- Whatever happens to the backend, the ledger goes through steps. -/
def Follows (b b' : EndpointBackend Conn End Cfg) : Prop :=
  Relation.ReflTransGen Ledger.Step b.ledger b'.ledger

variable {b b' b'' : EndpointBackend Conn End Cfg} {key : ConnectionKey} {id : QuinnConnectionId}

theorem Follows.of_base (hreplaced : b'.replaced = b.replaced)
    (h : b.toQuinnBackend.Follows b'.toQuinnBackend) : Follows b b' := by
  unfold Follows ledger
  rw [hreplaced]
  exact h b.replaced

theorem Follows.of_eq (h : b'.ledger = b.ledger) : Follows b b' := by
  rw [Follows, h]

theorem Follows.refl (b : EndpointBackend Conn End Cfg) : Follows b b :=
  .of_eq rfl

theorem Follows.trans (h : Follows b b') (h' : Follows b' b'') : Follows b b'' :=
  Relation.ReflTransGen.trans h h'

theorem foldl_follows {α : Type}
    {f : EndpointBackend Conn End Cfg → α → EndpointBackend Conn End Cfg}
    (hf : ∀ b x, Follows b (f b x)) (xs : List α) (b : EndpointBackend Conn End Cfg) :
    Follows b (xs.foldl f b) := by
  induction xs generalizing b with
  | nil => exact .refl b
  | cons x xs ih => exact (hf b x).trans (ih (f b x))

/-! ## New connections -/

/-- What `remove_raw` leaves of the connections. -/
theorem ledger_removeRaw (b : EndpointBackend Conn End Cfg) (key : ConnectionKey) :
    let connections := ((b.connections.removeRaw key).map Prod.fst).getD b.connections
    connections.all.get key = none ∧ connections.versionSequence = b.connections.versionSequence ∧
      Relation.ReflTransGen Ledger.Step b.ledger
        ({ b.toQuinnBackend with connections }.ledger
          (b.replaced ++ (b.connections.all.get key).toList.map fun c => Connection.id c key)) := by
  unfold Connections.removeRaw
  cases hget : b.connections.all.get key with
  | none =>
    refine ⟨hget, rfl, ?_⟩
    simp only [Option.toList_none, List.map_nil, List.append_nil]
    exact .refl
  | some c =>
    refine ⟨(Slots.get_remove _ key key).trans (if_pos rfl), rfl, .single ?_⟩
    have hstep := Ledger.Step.replace b.ledger (c.id key)
    have hremove := Connections.remove_spec hget
    obtain ⟨-, -, hledger⟩ := QuinnBackend.ledger_remove hremove
    have hremoved := hledger b.replaced
    convert hstep using 1
    simp only [QuinnBackend.ledger, Ledger.put, Ledger.mk.injEq] at hremoved
    simp only [ledger, QuinnBackend.ledger, Ledger.put, Ledger.mk.injEq]
    exact ⟨hremoved.1, rfl, trivial, rfl⟩

theorem registerNewConnection_follows (b : EndpointBackend Conn End Cfg) (key : ConnectionKey)
    (connection : Conn) : Follows b (b.registerNewConnection env key connection).1 := by
  obtain ⟨hnone, hversion, hsteps⟩ := ledger_removeRaw b key
  refine Relation.ReflTransGen.tail hsteps ?_
  -- scheduling the timeout does not concern the ledger
  have hpush : (b.registerNewConnection env key connection).1.ledger =
      ({ b.toQuinnBackend with
          connections := (b.connections.insertRaw key connection).1 }.ledger
            (b.replaced ++ (b.connections.all.get key).toList.map fun c => Connection.id c key)).push
        [.connection (.new ⟨key, b.connections.versionSequence⟩
          (env.quinn.isServer connection))] := by
    rw [← QuinnBackend.ledger_scheduleQuinnTimeout env.quinn _
      ⟨key, b.connections.versionSequence⟩]
    rfl
  rw [hpush]
  unfold Connections.insertRaw
  generalize ((b.connections.removeRaw key).map Prod.fst).getD b.connections = connections
    at hnone hversion ⊢
  generalize b.replaced ++ (b.connections.all.get key).toList.map (fun c => Connection.id c key) =
    replaced
  have hfree (version : UInt32) :
      ({ b.toQuinnBackend with connections }.ledger replaced).sent ⟨key, version⟩ = none := by
    show (connections.get ⟨key, version⟩).map _ = none
    unfold Connections.get
    rw [hnone]
    rfl
  have hstep := Ledger.Step.register ({ b.toQuinnBackend with connections }.ledger replaced) hfree
    (env.quinn.isServer connection)
  have hsequence : ({ b.toQuinnBackend with connections }.ledger replaced).versionSequence =
      b.connections.versionSequence := hversion
  rw [hsequence] at hstep
  convert hstep using 1
  have hsent := QuinnBackend.sent_change connections
    { all := connections.all.insert key (.new connection b.connections.versionSequence)
      active := connections.active.replace key
      versionSequence := b.connections.versionSequence + 1 }
    (some (.new connection b.connections.versionSequence)) b.connections.versionSequence
    (fun k => Slots.get_insert ..)
    (fun c hc => by rw [hnone] at hc; cases hc)
    (fun c hc => by cases hc; rfl)
  simp only [QuinnBackend.ledger, Ledger.push, Ledger.put, Ledger.mk.injEq]
  exact ⟨hsent, trivial, trivial, trivial⟩

/-! ## `recv` -/

theorem handleQuinnConnectionEvent_follows {event : Signal} {fuel : Nat}
    (h : b.handleQuinnConnectionEvent env key event fuel = some b') : Follows b b' := by
  unfold handleQuinnConnectionEvent at h
  split at h
  · cases h
    exact .refl b
  · next cs c hmark =>
    obtain ⟨hget, hactive⟩ := QuinnBackend.getMarkActiveRaw_follows hmark
    obtain ⟨⟨endpoint, inner⟩, -, h⟩ := Option.bind_eq_some_iff.mp h
    obtain ⟨backend, hdrain, h⟩ := Option.bind_eq_some_iff.mp h
    cases h
    have hput : QuinnBackend.Follows { b.toQuinnBackend with connections := cs }
      ({ b.toQuinnBackend with connections := cs }.put key { c with inner }) := .put hget rfl
    exact .of_base rfl
      ((hactive.trans hput).trans (QuinnBackend.drainEvents_follows env.quinn hdrain))

theorem writeResponse_follows {transmit : Transmit} {bytes : List UInt8} {capacity : Nat}
    {out out' : List Message}
    (h : b.writeResponse transmit bytes capacity out = some (b', out')) : Follows b b' := by
  obtain ⟨msg, -, heq⟩ := Option.map_eq_some_iff.mp h
  cases heq
  exact .refl b

theorem handleQuinnNewConnectionEvent_follows {incoming : Incoming} {capacity : Nat}
    {out out' : List Message}
    (h : b.handleQuinnNewConnectionEvent env incoming capacity out = some (b', out')) :
    Follows b b' := by
  have hendpoint (endpoint : End) : Follows b { b with endpoint } := .of_eq rfl
  have hreturn (b₁ : EndpointBackend Conn End Cfg) : Follows b₁ (b₁.returnBuffer capacity) :=
    .of_eq rfl
  unfold handleQuinnNewConnectionEvent at h
  split at h
  · cases h
    exact (hendpoint _).trans (hreturn _)
  · split at h
    · split at h
      · exact (hendpoint _).trans (writeResponse_follows h)
      · cases h
        exact (hendpoint _).trans (hreturn _)
    · split at h
      · next endpoint key connection _ =>
        cases h
        exact ((hendpoint _).trans (registerNewConnection_follows env _ key connection)).trans
          (hreturn _)
      · exact (hendpoint _).trans (writeResponse_follows h)
      · cases h
        exact (hendpoint _).trans (hreturn _)

theorem handleQuinnDatagramEvent_follows {event : QuinnDatagramEvent Incoming Signal}
    {capacity : Nat} {out out' : List Message} {fuel : Nat}
    (h : b.handleQuinnDatagramEvent env event capacity out fuel = some (b', out')) :
    Follows b b' := by
  cases event with
  | connectionEvent key event =>
    obtain ⟨b₁, hevent, heq⟩ := Option.map_eq_some_iff.mp h
    cases heq
    exact (handleQuinnConnectionEvent_follows env hevent).trans (.of_eq rfl)
  | newConnection incoming => exact handleQuinnNewConnectionEvent_follows env h
  | response transmit => exact writeResponse_follows h

theorem recvLoop_follows {fuel : Nat} {packets packets' : List Packet} {out out' : List Message}
    (h : recvLoop env fuel packets b out = some (b', packets', out')) : Follows b b' := by
  induction packets generalizing b out with
  | nil =>
    cases h
    exact .refl _
  | cons packet packets ih =>
    unfold recvLoop at h
    split at h
    · cases h
      exact .refl _
    · next capacity reservedBuffers _ =>
      have htaken (endpoint : End) : Follows b { b with endpoint, reservedBuffers } :=
        .of_eq rfl
      have hreturn (b₁ : EndpointBackend Conn End Cfg) (capacity : Nat) :
        Follows b₁ (b₁.returnBuffer capacity) := .of_eq rfl
      generalize env.endpoint.handle b.endpoint b.time.clock packet.fromAddr packet.toAddr
        (codepointOf packet.ecn) packet.payload = handled at h
      obtain ⟨endpoint, event, bytes⟩ := handled
      simp only at h
      split at h
      · exact ((htaken endpoint).trans (hreturn _ _)).trans (ih h)
      · split at h
        · cases h
        · next hevent =>
          exact ((htaken endpoint).trans (handleQuinnDatagramEvent_follows env hevent)).trans (ih h)

/-! ## Connections -/

theorem closeOne_follows {err : Nat} {reason : List UInt8}
    (h : closeOne env err reason b key = some b') : Follows b b' := by
  unfold closeOne at h
  split at h
  · cases h
    exact .refl b
  · next cs c hmark =>
    obtain ⟨hget, hactive⟩ := QuinnBackend.getMarkActiveRaw_follows hmark
    obtain ⟨code, -, rfl⟩ := Option.map_eq_some_iff.mp h
    exact .of_base rfl (hactive.trans (.put hget rfl))

theorem close_follows {err : Nat} {reason : List UInt8} (h : b.close env err reason = some b') :
    Follows b b' := by
  have hloop (keys : List ConnectionKey) (b₁ : EndpointBackend Conn End Cfg)
      (h : keys.foldlM (closeOne env err reason) b₁ = some b') : Follows b₁ b' := by
    induction keys generalizing b₁ with
    | nil =>
      cases h
      exact .refl _
    | cons key keys ih =>
      obtain ⟨b₂, hone, hrest⟩ := Option.bind_eq_some_iff.mp h
      exact (closeOne_follows env hone).trans (ih b₂ hrest)
  have hclosed : Follows b { b with isOpen := false } := .of_eq rfl
  unfold close at h
  split at h
  · exact hclosed.trans (hloop _ _ h)
  · cases h
    exact .refl b

theorem connect_follows (b : EndpointBackend Conn End Cfg) (serverName : String)
    (peerAddr : SocketAddr) : Follows b (b.connect env serverName peerAddr).1 := by
  have hendpoint (endpoint : End) : Follows b { b with endpoint } := .of_eq rfl
  unfold connect
  split
  · exact .refl b
  · split
    · exact .refl b
    · split
      · exact hendpoint _
      · next endpoint key connection _ =>
        exact (hendpoint _).trans (registerNewConnection_follows env _ key connection)

theorem connectionClose_follows {err : Nat} {reason : List UInt8} {result : Except Error Unit}
    (h : b.connectionClose env id err reason = some (b', result)) : Follows b b' := by
  unfold connectionClose at h
  split at h
  · cases h
    exact .refl b
  · split at h
    · cases h
      exact .refl b
    · next backend c hopen =>
      obtain ⟨hget, hid, hactive⟩ := QuinnBackend.getOpen_follows env.quinn hopen
      obtain ⟨code, -, heq⟩ := Option.map_eq_some_iff.mp h
      obtain ⟨rfl, -⟩ := Prod.mk.inj heq
      refine .of_base rfl (hactive.trans ?_)
      exact QuinnBackend.Follows.report hget
        (Connection.getCloseEvent_reported { c with inner := _ } id.key err reason true true)

theorem migrateOne_follows (b : EndpointBackend Conn End Cfg) (key : ConnectionKey) :
    Follows b (migrateOne env b key) := by
  unfold migrateOne
  split
  · exact .refl b
  · next cs c hmark =>
    obtain ⟨hget, hactive⟩ := QuinnBackend.getMarkActiveRaw_follows hmark
    exact .of_base rfl (hactive.trans (QuinnBackend.dgramOutSize_follows (c := c) env.quinn hget _ rfl))

theorem migrateNetwork_follows (b : EndpointBackend Conn End Cfg)
    (newListenAddr : Option IpAddr) : Follows b (b.migrateNetwork env newListenAddr).1 := by
  unfold migrateNetwork
  split
  · exact .refl b
  · split
    · exact .refl b
    · have hlisten : Follows b
          { b with io := { b.io with listenAddr := newListenAddr.getD b.io.listenAddr } } :=
        .of_eq rfl
      exact hlisten.trans (foldl_follows (migrateOne_follows env) _ _)

/-! ## Streams -/

/-- What most operations on an open connection amount to. -/
theorem put_open_follows {backend : QuinnBackend Conn} {c : Connection Conn}
    (h : b.getOpen env.quinn id = some (backend, c)) (inner : Conn) :
    Follows b { b with toQuinnBackend := backend.put id.key { c with inner } } := by
  obtain ⟨hget, -, hactive⟩ := QuinnBackend.getOpen_follows env.quinn h
  exact .of_base rfl (hactive.trans (.put hget rfl))

theorem streamRecv_follows {streamId : StreamId} {outLen fuel : Nat}
    {result : Except Error (List UInt8 × Bool)}
    (h : b.streamRecv env id streamId outLen fuel = some (b', result)) : Follows b b' := by
  unfold streamRecv at h
  split at h
  · cases h
    exact .refl b
  · split at h
    · cases h
      exact .refl b
    · split at h
      · cases h
        exact .refl b
      · split at h
        · cases h
          exact .refl b
        · next hopen =>
          split at h
          · cases h
            exact put_open_follows env hopen _
          · cases h
            exact put_open_follows env hopen _
          · obtain ⟨⟨inner, _⟩, -, heq⟩ := Option.map_eq_some_iff.mp h
            cases heq
            exact put_open_follows env hopen inner

theorem streamSend_follows (b : EndpointBackend Conn End Cfg) (id : QuinnConnectionId)
    (streamId : StreamId) (bytes : List UInt8) (fin : Bool) :
    Follows b (b.streamSend env id streamId bytes fin).1 := by
  unfold streamSend
  split
  · exact .refl b
  · split
    · exact .refl b
    · split
      · exact .refl b
      · next hopen => exact put_open_follows env hopen _

theorem streamOpenSend_follows (b : EndpointBackend Conn End Cfg) (id : QuinnConnectionId)
    (bidirectional : Bool) (bytes : List UInt8) (fin : Bool) :
    Follows b (b.streamOpenSend env id bidirectional bytes fin).1 := by
  unfold streamOpenSend
  split
  · exact .refl b
  · split
    · exact .refl b
    · next hopen =>
      split
      · exact put_open_follows env hopen _
      · exact (put_open_follows env hopen _).trans (streamSend_follows env _ id _ bytes fin)

theorem changeStream_follows {illegal : Bool} {change : Conn → Option Conn}
    (h : b.changeStream env id illegal change = some b') : Follows b b' := by
  unfold changeStream at h
  split at h
  · cases h
    exact .refl b
  · split at h
    · cases h
      exact .refl b
    · next hopen =>
      obtain ⟨inner, -, rfl⟩ := Option.map_eq_some_iff.mp h
      exact put_open_follows env hopen inner

/-! ## Datagrams -/

theorem dgramRecvZc_follows (b : EndpointBackend Conn End Cfg) (id : QuinnConnectionId) :
    Follows b (b.dgramRecvZc env id).1 := by
  unfold dgramRecvZc
  split
  · exact .refl b
  · split
    · exact .refl b
    · next c hget => exact .of_base rfl (.put (QuinnBackend.id_of_get hget).1 rfl)

theorem dgramSend_follows (b : EndpointBackend Conn End Cfg) (id : QuinnConnectionId)
    (bytes : List UInt8) : Follows b (b.dgramSend env id bytes).1 := by
  unfold dgramSend
  split
  · exact .refl b
  · split
    · exact .refl b
    · next hopen => exact put_open_follows env hopen _

end EndpointBackend

/-! ## Runs -/

namespace Running

variable {Conn End Cfg Incoming Signal Report : Type}
  (env : Env Conn End Cfg Incoming Signal Report) {b b' : EndpointBackend Conn End Cfg}

open EndpointBackend

/-- **Every operation goes through steps of the ledger**, except that consuming the events takes them
away. -/
theorem call_follows {op : Operation} (hconsume : op ≠ .consumeEvents)
    (h : call env b op = some b') : Follows b b' := by
  cases op with
  | clockUpdate clock =>
    cases h
    exact .of_eq rfl
  | consumeEvents => exact absurd rfl hconsume
  | close err reason => exact close_follows env h
  | connect serverName peerAddr =>
    cases h
    exact connect_follows env b serverName peerAddr
  | connectionClose id err reason =>
    obtain ⟨⟨b₁, _⟩, hclose, rfl⟩ := Option.map_eq_some_iff.mp h
    exact connectionClose_follows env hclose
  | send out =>
    obtain ⟨⟨backend, _⟩, hsend, rfl⟩ := Option.map_eq_some_iff.mp h
    exact .of_base rfl (QuinnBackend.send_follows env.quinn hsend)
  | recv inPackets outMessages fuel =>
    obtain ⟨⟨b₁, _⟩, hrecv, rfl⟩ := Option.map_eq_some_iff.mp h
    exact recvLoop_follows env hrecv
  | tick =>
    cases h
    exact .of_eq rfl
  | migrateNetwork newListenAddr =>
    cases h
    exact migrateNetwork_follows env b newListenAddr
  | streamRecv id streamId outLen fuel =>
    obtain ⟨⟨b₁, _⟩, hrecv, rfl⟩ := Option.map_eq_some_iff.mp h
    exact streamRecv_follows env hrecv
  | streamOpenSend id bidirectional bytes fin =>
    cases h
    exact streamOpenSend_follows env b id bidirectional bytes fin
  | streamSend id streamId bytes fin =>
    cases h
    exact streamSend_follows env b id streamId bytes fin
  | streamStopSending id streamId err =>
    simp only [call, streamStopSending] at h
    exact changeStream_follows env h
  | streamResetSending id streamId err =>
    simp only [call, streamResetSending] at h
    exact changeStream_follows env h
  | streamSetPriority id streamId priority =>
    simp only [call, streamSetPriority] at h
    exact changeStream_follows env h
  | dgramRecv id outLen =>
    cases h
    exact dgramRecvZc_follows env b id
  | dgramRecvZc id =>
    cases h
    exact dgramRecvZc_follows env b id
  | dgramSend id bytes =>
    cases h
    exact dgramSend_follows env b id bytes
  | dropMessage primary capacity =>
    cases primary with
    | true =>
      cases h
      exact .of_eq rfl
    | false =>
      cases h
      exact .of_eq rfl

/-- The ledger with the events that were consumed before. -/
def ledger (s : Running Conn End Cfg) : Ledger := s.backend.ledger.after s.consumed

/-- **The invariant rule for ledgers**: what the steps of a ledger keep holds in every run, if it does
not depend on the order of the events. -/
theorem ledger_invariant {P : Ledger → Prop}
    (hinit : P { sent := fun _ => none, versionSequence := 0, events := [], replaced := [] })
    (hstep : ∀ g g', Ledger.Step g g' → P g → P g')
    (hperm : ∀ g events, events.Perm g.events → P g → P { g with events })
    {s : Running Conn End Cfg} (h : Reachable Init anyStep (exec env) s) : P s.ledger := by
  have hsteps {g g' : Ledger} (hfollows : Relation.ReflTransGen Ledger.Step g g')
      (earlier : List (Event QuinnConnectionId)) (hg : P (g.after earlier)) : P (g'.after earlier) := by
    induction hfollows with
    | refl => exact hg
    | tail _ hlast ih => exact hstep _ _ (hlast.after earlier) ih
  induction h with
  | @init s hs =>
    obtain ⟨b, consumed⟩ := s
    obtain ⟨rfl, config, endpoint, primaryBuffers, reservedBuffers, listenAddr, clock, rfl⟩ := hs
    exact hinit
  | @step s s' op _ _ hexec ih =>
    obtain ⟨b', hcall, rfl⟩ := Option.map_eq_some_iff.mp hexec
    cases op with
    | consumeEvents =>
      cases hcall
      have hreversed : (s.consumed ++ s.backend.events.reverse ++ []).Perm s.ledger.events := by
        rw [List.append_nil]
        exact (List.reverse_perm _).append_left s.consumed
      exact hperm s.ledger _ hreversed ih
    | _ => exact hsteps (call_follows env (by simp) hcall) s.consumed ih

end Running

end Aquic.Backend.Quinn

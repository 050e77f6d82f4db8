import Aquic.Backend.Quinn.Application
import Aquic.Backend.Termination

/-!
# The ledger of the quinn backend

What matters for the events of connections: the live connections, each under its id and with its
terminal flag, the version of the next connection, and the events. Every operation goes through a few
kinds of steps. When the endpoint hands out the handle of a connection that is still registered, that
connection is dropped without a word; the ledger remembers which ones were.
-/

namespace Aquic.Backend.Quinn

open Aquic.Collections Aquic.Net Aquic.Stream Aquic.Timer

structure Ledger where
  /-- The live connections: was the terminal event sent? -/
  sent : QuinnConnectionId → Option Bool
  versionSequence : UInt32
  events : List (Event QuinnConnectionId)
  /-- The connections that were dropped without a word. -/
  replaced : List QuinnConnectionId

namespace Ledger

def put (g : Ledger) (id : QuinnConnectionId) (flag : Option Bool) : Ledger :=
  { g with sent := Function.update g.sent id flag }

def push (g : Ledger) (events : List (Event QuinnConnectionId)) : Ledger :=
  { g with events := g.events ++ events }

def Live (g : Ledger) (id : QuinnConnectionId) : Prop := (g.sent id).isSome

inductive Step : Ledger → Ledger → Prop
  /-- Events other than `New`, `Closed` and `Halted`. -/
  | push (g : Ledger) {events : List (Event QuinnConnectionId)}
      (hordinary : ∀ e ∈ events, e.Ordinary g.Live) : Step g (g.push events)
  /-- A new connection, under a handle that is not in use. -/
  | register (g : Ledger) {key : ConnectionKey} (hfree : ∀ version, g.sent ⟨key, version⟩ = none)
      (isServer : Bool) :
      Step g
        ({ g with versionSequence := g.versionSequence + 1 }.put ⟨key, g.versionSequence⟩
            (some false)
          |>.push [.connection (.new ⟨key, g.versionSequence⟩ isServer)])
  /-- The terminal event of a connection. -/
  | report (g : Ledger) {id : QuinnConnectionId} (hunsent : g.sent id = some false)
      {e : Event QuinnConnectionId} (hterminates : e.terminates = some id) :
      Step g ((g.put id (some true)).push [e])
  /-- A connection is forgotten after its terminal event. -/
  | forget (g : Ledger) {id : QuinnConnectionId} (hsent : g.sent id = some true) :
      Step g (g.put id none)
  /-- A connection is dropped because its handle is needed. -/
  | replace (g : Ledger) (id : QuinnConnectionId) :
      Step g { g.put id none with replaced := g.replaced ++ [id] }

/-! ### Events that were consumed before -/

/-- A ledger whose events come after earlier ones. -/
def after (earlier : List (Event QuinnConnectionId)) (g : Ledger) : Ledger :=
  { g with events := earlier ++ g.events }

theorem push_after (earlier events : List (Event QuinnConnectionId)) (g : Ledger) :
    (g.push events).after earlier = (g.after earlier).push events :=
  congrArg (Ledger.mk _ _ · _) (List.append_assoc ..).symm

theorem Step.after {g g' : Ledger} (hstep : Step g g') (earlier : List (Event QuinnConnectionId)) :
    Step (g.after earlier) (g'.after earlier) := by
  cases hstep with
  | push hordinary =>
    rw [push_after]
    exact .push (g.after earlier) hordinary
  | register hfree isServer =>
    rw [push_after]
    exact .register (g.after earlier) hfree isServer
  | report hunsent hterminates =>
    rw [push_after]
    exact .report (g.after earlier) hunsent hterminates
  | forget hsent => exact .forget (g.after earlier) hsent
  | replace id => exact .replace (g.after earlier) id

/-! ### The roster -/

/-- Without the versions. -/
def roster (g : Ledger) : Roster QuinnConnectionId where
  sent := g.sent
  events := g.events
  replaced := g.replaced

theorem Step.roster {g g' : Ledger} (hstep : Step g g') : Roster.Step g.roster g'.roster := by
  cases hstep with
  | push hordinary => exact .push g.roster hordinary
  | register hfree isServer => exact .register g.roster (hfree g.versionSequence) isServer
  | report hunsent hterminates => exact .report g.roster hunsent hterminates
  | forget hsent => exact .forget g.roster hsent
  | replace id => exact .replace g.roster id

end Ledger

/-! ## Connections -/

namespace Connection

variable {Conn : Type}

/-- What the ledger sees of a connection. -/
def stamp (c : Connection Conn) : UInt32 × Bool := (c.version, c.closedEventSent)

/-- What reporting the end of a connection amounts to: nothing if it was reported before. -/
def Reported (id : QuinnConnectionId) (c c' : Connection Conn)
    (event : Option (ConnectionEvent QuinnConnectionId)) : Prop :=
  (c'.stamp = c.stamp ∧ event = none) ∨
    (c.closedEventSent = false ∧ c'.stamp = (c.version, true) ∧
      ∃ e, event = some e ∧ (Event.connection e).terminates = some id)

theorem getHaltEvent_reported (c : Connection Conn) (key : ConnectionKey) (kind : HaltKind) :
    Reported (c.id key) c (c.getHaltEvent key kind).1 (c.getHaltEvent key kind).2 := by
  unfold getHaltEvent
  split
  · exact .inl ⟨rfl, rfl⟩
  · next hunsent => exact .inr ⟨Bool.eq_false_iff.mpr hunsent, rfl, _, rfl, rfl⟩

theorem getCloseEvent_reported (c : Connection Conn) (key : ConnectionKey) (code : Nat)
    (reason : List UInt8) (isApplication isLocal : Bool) :
    Reported (c.id key) c (c.getCloseEvent key code reason isApplication isLocal).1
      (c.getCloseEvent key code reason isApplication isLocal).2 := by
  unfold getCloseEvent
  split
  · exact .inl ⟨rfl, rfl⟩
  · next hunsent => exact .inr ⟨Bool.eq_false_iff.mpr hunsent, rfl, _, rfl, rfl⟩

theorem getLostEvent_reported (c : Connection Conn) (key : ConnectionKey)
    (error : ConnectionError) :
    Reported (c.id key) c (c.getLostEvent key error).1 (c.getLostEvent key error).2 := by
  cases error with
  | versionMismatch => exact c.getHaltEvent_reported key _
  | transportError code reason => exact c.getCloseEvent_reported key ..
  | connectionClosed code reason => exact c.getCloseEvent_reported key ..
  | applicationClosed code reason => exact c.getCloseEvent_reported key ..
  | timedOut => exact c.getHaltEvent_reported key _
  | reset => exact c.getHaltEvent_reported key _
  | cidsExhausted => exact c.getHaltEvent_reported key _
  | locallyClosed => exact .inl ⟨rfl, rfl⟩

theorem getHaltEvent_sent (c : Connection Conn) (key : ConnectionKey) (kind : HaltKind) :
    (c.getHaltEvent key kind).1.closedEventSent = true := by
  unfold getHaltEvent
  split
  · assumption
  · rfl

theorem stamp_getDgramOutSizeEvent (lib : Library Conn) (c : Connection Conn)
    (key : ConnectionKey) : (c.getDgramOutSizeEvent lib key).1.stamp = c.stamp := by
  unfold getDgramOutSizeEvent
  simp only
  split <;> rfl

theorem id_getDgramOutSizeEvent (lib : Library Conn) (c : Connection Conn) (key : ConnectionKey) :
    ∀ e ∈ (c.getDgramOutSizeEvent lib key).2, e.connectionId = c.id key := by
  intro e he
  unfold getDgramOutSizeEvent at he
  simp only at he
  split at he
  · cases he
  · cases he
    rfl

end Connection

/-! ## The ledger of a backend -/

namespace QuinnBackend

variable {Conn : Type} (lib : Library Conn)

/-- The ledger, after these connections were dropped: the part of the state that `send` works on does
not remember them. -/
def ledger (b : QuinnBackend Conn) (replaced : List QuinnConnectionId) : Ledger where
  sent id := (b.connections.get id).map (·.closedEventSent)
  versionSequence := b.connections.versionSequence
  events := b.events
  replaced := replaced

/-- Whatever happens to the backend, the ledger goes through steps. -/
def Follows (b b' : QuinnBackend Conn) : Prop :=
  ∀ replaced, Relation.ReflTransGen Ledger.Step (b.ledger replaced) (b'.ledger replaced)

theorem Follows.of_eq {b b' : QuinnBackend Conn} (h : ∀ replaced, b'.ledger replaced =
    b.ledger replaced) : Follows b b' := by
  intro replaced
  rw [h]

theorem Follows.trans {b b' b'' : QuinnBackend Conn} (h : Follows b b') (h' : Follows b' b'') :
    Follows b b'' :=
  fun replaced => (h replaced).trans (h' replaced)

variable {b b' : QuinnBackend Conn} {replaced : List QuinnConnectionId} {id : QuinnConnectionId} {key : ConnectionKey}
  {c c' : Connection Conn}

/-- The id of a connection that was found under it. -/
theorem id_of_get (hget : b.connections.get id = some c) :
    b.connections.all.get id.key = some c ∧ c.id id.key = id := by
  obtain ⟨hall, hversion⟩ := Option.filter_eq_some_iff.mp hget
  refine ⟨hall, ?_⟩
  unfold Connection.id
  rw [of_decide_eq_true hversion]

/-- One slot changes, and with it the connection of one version. -/
theorem sent_change (cs cs' : Connections Conn) (slot : Option (Connection Conn))
    (version : UInt32)
    (hall : ∀ k, cs'.all.get k = if k = key then slot else cs.all.get k)
    (hold : ∀ c ∈ cs.all.get key, c.version = version) (hnew : ∀ c ∈ slot, c.version = version) :
    (fun id => (cs'.get id).map (·.closedEventSent)) =
      Function.update (fun id => (cs.get id).map (·.closedEventSent)) ⟨key, version⟩
        (slot.map (·.closedEventSent)) := by
  funext id
  obtain ⟨k, v⟩ := id
  by_cases hid : k = key ∧ v = version
  · obtain ⟨rfl, rfl⟩ := hid
    rw [Function.update_self]
    unfold Connections.get
    rw [hall, if_pos rfl]
    cases slot with
    | none => rfl
    | some c => simp [hnew c rfl]
  · rw [Function.update_of_ne (by simpa using hid)]
    unfold Connections.get
    rw [hall]
    by_cases hk : k = key
    · -- neither the old nor the new connection has this version
      subst hk
      have hother (x : Option (Connection Conn)) (hx : ∀ c ∈ x, c.version = version) :
          x.filter (fun c => c.version = v) = none := by
        refine Option.filter_eq_none_iff.mpr fun c hc => ?_
        rw [hx c hc]
        simpa [eq_comm] using hid
      rw [if_pos rfl, hother slot hnew, hother _ hold]
    · rw [if_neg hk]

theorem ledger_put (hget : b.connections.all.get key = some c) (c' : Connection Conn)
    (hversion : c'.version = c.version) :
    (b.put key c').ledger replaced =
      (b.ledger replaced).put (c.id key) (some c'.closedEventSent) := by
  have hsent : (fun id => ((b.connections.put key c').get id).map (·.closedEventSent)) =
      Function.update (b.ledger replaced).sent (c.id key) ((some c').map (·.closedEventSent)) := by
    refine sent_change _ _ _ _ (Slots.get_set (Option.isSome_of_eq_some hget) c')
      (fun c₀ hc₀ => ?_) fun c₀ hc₀ => ?_
    · rw [hget] at hc₀
      cases hc₀
      rfl
    · cases hc₀
      exact hversion
  unfold ledger Ledger.put
  simp only [put, Ledger.mk.injEq]
  exact ⟨hsent, rfl, trivial, trivial⟩

theorem sent_of_get (hget : b.connections.all.get key = some c) :
    (b.ledger replaced).sent (c.id key) = some c.closedEventSent := by
  show (b.connections.get (c.id key)).map _ = _
  rw [Connections.get_id hget]
  rfl

/-- A change that the ledger does not see. -/
theorem ledger_put_eq (hget : b.connections.all.get key = some c) (c' : Connection Conn)
    (hstamp : c'.stamp = c.stamp) : (b.put key c').ledger replaced = b.ledger replaced := by
  obtain ⟨hversion, hflag⟩ := Prod.mk.inj hstamp
  have hsent : (b.ledger replaced).sent (c.id key) = _ := sent_of_get hget
  rw [ledger_put hget c' hversion, hflag]
  unfold Ledger.put
  rw [← hsent, Function.update_eq_self]

theorem Follows.put (hget : b.connections.all.get key = some c) (hstamp : c'.stamp = c.stamp) :
    Follows b (b.put key c') :=
  .of_eq fun _ => ledger_put_eq hget c' hstamp

/-- Events of a registered connection. -/
theorem Follows.push (hget : b.connections.all.get key = some c)
    {events : List (Event QuinnConnectionId)}
    (hevents : ∀ e ∈ events, e.terminates = none ∧ e.introduces = none ∧
      e.connectionId = c.id key) : Follows b (b.push events) := by
  refine fun replaced => .single (.push (b.ledger replaced) fun e he => ?_)
  obtain ⟨hterminates, hintroduces, hid⟩ := hevents e he
  refine ⟨hterminates, hintroduces, ?_⟩
  unfold Ledger.Live
  rw [hid, sent_of_get hget]
  rfl

theorem Follows.push_one (hget : b.connections.all.get key = some c) {e : Event QuinnConnectionId}
    (hterminates : e.terminates = none) (hintroduces : e.introduces = none)
    (hid : e.connectionId = c.id key) : Follows b (b.push [e]) := by
  refine .push hget fun e' he' => ?_
  obtain rfl := List.mem_singleton.mp he'
  exact ⟨hterminates, hintroduces, hid⟩

theorem get_put (hget : b.connections.all.get key = some c) (c' : Connection Conn) :
    (b.put key c').connections.all.get key = some c' :=
  (Slots.get_set (Option.isSome_of_eq_some hget) c' key).trans (if_pos rfl)

/-- The connection is written back and the event of its end is pushed. -/
theorem Follows.report (hget : b.connections.all.get key = some c)
    {event : Option (ConnectionEvent QuinnConnectionId)}
    (h : Connection.Reported (c.id key) c c' event) :
    Follows b ((b.put key c').push (event.toList.map .connection)) := by
  rcases h with ⟨hstamp, rfl⟩ | ⟨hunsent, hstamp, e, rfl, hterminates⟩
  · exact (Follows.put hget hstamp).trans (.push (get_put hget c') (by simp))
  · obtain ⟨hversion, hflag⟩ := Prod.mk.inj hstamp
    intro replaced
    have hsent : (b.ledger replaced).sent (c.id key) = _ := sent_of_get hget
    rw [hunsent] at hsent
    have hstep := Ledger.Step.report (b.ledger replaced) hsent hterminates
    rw [← hflag, ← ledger_put hget c' hversion] at hstep
    exact .single hstep

theorem getMarkActive_follows {cs : Connections Conn}
    (h : b.connections.getMarkActive id = some (cs, c)) :
    cs.all.get id.key = some c ∧ c.id id.key = id ∧ Follows b { b with connections := cs } := by
  obtain ⟨c, hget, heq⟩ := Option.map_eq_some_iff.mp h
  obtain ⟨rfl, rfl⟩ := Prod.mk.inj heq
  obtain ⟨hall, hid⟩ := id_of_get hget
  exact ⟨hall, hid, .of_eq fun _ => rfl⟩

theorem getMarkActiveRaw_follows {cs : Connections Conn}
    (h : b.connections.getMarkActiveRaw key = some (cs, c)) :
    cs.all.get key = some c ∧ Follows b { b with connections := cs } := by
  obtain ⟨c, hget, heq⟩ := Option.map_eq_some_iff.mp h
  obtain ⟨rfl, rfl⟩ := Prod.mk.inj heq
  exact ⟨hget, .of_eq fun _ => rfl⟩

theorem foldl_follows {α : Type} {f : QuinnBackend Conn → α → QuinnBackend Conn}
    (hf : ∀ b x, Follows b (f b x)) (xs : List α) (b : QuinnBackend Conn) :
    Follows b (xs.foldl f b) := by
  induction xs generalizing b with
  | nil => exact .of_eq fun _ => rfl
  | cons x xs ih => exact (hf b x).trans (ih (f b x))

/-! ### `forget_connection` -/

theorem ledger_remove {cs : Connections Conn} (hremove : b.connections.remove id = some (cs, c)) :
    b.connections.all.get id.key = some c ∧ c.id id.key = id ∧
      ∀ replaced, { b with connections := cs }.ledger replaced =
        (b.ledger replaced).put id none := by
  obtain ⟨c₀, hget, hraw⟩ := Option.bind_eq_some_iff.mp hremove
  obtain ⟨hall, hid⟩ := id_of_get hget
  unfold Connections.removeRaw at hraw
  rw [hall] at hraw
  obtain ⟨rfl, rfl⟩ := Prod.mk.inj (Option.some.inj hraw)
  refine ⟨hall, hid, fun replaced => ?_⟩
  have hsent := sent_change b.connections
    { b.connections with
      all := b.connections.all.remove id.key, active := b.connections.active.remove id.key }
    none c₀.version (Slots.get_remove _ id.key)
    (fun c hc => by rw [hall] at hc; cases hc; rfl) (fun c hc => by cases hc)
  have hid' : (⟨id.key, c₀.version⟩ : QuinnConnectionId) = id := hid
  rw [hid'] at hsent
  unfold ledger Ledger.put
  simp only [Ledger.mk.injEq]
  exact ⟨hsent, trivial, trivial, trivial⟩

theorem forgetConnection_follows (b : QuinnBackend Conn) (id : QuinnConnectionId) :
    Follows b (b.forgetConnection id) := by
  unfold forgetConnection
  split
  · exact .of_eq fun _ => rfl
  · next cs c hremove =>
    obtain ⟨hget, hid, hledger⟩ := ledger_remove hremove
    generalize HaltKind.error _ = kind
    have hreported := c.getHaltEvent_reported id.key kind
    have hsent := c.getHaltEvent_sent id.key kind
    generalize c.getHaltEvent id.key kind = halted at hreported hsent ⊢
    obtain ⟨c', event⟩ := halted
    have hversion : c'.version = c.version := by
      rcases hreported with ⟨hstamp, -⟩ | ⟨-, hstamp, -⟩
      · exact (Prod.mk.inj hstamp).1
      · exact (Prod.mk.inj hstamp).1
    refine (Follows.report hget hreported).trans fun replaced => ?_
    have hput : (b.put id.key c').ledger replaced = (b.ledger replaced).put id (some true) := by
      rw [ledger_put hget c' hversion, hid, show c'.closedEventSent = true from hsent]
    have hput' : ((b.put id.key c').push (event.toList.map .connection)).ledger replaced =
        ((b.ledger replaced).put id (some true)).push (event.toList.map .connection) :=
      congrArg (Ledger.push · _) hput
    have hforget := Ledger.Step.forget
      (((b.ledger replaced).put id (some true)).push (event.toList.map .connection))
      (Function.update_self id ..)
    have hremoved := hledger replaced
    refine .single ?_
    rw [hput']
    convert hforget using 1
    -- the flag that was written before is gone with the connection
    simp only [ledger, Ledger.put, Ledger.push, Ledger.mk.injEq] at hremoved ⊢
    refine ⟨?_, hremoved.2.1, rfl, trivial⟩
    rw [Function.update_idem]
    exact hremoved.1

/-! ### Timers -/

theorem ledger_scheduleQuinnTimeout (b : QuinnBackend Conn) (id : QuinnConnectionId) :
    (b.scheduleQuinnTimeout lib id).ledger replaced = b.ledger replaced := by
  unfold scheduleQuinnTimeout
  split
  · rfl
  · next c hget =>
    obtain ⟨hall, -⟩ := id_of_get hget
    split
    · exact ledger_put_eq hall { c with inner := _ } rfl
    · exact ledger_put_eq (b := { b with time := _ }) hall
        { c with inner := _, timerQuinnTimeoutKey := some _ } rfl

theorem handleScheduledEvent_follows (b : QuinnBackend Conn) (id : QuinnConnectionId) :
    Follows b (b.handleScheduledEvent lib id) := by
  unfold handleScheduledEvent
  split
  · exact .of_eq fun _ => rfl
  · next cs c hmark =>
    obtain ⟨hget, -, hactive⟩ := getMarkActive_follows hmark
    exact hactive.trans (.put hget rfl)

theorem handleScheduledEvents_follows (b : QuinnBackend Conn) :
    Follows b (b.handleScheduledEvents lib) := by
  have hpop : Follows b { b with time := b.time.popFiredEvents.1 } := .of_eq fun _ => rfl
  exact hpop.trans (foldl_follows (handleScheduledEvent_follows lib) _ _)

/-! ### `send` -/

theorem sendLoop_follows {fuel : Nat} {out out' : List Message}
    (h : sendLoop lib fuel b out = some (b', out')) : Follows b b' := by
  induction fuel generalizing b out with
  | zero =>
    obtain ⟨rfl, rfl⟩ := Prod.mk.inj (Option.some.inj h)
    exact .of_eq fun _ => rfl
  | succ fuel ih =>
    unfold sendLoop at h
    have hpeek : Follows b b.peekActive := .of_eq fun _ => rfl
    have hnext (b₁ : QuinnBackend Conn) : Follows b₁ b₁.nextActive := .of_eq fun _ => rfl
    refine hpeek.trans ?_
    simp only at h
    split at h
    · cases h
      exact .of_eq fun _ => rfl
    · next key _ =>
      split at h
      · cases h
        exact .of_eq fun _ => rfl
      · next c hget =>
        split at h
        · cases h
          exact .of_eq fun _ => rfl
        · split at h
          · exact ((forgetConnection_follows _ _).trans (hnext _)).trans (ih h)
          · split at h
            · cases h
            · next io c' out₁ complete hwrite =>
              obtain ⟨⟨pool, inner, written⟩, -, heq⟩ := Option.map_eq_some_iff.mp hwrite
              cases heq
              have hwritten : Follows b.peekActive
                  (({ b.peekActive with io := { b.peekActive.io with primaryBuffers := pool } }.put
                    key { c with inner }).log (.writePending key)) :=
                .of_eq fun _ => ledger_put_eq (b := { b.peekActive with io := _ }) hget
                  { c with inner } rfl
              split at h
              · exact ((hwritten.trans (hnext _)).trans
                  (.of_eq fun _ => ledger_scheduleQuinnTimeout lib _ _)).trans (ih h)
              · cases h
                exact hwritten

theorem send_follows {out out' : List Message} (h : b.send lib out = some (b', out')) :
    Follows b b' := by
  have hcalls (b₁ : QuinnBackend Conn) : Follows b₁ { b₁ with calls := [] } := .of_eq fun _ => rfl
  exact (handleScheduledEvents_follows lib b).trans ((hcalls _).trans (sendLoop_follows lib h))

/-! ### Events of quinn -/

theorem handleQuinnConnectionLostEvent_follows (b : QuinnBackend Conn) (id : QuinnConnectionId)
    (error : ConnectionError) : Follows b (b.handleQuinnConnectionLostEvent lib id error) := by
  unfold handleQuinnConnectionLostEvent
  split
  · exact .of_eq fun _ => rfl
  · next cs c hmark =>
    obtain ⟨hget, hid, hactive⟩ := getMarkActive_follows hmark
    have hreported := c.getLostEvent_reported id.key error
    refine hactive.trans ?_
    generalize c.getLostEvent id.key error = lost at hreported ⊢
    obtain ⟨c', event⟩ := lost
    have hreport := Follows.report (b := { b with connections := cs }) hget hreported
    simp only
    split
    · exact hreport.trans (forgetConnection_follows _ id)
    · exact hreport

theorem handleQuinnStreamEvent_follows (b : QuinnBackend Conn) (id : QuinnConnectionId)
    (event : QuinnStreamEvent) : Follows b (b.handleQuinnStreamEvent lib id event) := by
  unfold handleQuinnStreamEvent
  split
  · exact .of_eq fun _ => rfl
  · next cs c hmark =>
    obtain ⟨hget, hid, hactive⟩ := getMarkActive_follows hmark
    refine hactive.trans ?_
    generalize hb₁ : { b with connections := cs } = b₁
    replace hget : b₁.connections.all.get id.key = some c := hb₁ ▸ hget
    cases event with
    | opened dir =>
      simp only
      split
      · exact .put hget rfl
      · next inner streamId _ =>
        have hput : Follows b₁ (b₁.put id.key { c with inner }) := .put hget rfl
        exact hput.trans (.push_one (get_put hget _) rfl rfl hid.symm)
    | available dir => exact .push_one hget rfl rfl hid.symm
    | readable streamId => exact .push_one hget rfl rfl hid.symm
    | writable streamId => exact .push_one hget rfl rfl hid.symm
    | finished streamId => exact .push_one hget rfl rfl hid.symm
    | stopped streamId code => exact .push_one hget rfl rfl hid.symm

theorem handleQuinnEvent_follows (hget : b.connections.all.get id.key = some c)
    (hid : c.id id.key = id) (event : QuinnEvent) :
    Follows b (b.handleQuinnEvent lib id event) := by
  cases event with
  | handshakeDataReady => exact .of_eq fun _ => rfl
  | connected => exact .push_one hget rfl rfl hid.symm
  | connectionLost reason => exact handleQuinnConnectionLostEvent_follows lib b id reason
  | stream event => exact handleQuinnStreamEvent_follows lib b id event
  | datagramReceived => exact .push_one hget rfl rfl hid.symm
  | datagramsUnblocked => exact .push_one hget rfl rfl hid.symm

theorem pollLoop_follows {fuel : Nat} {live : Bool}
    (h : pollLoop lib id fuel b = some (b', live)) : Follows b b' := by
  induction fuel generalizing b with
  | zero => cases h
  | succ fuel ih =>
    unfold pollLoop at h
    split at h
    · cases h
      exact .of_eq fun _ => rfl
    · next c hget =>
      obtain ⟨hall, hid⟩ := id_of_get hget
      split at h
      · cases h
        exact .put hall rfl
      · next inner event _ =>
        have hput : Follows b (b.put id.key { c with inner }) := .put hall rfl
        have hevent := handleQuinnEvent_follows lib (get_put hall { c with inner }) hid event
        exact (hput.trans hevent).trans (ih h)

/-- What `get_dgram_out_size_event` adds to the events. -/
theorem dgramOutSize_follows (hget : b.connections.all.get key = some c) (c₁ : Connection Conn)
    (hstamp : c₁.stamp = c.stamp) :
    Follows b ((b.put key (c₁.getDgramOutSizeEvent lib key).1).push
      ((c₁.getDgramOutSizeEvent lib key).2.toList.map .datagram)) := by
  have hsize := Connection.stamp_getDgramOutSizeEvent lib c₁ key
  have hid := Connection.id_getDgramOutSizeEvent lib c₁ key
  generalize c₁.getDgramOutSizeEvent lib key = size at hsize hid ⊢
  obtain ⟨c₂, event⟩ := size
  refine (Follows.put hget (hsize.trans hstamp)).trans (.push (get_put hget c₂) fun e he => ?_)
  obtain ⟨e, hevent, rfl⟩ := List.mem_map.mp he
  refine ⟨rfl, rfl, (hid e (Option.mem_toList.mp hevent)).trans ?_⟩
  -- the id depends on the version alone
  unfold Connection.id
  rw [(Prod.mk.inj hsize).1]

theorem settle_follows (b : QuinnBackend Conn) (id : QuinnConnectionId) :
    Follows b (b.settle lib id) := by
  unfold settle
  split
  · exact .of_eq fun _ => rfl
  · next c hget =>
    obtain ⟨hall, -⟩ := id_of_get hget
    split
    · exact forgetConnection_follows b id
    · exact (dgramOutSize_follows lib hall c rfl).trans
        (.of_eq fun _ => ledger_scheduleQuinnTimeout lib _ id)

theorem drainEvents_follows {fuel : Nat} (h : b.drainEvents lib id fuel = some b') :
    Follows b b' := by
  obtain ⟨⟨b₁, live⟩, hpoll, rfl⟩ := Option.map_eq_some_iff.mp h
  have hpolled := pollLoop_follows lib hpoll
  cases live with
  | true => exact hpolled.trans (settle_follows lib b₁ id)
  | false => exact hpolled

theorem getOpen_follows (h : b.getOpen lib id = some (b', c)) :
    b'.connections.all.get id.key = some c ∧ c.id id.key = id ∧ Follows b b' := by
  obtain ⟨⟨cs, c⟩, hmark, heq⟩ := Option.map_eq_some_iff.mp h
  obtain ⟨rfl, rfl⟩ := Prod.mk.inj heq
  obtain ⟨c, hfilter, heq⟩ := Option.map_eq_some_iff.mp hmark
  obtain ⟨rfl, rfl⟩ := Prod.mk.inj heq
  obtain ⟨hget, -⟩ := Option.filter_eq_some_iff.mp hfilter
  obtain ⟨hall, hid⟩ := id_of_get hget
  exact ⟨hall, hid, .of_eq fun _ => rfl⟩

end QuinnBackend

end Aquic.Backend.Quinn

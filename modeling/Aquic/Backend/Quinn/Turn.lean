import Aquic.Backend.Quinn.Exchange
import Aquic.Backend.Quinn.Ledger
import Aquic.Backend.Quinn.Send

/-!
# The turn of a connection

`handle_quinn_connection_event` is the one function that asks a connection of quinn for its events. It
does so in two loops: events for the endpoint are handed over to it, and events for the application
become events of the backend, for its owner. Such a call is the *turn* of the connection.

What is said here about a turn does not mention the loops. All events for the endpoint are put together
in the order in which they came, and so are those for the application; the endpoint is the one that has
handled the first, and the translations of the others are what the owner finds.
-/

namespace Aquic.Backend.Quinn

open Aquic.Collections Aquic.Net Aquic.Run

variable {Conn End Cfg Incoming Signal Report : Type}

/-! ## Events for the endpoint -/

namespace EndpointLibrary

variable (lib : EndpointLibrary Conn End Cfg Incoming Signal Report)

/-- A connection handles these events, and is asked for events for the endpoint after each of them: all
that it had. -/
def deliverAll (c : Conn) (signals : List Signal) : Conn × List Report :=
  signals.foldl (fun (c, reports) signal =>
    let (c, polled) := lib.pollEndpointEvents (lib.deliver c signal)
    (c, reports ++ polled)) (c, [])

/-- The endpoint handles these events of a connection. -/
def handleAll (key : ConnectionKey) (endpoint : End) (reports : List Report) : End :=
  reports.foldl (fun endpoint report => (lib.handleEvent endpoint key report).1) endpoint

variable {lib}

theorem deliverAll_concat (c : Conn) (signals : List Signal) (signal : Signal) :
    lib.deliverAll c (signals ++ [signal]) =
      ((lib.pollEndpointEvents (lib.deliver (lib.deliverAll c signals).1 signal)).1,
        (lib.deliverAll c signals).2 ++
          (lib.pollEndpointEvents (lib.deliver (lib.deliverAll c signals).1 signal)).2) := by
  unfold deliverAll
  rw [List.foldl_append]
  rfl

theorem handleAll_append (key : ConnectionKey) (endpoint : End) (reports reports' : List Report) :
    lib.handleAll key endpoint (reports ++ reports') =
      lib.handleAll key (lib.handleAll key endpoint reports) reports' :=
  List.foldl_append

end EndpointLibrary

namespace Exchange

variable {env : Env Conn End Cfg Incoming Signal Report} {key : ConnectionKey} {event : Signal}
  {b : EndpointBackend Conn End Cfg} {c : Connection Conn} {x x' : Exchange Conn End Signal}

/-- Whatever the connection had for the endpoint was handed over. -/
structure HandsOver (env : Env Conn End Cfg Incoming Signal Report) (key : ConnectionKey)
    (endpoint : End) (c : Conn) (x : Exchange Conn End Signal) : Prop where
  connection : x.connection = (env.endpoint.deliverAll c x.delivered).1
  endpoint : x.endpoint =
    env.endpoint.handleAll key endpoint (env.endpoint.deliverAll c x.delivered).2

/-- The answers do not matter to the endpoint. -/
theorem foldl_answer_endpoint (reports : List Report) (endpoint : End) (next : Option Signal)
    (answers : List Signal) :
    (reports.foldl (answer env key) (endpoint, next, answers)).1 =
      env.endpoint.handleAll key endpoint reports := by
  induction reports generalizing endpoint next answers with
  | nil => rfl
  | cons report reports ih =>
    rw [List.foldl_cons, answer]
    exact ih _ _ _

theorem HandsOver.exec {endpoint : End} {c : Conn} (h : HandsOver env key endpoint c x)
    (hexec : x.exec env key () = some x') : HandsOver env key endpoint c x' := by
  unfold Exchange.exec at hexec
  split at hexec
  · cases hexec
  · next signal _ =>
    cases hexec
    refine ⟨?_, ?_⟩
    · rw [EndpointLibrary.deliverAll_concat, ← h.connection]
    · rw [foldl_answer_endpoint, EndpointLibrary.deliverAll_concat, ← h.connection,
        EndpointLibrary.handleAll_append, ← h.endpoint]

theorem handsOver (hget : b.connections.all.get key = some c)
    (h : Reachable (Init b key event) anyStep (Exchange.exec env key) x) :
    HandsOver env key b.endpoint c.inner x := by
  induction h with
  | init hinit =>
    obtain ⟨c', hget', rfl⟩ := hinit
    obtain rfl := Option.some.inj (hget.symm.trans hget')
    exact ⟨rfl, rfl⟩
  | step _ _ hexec ih => exact ih.exec hexec

end Exchange

/-! ## Events for the application -/

namespace Connection

variable (lib : Library Conn) (c : Connection Conn) (key : ConnectionKey)

/-- What an event is for the owner of the backend. -/
def translate : QuinnEvent → List (Event QuinnConnectionId)
  | .handshakeDataReady => []
  | .connected => [.connection (.established (c.id key))]
  | .connectionLost reason => (c.getLostEvent key reason).2.toList.map .connection
  | .stream (.opened dir) =>
    (lib.acceptStream c.inner dir).2.toList.map fun streamId => .stream (.available (c.id key) streamId)
  | .stream (.available dir) => [.connection (.streamsAvailable (c.id key) (dir == .bi))]
  | .stream (.readable streamId) => [.stream (.available (c.id key) streamId)]
  | .stream (.writable streamId) => [.stream (.available (c.id key) streamId)]
  | .stream (.finished streamId) => [.stream (.available (c.id key) streamId)]
  | .stream (.stopped streamId code) => [.stream (.reset (c.id key) streamId code)]
  | .datagramReceived => [.datagram (.inAvailable (c.id key))]
  | .datagramsUnblocked => [.datagram (.outAvailable (c.id key))]

/-- What an event makes of the connection. -/
def handled : QuinnEvent → Connection Conn
  | .connectionLost reason => (c.getLostEvent key reason).1
  | .stream (.opened dir) => { c with inner := (lib.acceptStream c.inner dir).1 }
  | _ => c

/-- The connection is forgotten right after the event. -/
def endsWith : QuinnEvent → Bool
  | .connectionLost _ => lib.isDrained c.inner
  | _ => false

variable {c} {key}

theorem inner_getCloseEvent (c : Connection Conn) (key : ConnectionKey) (code : Nat)
    (reason : List UInt8) (isApplication isLocal : Bool) :
    (c.getCloseEvent key code reason isApplication isLocal).1.inner = c.inner := by
  unfold Connection.getCloseEvent
  split <;> rfl

theorem inner_getHaltEvent (c : Connection Conn) (key : ConnectionKey) (kind : HaltKind) :
    (c.getHaltEvent key kind).1.inner = c.inner := by
  unfold Connection.getHaltEvent
  split <;> rfl

theorem inner_getLostEvent (c : Connection Conn) (key : ConnectionKey) (error : ConnectionError) :
    (c.getLostEvent key error).1.inner = c.inner := by
  cases error with
  | versionMismatch | timedOut | reset | cidsExhausted => apply inner_getHaltEvent
  | transportError | connectionClosed | applicationClosed => apply inner_getCloseEvent
  | locallyClosed => rfl

theorem version_getLostEvent (c : Connection Conn) (key : ConnectionKey) (error : ConnectionError) :
    (c.getLostEvent key error).1.version = c.version := by
  rcases c.getLostEvent_reported key error with ⟨hstamp, -⟩ | ⟨-, hstamp, -⟩
  · exact (Prod.mk.inj hstamp).1
  · exact (Prod.mk.inj hstamp).1

theorem inner_getDgramOutSizeEvent (c : Connection Conn) (key : ConnectionKey) :
    (c.getDgramOutSizeEvent lib key).1.inner = c.inner := by
  unfold Connection.getDgramOutSizeEvent
  simp only
  split <;> rfl

end Connection

/-- Polls a connection until it has no more events, or is forgotten: the connection then, and each event
with the connection that it came from. -/
def pollAll (lib : Library Conn) (key : ConnectionKey) :
    Nat → Connection Conn → Option (Connection Conn × List (Connection Conn × QuinnEvent))
  | 0, _ => none
  | fuel + 1, c =>
    match lib.poll c.inner with
    | (inner, none) => some ({ c with inner }, [])
    | (inner, some event) =>
      let c := { c with inner }
      if c.endsWith lib event then
        some (c.handled lib key event, [(c, event)])
      else
        (pollAll lib key fuel (c.handled lib key event)).map fun (left, polled) =>
          (left, (c, event) :: polled)

namespace QuinnBackend

variable (lib : Library Conn)

/-- The connection of quinn under a key. -/
def registered (b : QuinnBackend Conn) (key : ConnectionKey) : Option Conn :=
  (b.connections.all.get key).map (·.inner)

variable {b b' : QuinnBackend Conn} {id : QuinnConnectionId} {c c' : Connection Conn}

theorem registered_of_get (hget : b.connections.get id = some c) : b.registered id.key = some c.inner :=
  congrArg (Option.map Connection.inner) (id_of_get hget).1

theorem get_put_id (hget : b.connections.get id = some c) (hversion : c'.version = c.version) :
    (b.put id.key c').connections.get id = some c' := by
  obtain ⟨hall, hid⟩ := Option.filter_eq_some_iff.mp hget
  refine Option.filter_eq_some_iff.mpr ⟨get_put hall c', ?_⟩
  rw [hversion]
  exact hid

theorem registered_put (hget : b.connections.get id = some c) (hversion : c'.version = c.version) :
    (b.put id.key c').registered id.key = some c'.inner :=
  registered_of_get (get_put_id hget hversion)

theorem get_forgetConnection (hget : b.connections.get id = some c) :
    (b.forgetConnection id).connections.all.get id.key = none := by
  obtain ⟨hall, hid⟩ := id_of_get hget
  have hforgets := forgetConnection_forgets hall
  rw [hid] at hforgets
  rw [hforgets.get, if_pos rfl]

theorem events_forgetConnection (b : QuinnBackend Conn) (id : QuinnConnectionId) :
    b.events <+: (b.forgetConnection id).events := by
  unfold forgetConnection
  split
  · exact List.prefix_refl _
  · exact List.prefix_append ..

/-! ### One event -/

/-- **The event is translated**, and the connection is written back, or forgotten. -/
structure Translates (b : QuinnBackend Conn) (id : QuinnConnectionId) (c : Connection Conn)
    (event : QuinnEvent) (b' : QuinnBackend Conn) : Prop where
  get : c.endsWith lib event = false → b'.connections.get id = some (c.handled lib id.key event)
  gone : c.endsWith lib event = true → b'.connections.all.get id.key = none
  events : b.events ++ c.translate lib id.key event <+: b'.events
  /-- Nothing else is pushed as long as the connection is there. -/
  events_eq : c.endsWith lib event = false → b'.events = b.events ++ c.translate lib id.key event

variable {lib}

theorem Translates.of_eq {event : QuinnEvent} (hends : c.endsWith lib event = false)
    (hget : b'.connections.get id = some (c.handled lib id.key event))
    (hevents : b'.events = b.events ++ c.translate lib id.key event) : Translates lib b id c event b' where
  get _ := hget
  gone hends' := absurd (hends'.symm.trans hends) Bool.true_eq_false.mp
  events := hevents ▸ List.prefix_refl _
  events_eq _ := hevents

variable (lib)

theorem handleQuinnConnectionLostEvent_translates (hget : b.connections.get id = some c)
    (error : ConnectionError) :
    Translates lib b id c (.connectionLost error) (b.handleQuinnConnectionLostEvent lib id error) := by
  have hinner := Connection.inner_getLostEvent c id.key error
  have hversion := Connection.version_getLostEvent c id.key error
  unfold handleQuinnConnectionLostEvent Connections.getMarkActive
  rw [hget]
  simp only [Option.map_some, hinner]
  split
  · next hdrained =>
    have hopen (hends : c.endsWith lib (.connectionLost error) = false) : False :=
      Bool.false_ne_true (hends.symm.trans hdrained)
    refine ⟨fun hends => (hopen hends).elim, fun _ => ?_, ?_, fun hends => (hopen hends).elim⟩
    · apply get_forgetConnection
      exact get_put_id hget hversion
    · refine List.IsPrefix.trans ?_ (events_forgetConnection _ id)
      exact List.prefix_refl _
  · next hdrained => exact .of_eq (Bool.eq_false_iff.mpr hdrained) (get_put_id hget hversion) rfl

theorem handleQuinnStreamEvent_translates (hget : b.connections.get id = some c)
    (event : QuinnStreamEvent) :
    Translates lib b id c (.stream event) (b.handleQuinnStreamEvent lib id event) := by
  obtain ⟨-, hid⟩ := id_of_get hget
  unfold handleQuinnStreamEvent Connections.getMarkActive
  rw [hget]
  cases event with
  | opened dir =>
    simp only [Option.map_some]
    split
    · next inner heq =>
      refine .of_eq rfl ?_ ?_
      · rw [Connection.handled, heq]
        exact get_put_id hget rfl
      · rw [Connection.translate, heq, Option.toList_none, List.map_nil, List.append_nil]
        rfl
    · next inner streamId heq =>
      refine .of_eq rfl ?_ ?_
      · rw [Connection.handled, heq]
        exact get_put_id hget rfl
      · rw [Connection.translate, heq, hid]
        rfl
  | available dir =>
    refine .of_eq rfl hget ?_
    rw [Connection.translate, hid]
    rfl
  | readable streamId | writable streamId | finished streamId =>
    refine .of_eq rfl hget ?_
    rw [Connection.translate, hid]
    rfl
  | stopped streamId code =>
    refine .of_eq rfl hget ?_
    rw [Connection.translate, hid]
    rfl

theorem handleQuinnEvent_translates (hget : b.connections.get id = some c) (event : QuinnEvent) :
    Translates lib b id c event (b.handleQuinnEvent lib id event) := by
  obtain ⟨-, hid⟩ := id_of_get hget
  cases event with
  | connectionLost reason => exact handleQuinnConnectionLostEvent_translates lib hget reason
  | stream event => exact handleQuinnStreamEvent_translates lib hget event
  | handshakeDataReady =>
    refine .of_eq rfl hget ?_
    rw [Connection.translate, List.append_nil]
    rfl
  | connected | datagramReceived | datagramsUnblocked =>
    refine .of_eq rfl hget ?_
    rw [Connection.translate, hid]
    rfl

/-! ### All events -/

/-- What the owner of the backend is told of these events. -/
def translations (key : ConnectionKey) (polled : List (Connection Conn × QuinnEvent)) :
    List (Event QuinnConnectionId) :=
  polled.flatMap fun (c, event) => c.translate lib key event

/-- **The polling loop** polls all events and translates them; `false` says that the connection is
forgotten. -/
theorem pollLoop_pollAll {fuel : Nat} {live : Bool} (hget : b.connections.get id = some c)
    (h : b.pollLoop lib id fuel = some (b', live)) :
    ∃ left polled, pollAll lib id.key fuel c = some (left, polled) ∧
      b.events ++ translations lib id.key polled <+: b'.events ∧
      (live = true → b'.connections.get id = some left) ∧
      (live = false → b'.connections.all.get id.key = none ∧ lib.isDrained left.inner) := by
  induction fuel generalizing b c with
  | zero => cases h
  | succ fuel ih =>
    unfold pollLoop at h
    unfold pollAll
    rw [hget] at h
    simp only at h
    generalize lib.poll c.inner = answer at h ⊢
    obtain ⟨inner, event⟩ := answer
    cases event with
    | none =>
      cases h
      refine ⟨_, [], rfl, ?_, fun _ => get_put_id hget rfl,
        fun hlive => absurd hlive Bool.true_eq_false.mp⟩
      rw [translations, List.flatMap_nil, List.append_nil]
      exact List.prefix_refl _
    | some event =>
      simp only at h ⊢
      have hput : (b.put id.key { c with inner }).connections.get id = some { c with inner } :=
        get_put_id hget rfl
      have htranslates := handleQuinnEvent_translates lib hput event
      generalize (b.put id.key { c with inner }).handleQuinnEvent lib id event = b₁ at h htranslates
      generalize { c with inner } = c₁ at htranslates ⊢
      by_cases hends : c₁.endsWith lib event
      · -- the connection is gone, and the loop ends
        have hgone := htranslates.gone hends
        have hnone : b₁.connections.get id = none := by
          unfold Connections.get
          rw [hgone]
          rfl
        rw [if_pos hends]
        cases fuel with
        | zero => cases h
        | succ fuel =>
          simp only [pollLoop, hnone] at h
          cases h
          refine ⟨_, _, rfl, ?_, fun hlive => absurd hlive Bool.false_ne_true, fun _ => ⟨hgone, ?_⟩⟩
          · rw [translations, List.flatMap_singleton]
            exact htranslates.events
          · cases event with
            | connectionLost reason =>
              rw [Connection.handled, Connection.inner_getLostEvent]
              exact hends
            | _ => exact absurd hends Bool.false_ne_true
      · rw [if_neg hends]
        rw [Bool.not_eq_true] at hends
        obtain ⟨left, polled, hpolled, hevents, hleft, hgone⟩ := ih (htranslates.get hends) h
        refine ⟨left, (c₁, event) :: polled, ?_, ?_, hleft, hgone⟩
        · rw [hpolled, Option.map_some]
        · rw [htranslates.events_eq hends, List.append_assoc] at hevents
          exact hevents

theorem registered_scheduleQuinnTimeout (hget : b.connections.get id = some c) :
    (b.scheduleQuinnTimeout lib id).registered id.key = some (lib.pollTimeout c.inner).1 := by
  unfold scheduleQuinnTimeout
  rw [hget]
  simp only
  split
  · next heq =>
    rw [heq]
    exact registered_put hget rfl
  · next heq =>
    rw [heq]
    exact registered_put (b := { b with time := _ }) hget rfl

theorem events_scheduleQuinnTimeout (b : QuinnBackend Conn) (id : QuinnConnectionId) :
    (b.scheduleQuinnTimeout lib id).events = b.events := by
  unfold scheduleQuinnTimeout
  split
  · rfl
  · split <;> rfl

/-- A connection that is left is forgotten if it is drained. -/
theorem registered_settle (hget : b.connections.get id = some c) :
    (b.settle lib id).registered id.key =
      if lib.isDrained c.inner then none else some (lib.pollTimeout c.inner).1 := by
  unfold settle
  rw [hget]
  simp only
  split
  · exact congrArg (Option.map Connection.inner) (get_forgetConnection hget)
  · have hversion := (Prod.mk.inj (c.stamp_getDgramOutSizeEvent lib id.key)).1
    have hput : ((b.put id.key (c.getDgramOutSizeEvent lib id.key).1).push
        ((c.getDgramOutSizeEvent lib id.key).2.toList.map .datagram)).connections.get id = _ :=
      get_put_id hget hversion
    have hschedule := registered_scheduleQuinnTimeout lib hput
    rw [Connection.inner_getDgramOutSizeEvent] at hschedule
    exact hschedule

theorem events_settle (b : QuinnBackend Conn) (id : QuinnConnectionId) :
    b.events <+: (b.settle lib id).events := by
  unfold settle
  split
  · exact List.prefix_refl _
  · split
    · exact events_forgetConnection b id
    · simp only
      rw [events_scheduleQuinnTimeout]
      exact List.prefix_append ..

/-- **All events are polled and translated**, and then the connection is forgotten if it is drained. -/
theorem drainEvents_pollAll {fuel : Nat} (hget : b.connections.get id = some c)
    (h : b.drainEvents lib id fuel = some b') :
    ∃ left polled, pollAll lib id.key fuel c = some (left, polled) ∧
      b.events ++ translations lib id.key polled <+: b'.events ∧
      b'.registered id.key =
        if lib.isDrained left.inner then none else some (lib.pollTimeout left.inner).1 := by
  obtain ⟨⟨b₁, live⟩, hloop, rfl⟩ := Option.map_eq_some_iff.mp h
  obtain ⟨left, polled, hpolled, hevents, hleft, hgone⟩ := pollLoop_pollAll lib hget hloop
  refine ⟨left, polled, hpolled, ?_⟩
  cases live with
  | false =>
    obtain ⟨hnone, hdrained⟩ := hgone rfl
    rw [if_pos hdrained]
    exact ⟨hevents, congrArg (Option.map Connection.inner) hnone⟩
  | true => exact ⟨hevents.trans (events_settle lib b₁ id), registered_settle lib (hleft rfl)⟩

end QuinnBackend

/-! ## The turn -/

structure Turn (Conn End Cfg Signal : Type) where
  key : ConnectionKey
  /-- The connection, as it was when its turn came. -/
  connection : Connection Conn
  before : EndpointBackend Conn End Cfg
  after : EndpointBackend Conn End Cfg
  /-- The exchange between the connection and the endpoint, at its end. -/
  exchange : Exchange Conn End Signal
  /-- The events for the application, each with the connection that it came from. -/
  polled : List (Connection Conn × QuinnEvent)
  /-- The connection after that. -/
  left : Connection Conn

namespace Turn

variable (env : Env Conn End Cfg Incoming Signal Report)

/-- The turn that an event for a connection starts. -/
def of (before : EndpointBackend Conn End Cfg) (key : ConnectionKey) (event : Signal) (fuel : Nat) :
    Option (Turn Conn End Cfg Signal) := do
  let connection ← before.connections.all.get key
  let exchange ← (Exchange.start before.endpoint connection.inner event).finish env key fuel
  let (left, polled) ← pollAll env.quinn key fuel { connection with inner := exchange.connection }
  let after ← before.handleQuinnConnectionEvent env key event fuel
  some { key, connection, before, after, exchange, polled, left }

/-- The events for the endpoint. -/
def reports (t : Turn Conn End Cfg Signal) : List Report :=
  (env.endpoint.deliverAll t.connection.inner t.exchange.delivered).2

/-- What the owner of the backend is told. -/
def translations (t : Turn Conn End Cfg Signal) : List (Event QuinnConnectionId) :=
  QuinnBackend.translations env.quinn t.key t.polled

/-- The connection that is forgotten at the end of the turn, as it is then. -/
def forgotten (t : Turn Conn End Cfg Signal) : Option Conn :=
  if env.quinn.isDrained t.left.inner then some t.left.inner else none

/-- **The connection has its turn**: it is asked for its events, and every one of them is passed on. -/
structure PassesOn (t : Turn Conn End Cfg Signal) : Prop where
  registered : t.before.connections.all.get t.key = some t.connection
  delivered : t.exchange.delivered ≠ []
  exchanged : t.exchange.connection =
    (env.endpoint.deliverAll t.connection.inner t.exchange.delivered).1
  polled : ∃ fuel, pollAll env.quinn t.key fuel
    { t.connection with inner := t.exchange.connection } = some (t.left, t.polled)
  /-- The endpoint has handled the events for it. -/
  handed : t.after.endpoint =
    env.endpoint.handleAll t.key t.before.endpoint (t.reports env)
  /-- The others are translated. -/
  translated : t.before.events ++ t.translations env <+: t.after.events
  left : t.after.registered t.key =
    if env.quinn.isDrained t.left.inner then none else some (env.quinn.pollTimeout t.left.inner).1

variable {env} {b b' : EndpointBackend Conn End Cfg} {key : ConnectionKey} {event : Signal}
  {fuel : Nat} {t : Turn Conn End Cfg Signal}

/-- A call for a registered connection is a turn. -/
theorem exists_of {c : Connection Conn} (hget : b.connections.all.get key = some c)
    (h : b.handleQuinnConnectionEvent env key event fuel = some b') :
    ∃ t, of env b key event fuel = some t ∧ t.after = b' ∧ t.PassesOn env := by
  obtain ⟨x, backend, hfinish, hdone, hrun, hdrain, rfl⟩ :=
    Exchange.handleQuinnConnectionEvent_run hget h
  have hdelivered := Exchange.accounted hrun
  rw [Exchange.Accounted, hdone, Option.toList_none, List.append_nil] at hdelivered
  have hhands := Exchange.handsOver hget hrun
  let active := b.connections.active.replace key
  let b₁ : QuinnBackend Conn :=
    { b.toQuinnBackend with connections := { b.connections with active } }
  have hactive : b₁.connections.get (c.id key) = some c := Connections.get_id hget
  have hput : (b₁.put key { c with inner := x.connection }).connections.get (c.id key) = _ :=
    QuinnBackend.get_put_id hactive rfl
  obtain ⟨left, polled, hpolled, hevents, hleft⟩ := QuinnBackend.drainEvents_pollAll env.quinn hput hdrain
  refine ⟨⟨key, c, b, _, x, polled, left⟩, ?_, rfl, ?_⟩
  · unfold of
    rw [hget, Option.bind_eq_bind, Option.bind_some, hfinish, Option.bind_eq_bind, Option.bind_some]
    replace hpolled : pollAll env.quinn key fuel { c with inner := x.connection } = _ := hpolled
    rw [hpolled, Option.bind_eq_bind, Option.bind_some]
    simp only
    rw [h]
    rfl
  · refine ⟨hget, ?_, hhands.connection, ⟨fuel, hpolled⟩, hhands.endpoint, hevents, hleft⟩
    rw [hdelivered]
    exact List.cons_ne_nil _ _

theorem of_eq_some (h : of env b key event fuel = some t) :
    t.before = b ∧ t.key = key ∧ b.handleQuinnConnectionEvent env key event fuel = some t.after ∧
      t.PassesOn env := by
  have hof := h
  simp only [of, Option.bind_eq_bind, Option.bind_eq_some_iff] at h
  obtain ⟨c, hget, x, -, ⟨left, polled⟩, -, after, hafter, heq⟩ := h
  obtain ⟨t', ht', -, hpasses⟩ := exists_of hget hafter
  obtain rfl := Option.some.inj (hof.symm.trans ht')
  cases heq
  exact ⟨rfl, rfl, hafter, hpasses⟩

end Turn

end Aquic.Backend.Quinn

import Aquic.Backend.Quiche.Application
import Aquic.Backend.Termination

/-!
# The ledger of the quiche backend

Two properties of a backend depend on little of its state: that each connection has at most one
pending timer of each kind, and that it gets exactly one terminal event. A `Ledger` is that part of the
state: the wheel timer, the timer keys and the terminal flag of each live connection, and the events.

Whatever an operation does to the backend, it does to the ledger by a few kinds of steps
(`Ledger.Step`). This is proved here for every function of the backend, once, so that an invariant
needs one case for each kind of step. The wheel itself only moves in `tick`, which is kept apart.
-/

namespace Aquic.Backend.Quiche

open Aquic.Cid Aquic.Collections Aquic.Net Aquic.Stream Aquic.Timer Aquic.Tokens

/-- What the ledger keeps of a connection. -/
structure Entry where
  timers : TimerKind → Option TimerKey
  closedEventSent : Bool

structure Ledger where
  timer : WheelTimer (Option TimerEvent)
  /-- The live connections. -/
  entries : ConnectionKey → Option Entry
  /-- The key of the next connection. -/
  nextKey : ConnectionKey
  events : List (Event ConnectionKey)

namespace Ledger

/-- Writes the entry of a connection. -/
def put (g : Ledger) (key : ConnectionKey) (entry : Option Entry) : Ledger :=
  { g with entries := Function.update g.entries key entry }

/-- Cancels a timer of a connection, if a key of it is known. -/
def cancel (g : Ledger) (timerKey : Option TimerKey) : Ledger :=
  { g with timer := timerKey.elim g.timer g.timer.cancel }

def push (g : Ledger) (events : List (Event ConnectionKey)) : Ledger :=
  { g with events := g.events ++ events }

def Live (g : Ledger) (key : ConnectionKey) : Prop := (g.entries key).isSome

/-- An event about a live connection, of a kind that nothing depends on. -/
def Routine (g : Ledger) (e : Event ConnectionKey) : Prop :=
  e.Ordinary g.Live ∧ e.establishes = none

inductive Step : Ledger → Ledger → Prop
  /-- Events other than `New`, `Established`, `Closed` and `Halted`. -/
  | push (g : Ledger) {events : List (Event ConnectionKey)} (hroutine : ∀ e ∈ events, g.Routine e) :
      Step g (g.push events)
  /-- A new connection has no timers. -/
  | register (g : Ledger) (hfree : g.entries g.nextKey = none) (isServer : Bool) :
      Step g
        ({ g with nextKey := g.nextKey + 1 }.put g.nextKey (some ⟨fun _ => none, false⟩)
          |>.push [.connection (.new g.nextKey isServer)])
  /-- The terminal event of a connection. -/
  | report (g : Ledger) {key : ConnectionKey} {entry : Entry} (hget : g.entries key = some entry)
      (hunsent : entry.closedEventSent = false) {e : Event ConnectionKey}
      (hterminates : e.terminates = some key) :
      Step g ((g.put key (some { entry with closedEventSent := true })).push [e])
  /-- A timer takes the place of the previous one. -/
  | schedule (g : Ledger) {key : ConnectionKey} {entry : Entry} (hget : g.entries key = some entry)
      (kind : TimerKind) {due now : Instant} {timer : WheelTimer (Option TimerEvent)}
      {timerKey : TimerKey}
      (hschedule : (g.cancel (entry.timers kind)).timer.schedule (some ⟨key, kind⟩) due now =
        some (timer, timerKey)) :
      Step g ({ g with timer }.put key
        (some { entry with timers := Function.update entry.timers kind (some timerKey) }))
  | unschedule (g : Ledger) {key : ConnectionKey} {entry : Entry}
      (hget : g.entries key = some entry) (kind : TimerKind) :
      Step g ((g.cancel (entry.timers kind)).put key
        (some { entry with timers := Function.update entry.timers kind none }))
  /-- A connection is forgotten after its terminal event, and without timers. -/
  | forget (g : Ledger) {key : ConnectionKey} {entry : Entry} (hget : g.entries key = some entry)
      (hsent : entry.closedEventSent = true) (htimers : ∀ kind, entry.timers kind = none) :
      Step g (g.put key none)

theorem put_put (g : Ledger) (key : ConnectionKey) (entry entry' : Option Entry) :
    (g.put key entry).put key entry' = g.put key entry' := by
  simp [put]

theorem put_self {g : Ledger} {key : ConnectionKey} {entry : Option Entry}
    (h : g.entries key = entry) : g.put key entry = g := by
  simp [put, ← h]

@[simp]
theorem entries_put_self (g : Ledger) (key : ConnectionKey) (entry : Option Entry) :
    (g.put key entry).entries key = entry := by
  simp [put]

theorem unschedule_put (g : Ledger) (key : ConnectionKey) (entry : Entry) (kind : TimerKind) :
    Step (g.put key (some entry)) ((g.cancel (entry.timers kind)).put key
      (some { entry with timers := Function.update entry.timers kind none })) := by
  have hstep := Step.unschedule (g.put key (some entry)) (g.entries_put_self key _) kind
  rw [← put_put (g.cancel (entry.timers kind)) key (some entry)]
  exact hstep

/-- The timers of a connection are cancelled one after the other, and then it is forgotten. -/
theorem forget_steps (g : Ledger) {key : ConnectionKey} {entry : Entry}
    (hget : g.entries key = some entry) (hsent : entry.closedEventSent = true) :
    Relation.ReflTransGen Step g
      ((((g.cancel (entry.timers .pacer)).cancel (entry.timers .quicheTimeout)).cancel
        (entry.timers .establishTimeout)).put key none) := by
  have hpacer := unschedule_put g key entry .pacer
  rw [put_self hget] at hpacer
  have hquiche := unschedule_put (g.cancel (entry.timers .pacer)) key
    { entry with timers := Function.update entry.timers .pacer none } .quicheTimeout
  have hestablish := unschedule_put
    ((g.cancel (entry.timers .pacer)).cancel (entry.timers .quicheTimeout)) key
    { entry with
      timers := Function.update (Function.update entry.timers .pacer none) .quicheTimeout none }
    .establishTimeout
  refine .tail (.tail (.tail (.single hpacer) hquiche) hestablish) ?_
  rw [← put_put _ key (some _) none]
  refine Step.forget _ (entries_put_self _ key _) hsent fun kind => ?_
  cases kind <;> rfl

/-! ### Events that were consumed before -/

/-- A ledger whose events come after earlier ones. -/
def after (earlier : List (Event ConnectionKey)) (g : Ledger) : Ledger :=
  { g with events := earlier ++ g.events }

theorem push_after (earlier events : List (Event ConnectionKey)) (g : Ledger) :
    (g.push events).after earlier = (g.after earlier).push events :=
  congrArg (Ledger.mk _ _ _) (List.append_assoc ..).symm

theorem Step.after {g g' : Ledger} (hstep : Step g g') (earlier : List (Event ConnectionKey)) :
    Step (g.after earlier) (g'.after earlier) := by
  cases hstep with
  | push hroutine =>
    rw [push_after]
    exact .push (g.after earlier) hroutine
  | register hfree isServer =>
    rw [push_after]
    exact .register (g.after earlier) hfree isServer
  | report hget hunsent hterminates =>
    rw [push_after]
    exact .report (g.after earlier) hget hunsent hterminates
  | schedule hget kind hschedule => exact .schedule (g.after earlier) hget kind hschedule
  | unschedule hget kind => exact .unschedule (g.after earlier) hget kind
  | forget hget hsent htimers => exact .forget (g.after earlier) hget hsent htimers

/-! ### The roster -/

/-- Without the timers. -/
def roster (g : Ledger) : Roster ConnectionKey where
  sent key := (g.entries key).map (·.closedEventSent)
  events := g.events
  replaced := []

theorem sent_put (g : Ledger) (key : ConnectionKey) (entry : Option Entry) :
    (g.put key entry).roster.sent =
      Function.update g.roster.sent key (entry.map (·.closedEventSent)) := by
  funext key'
  unfold roster put
  by_cases hkey : key' = key
  · subst hkey
    simp
  · simp [hkey]

theorem sent_of_get {g : Ledger} {key : ConnectionKey} {entry : Entry}
    (hget : g.entries key = some entry) : g.roster.sent key = some entry.closedEventSent :=
  congrArg (Option.map Entry.closedEventSent) hget

/-- The timers of a connection do not concern the roster. -/
theorem roster_put_timers (g : Ledger) {key : ConnectionKey} {entry : Entry}
    (hget : g.entries key = some entry) (timers : TimerKind → Option TimerKey) :
    (g.put key (some { entry with timers })).roster = g.roster := by
  have hput := g.sent_put key (some { entry with timers })
  rw [Option.map_some, ← sent_of_get hget, Function.update_eq_self] at hput
  exact congrArg (Roster.mk · g.events []) hput

theorem Step.roster {g g' : Ledger} (hstep : Step g g') :
    Relation.ReflTransGen Roster.Step g.roster g'.roster := by
  cases hstep with
  | push hroutine =>
    refine .single (.push g.roster fun e he => ?_)
    obtain ⟨hterminates, hintroduces, hlive⟩ := (hroutine e he).1
    exact ⟨hterminates, hintroduces, Option.isSome_map.trans hlive⟩
  | register hfree isServer =>
    have hregister := Roster.Step.register g.roster
      (congrArg (Option.map Entry.closedEventSent) hfree) isServer
    have hput := g.sent_put g.nextKey (some ⟨fun _ => none, false⟩)
    rw [Option.map_some] at hput
    rw [← hput] at hregister
    exact .single hregister
  | report hget hunsent hterminates =>
    rename_i key entry e
    have hsent := sent_of_get hget
    rw [hunsent] at hsent
    have hreport := Roster.Step.report g.roster hsent hterminates
    have hput := g.sent_put key (some { entry with closedEventSent := true })
    rw [Option.map_some] at hput
    rw [← hput] at hreport
    exact .single hreport
  | schedule hget kind hschedule =>
    rename_i key entry due now timer timerKey
    rw [roster_put_timers { g with timer } hget]
    exact .refl
  | unschedule hget kind =>
    rename_i key entry
    rw [roster_put_timers (g.cancel (entry.timers kind)) hget]
    exact .refl
  | forget hget hsent htimers =>
    rename_i key entry
    have hsent' := sent_of_get hget
    rw [hsent] at hsent'
    have hforget := Roster.Step.forget g.roster hsent'
    have hput := g.sent_put key none
    rw [Option.map_none] at hput
    rw [← hput] at hforget
    exact .single hforget

end Ledger

/-! ## Connections -/

namespace Connection

variable {Conn Cfg : Type}

def entry (c : Connection Conn) : Entry := ⟨c.timerKey, c.closedEventSent⟩

theorem popTimerKey_eq (c : Connection Conn) (kind : TimerKind) :
    c.popTimerKey kind = (c.setTimerKey kind none, c.timerKey kind) := by
  cases kind <;> rfl

theorem entry_setTimerKey (c : Connection Conn) (kind : TimerKind) (key : Option TimerKey) :
    (c.setTimerKey kind key).entry =
      { c.entry with timers := Function.update c.timerKey kind key } := by
  have htimers : (c.setTimerKey kind key).timerKey = Function.update c.timerKey kind key := by
    funext kind'
    cases kind <;> cases kind' <;> rfl
  have hsent : (c.setTimerKey kind key).closedEventSent = c.closedEventSent := by
    cases kind <;> rfl
  unfold entry
  rw [htimers, hsent]

/-- What reporting the end of a connection amounts to: nothing if it was reported before. -/
def Reported (key : ConnectionKey) (entry : Entry) (c : Connection Conn)
    (events : List (ConnectionEvent ConnectionKey)) : Prop :=
  (c.entry = entry ∧ events = []) ∨
    (entry.closedEventSent = false ∧ c.entry = { entry with closedEventSent := true } ∧
      ∃ e, events = [e] ∧ (Event.connection e).terminates = some key)

theorem Reported.trans {key : ConnectionKey} {entry : Entry} {c c' : Connection Conn}
    {events events' : List (ConnectionEvent ConnectionKey)} (h : Reported key entry c events)
    (h' : Reported key c.entry c' events') : Reported key entry c' (events ++ events') := by
  rcases h with ⟨rfl, rfl⟩ | ⟨hunsent, hentry, he⟩
  · exact h'
  · rcases h' with ⟨hentry', rfl⟩ | ⟨hunsent', -⟩
    · rw [List.append_nil]
      exact .inr ⟨hunsent, hentry'.trans hentry, he⟩
    · rw [hentry] at hunsent'
      cases hunsent'

theorem getHaltEvent_reported (c : Connection Conn) (key : ConnectionKey) (kind : HaltKind) :
    Reported key c.entry (c.getHaltEvent key kind).1 (c.getHaltEvent key kind).2.toList := by
  unfold getHaltEvent
  split
  · exact .inl ⟨rfl, rfl⟩
  · next hunsent =>
    exact .inr ⟨Bool.eq_false_iff.mpr hunsent, rfl, _, rfl, rfl⟩

theorem getCloseEvent_reported (lib : Library Conn Cfg) (c : Connection Conn)
    (key : ConnectionKey) :
    Reported key c.entry (c.getCloseEvent lib key).1 (c.getCloseEvent lib key).2.toList := by
  unfold getCloseEvent
  split
  · exact .inl ⟨rfl, rfl⟩
  · next hunsent =>
    refine .inr ⟨Bool.eq_false_iff.mpr hunsent, rfl, _, rfl, ?_⟩
    -- `Closed` or `Halted`, whatever the reason
    split
    · rfl
    · split <;> rfl

theorem getCloseEvent_sent (lib : Library Conn Cfg) (c : Connection Conn) (key : ConnectionKey) :
    (c.getCloseEvent lib key).1.closedEventSent = true := by
  unfold getCloseEvent
  split
  · assumption
  · rfl

end Connection

/-! ## The ledger of a backend -/

namespace QuicheBackend

variable {Conn Cfg G T : Type} (env : Env Conn Cfg G T)

def ledger (b : QuicheBackend Conn Cfg G T) : Ledger where
  timer := b.time.timer
  entries key := (b.connections.get key).map Connection.entry
  nextKey := b.connections.all.slots.length
  events := b.events

/-- Whatever happens to the backend, the ledger goes through steps. -/
def Follows (b b' : QuicheBackend Conn Cfg G T) : Prop :=
  Relation.ReflTransGen Ledger.Step b.ledger b'.ledger

theorem Follows.of_eq {b b' : QuicheBackend Conn Cfg G T} (h : b'.ledger = b.ledger) :
    Follows b b' := by
  rw [Follows, h]

theorem Follows.trans {b b' b'' : QuicheBackend Conn Cfg G T} (h : Follows b b')
    (h' : Follows b' b'') : Follows b b'' :=
  Relation.ReflTransGen.trans h h'

variable {b b' : QuicheBackend Conn Cfg G T} {key : ConnectionKey} {c c' : Connection Conn}

theorem entries_ledger (hget : b.connections.get key = some c) :
    b.ledger.entries key = some c.entry := by
  simp [ledger, hget]

theorem ledger_put (hget : b.connections.get key = some c) (c' : Connection Conn) :
    (b.put key c').ledger = b.ledger.put key (some c'.entry) := by
  have hentries (k : ConnectionKey) : ((b.connections.put key c').get k).map Connection.entry =
      Function.update b.ledger.entries key (some c'.entry) k := by
    show ((b.connections.all.set key c').get k).map Connection.entry = _
    rw [Slots.get_set (Option.isSome_of_eq_some hget)]
    by_cases hk : k = key
    · subst hk
      simp
    · simp [hk, ledger, Connections.get]
  have hlength : (b.connections.put key c').all.slots.length = b.connections.all.slots.length :=
    List.length_set
  unfold ledger Ledger.put
  simp only [put, Ledger.mk.injEq, true_and, and_true]
  exact ⟨funext hentries, hlength⟩

/-- A change that the ledger does not see. -/
theorem ledger_put_eq (hget : b.connections.get key = some c) (c' : Connection Conn)
    (hentry : c'.entry = c.entry) : (b.put key c').ledger = b.ledger := by
  rw [ledger_put hget, hentry]
  exact Ledger.put_self (entries_ledger hget)

theorem Follows.put (hget : b.connections.get key = some c) (hentry : c'.entry = c.entry) :
    Follows b (b.put key c') :=
  .of_eq (ledger_put_eq hget c' hentry)

theorem routine_of_get (hget : b.connections.get key = some c) {e : Event ConnectionKey}
    (hterminates : e.terminates = none) (hintroduces : e.introduces = none)
    (hestablishes : e.establishes = none) (hid : e.connectionId = key) : b.ledger.Routine e := by
  refine ⟨⟨hterminates, hintroduces, ?_⟩, hestablishes⟩
  unfold Ledger.Live
  rw [hid, entries_ledger hget]
  rfl

theorem Follows.push (b : QuicheBackend Conn Cfg G T) {events : List (Event ConnectionKey)}
    (hroutine : ∀ e ∈ events, b.ledger.Routine e) : Follows b (b.push events) :=
  .single (.push b.ledger hroutine)

/-- The connection is written back and the events of its end are pushed. -/
theorem Follows.report (hget : b.connections.get key = some c)
    {events : List (ConnectionEvent ConnectionKey)}
    (h : Connection.Reported key c.entry c' events) :
    Follows b ((b.put key c').push (events.map .connection)) := by
  rcases h with ⟨hentry, rfl⟩ | ⟨hunsent, hentry, e, rfl, hterminates⟩
  · exact (Follows.put hget hentry).trans (.push _ (by simp))
  · have hstep := Ledger.Step.report b.ledger (entries_ledger hget) hunsent hterminates
    rw [← hentry, ← ledger_put hget] at hstep
    exact .single hstep

theorem ledger_markActive (b : QuicheBackend Conn Cfg G T) (key : ConnectionKey) :
    (b.markActive key).ledger = b.ledger := by
  unfold markActive Connections.markActive
  split <;> rfl

/-! ### `forget_connection` -/

theorem cancelAll_timer (time : EventTimer TimerEvent) (c : Connection Conn) :
    (cancelAll time c).timer =
      [c.timerPacerKey, c.timerQuicheTimeoutKey, c.timerEstablishTimeoutKey].foldl
        (fun timer timerKey => timerKey.elim timer timer.cancel) time.timer := by
  unfold cancelAll
  cases c.timerPacerKey <;> cases c.timerQuicheTimeoutKey <;>
    cases c.timerEstablishTimeoutKey <;> rfl

/-- What `remove` leaves of the connections. -/
theorem ledger_remove {cs : Connections Conn}
    (hremove : b.connections.remove env.quiche key = some (cs, c)) :
    ∃ c₀, b.connections.get key = some c₀ ∧ c.entry = c₀.entry ∧
      { b with connections := cs }.ledger = b.ledger.put key none := by
  simp only [Connections.remove, Option.bind_eq_bind, Option.bind_eq_some_iff] at hremove
  obtain ⟨c₀, hget, hremove⟩ := hremove
  obtain ⟨rfl, rfl⟩ := Prod.mk.inj (Option.some.inj hremove)
  refine ⟨c₀, hget, rfl, ?_⟩
  have hentries (k : ConnectionKey) : ((b.connections.all.remove key).get k).map Connection.entry =
      Function.update b.ledger.entries key none k := by
    rw [Slots.get_remove]
    by_cases hk : k = key
    · subst hk
      simp
    · simp [hk, ledger, Connections.get]
  have hlength : (b.connections.all.remove key).slots.length = b.connections.all.slots.length :=
    List.length_set
  unfold ledger Ledger.put
  simp only [Ledger.mk.injEq, true_and, and_true]
  exact ⟨funext hentries, hlength⟩

theorem forgetConnection_follows (b : QuicheBackend Conn Cfg G T) (key : ConnectionKey) :
    Follows b (b.forgetConnection env key) := by
  unfold forgetConnection
  split
  · exact .of_eq rfl
  · next cs c hremove =>
    obtain ⟨c₀, hget, hentry, hledger⟩ := ledger_remove env hremove
    have hreported := c.getCloseEvent_reported env.quiche key
    have hsent := c.getCloseEvent_sent env.quiche key
    revert hreported hsent
    generalize c.getCloseEvent env.quiche key = closed
    intro hreported hsent
    obtain ⟨c', event⟩ := closed
    rw [hentry] at hreported
    refine (Follows.report hget hreported).trans ?_
    have hput : ((b.put key c').push (event.toList.map .connection)).ledger =
        (b.ledger.put key (some c'.entry)).push (event.toList.map .connection) :=
      congrArg (Ledger.push · _) (ledger_put hget c')
    have hforget := Ledger.forget_steps
      ((b.ledger.put key (some c'.entry)).push (event.toList.map .connection))
      (b.ledger.entries_put_self key _) hsent
    -- the entry that was written before is gone, and so is the order in which it happened
    have hentries : Function.update (b.ledger.put key (some c'.entry)).entries key none =
        (b.ledger.put key none).entries := congrArg Ledger.entries (b.ledger.put_put key _ none)
    unfold Follows
    rw [hput]
    convert hforget using 1
    simp only [ledger, Ledger.put, Ledger.cancel, Ledger.push, Ledger.mk.injEq] at hentries hledger ⊢
    refine ⟨?_, ?_, ?_, rfl⟩
    · exact cancelAll_timer b.time c'
    · exact hledger.2.1.trans hentries.symm
    · exact hledger.2.2.1

/-! ### Timers -/

theorem scheduleTimer_follows (b : QuicheBackend Conn Cfg G T) (key : ConnectionKey)
    (kind : TimerKind) (due : Connection Conn → Option Instant) :
    Follows b (b.scheduleTimer key kind due) := by
  unfold scheduleTimer
  split
  · exact .of_eq rfl
  · next c hget =>
    split
    · exact .of_eq rfl
    · next due _ =>
      have hstep := Ledger.Step.schedule b.ledger (entries_ledger hget) kind
        (b.time.reschedule_eq ⟨key, kind⟩ due (c.timerKey kind))
      simp only [Connection.popTimerKey_eq]
      generalize b.time.reschedule ⟨key, kind⟩ due (c.timerKey kind) = scheduled at hstep ⊢
      obtain ⟨time, timerKey⟩ := scheduled
      have hput := ledger_put (b := { b with time }) hget
        ((c.setTimerKey kind none).setTimerKey kind (some timerKey))
      have hentry : ((c.setTimerKey kind none).setTimerKey kind (some timerKey)).entry =
          { c.entry with timers := Function.update c.timerKey kind (some timerKey) } := by
        have hnone := congrArg Entry.timers (c.entry_setTimerKey kind none)
        rw [Connection.entry_setTimerKey, Connection.entry_setTimerKey]
        show (⟨Function.update (c.setTimerKey kind none).entry.timers kind _, _⟩ : Entry) = _
        rw [hnone, Function.update_idem]
      rw [hentry] at hput
      refine .single ?_
      rw [hput]
      exact hstep

theorem scheduleEstablishTimeout_follows
    (h : b.scheduleEstablishTimeout env key = some b') : Follows b b' := by
  unfold scheduleEstablishTimeout at h
  split at h
  · cases h
    exact .of_eq rfl
  · simp only at h
    split at h
    · cases h
      exact .of_eq rfl
    · obtain ⟨due, -, rfl⟩ := Option.map_eq_some_iff.mp h
      exact scheduleTimer_follows ..

/-! ### Events of quiche -/

/-- What the getters of datagram events share. -/
def Announces (key : ConnectionKey) (c : Connection Conn)
    (r : Connection Conn × Option (DatagramEvent ConnectionKey)) : Prop :=
  r.1.entry = c.entry ∧ ∀ e ∈ r.2, e.connectionId = key

theorem getDgramInAvailableEvent_announces (c : Connection Conn) (key : ConnectionKey) :
    Announces key c (c.getDgramInAvailableEvent key) := by
  unfold Connection.getDgramInAvailableEvent
  split
  · exact ⟨rfl, fun e he => by cases he; rfl⟩
  · exact ⟨rfl, fun e he => by cases he⟩

theorem getDgramOutAvailableEvent_announces (c : Connection Conn) (key : ConnectionKey) :
    Announces key c (c.getDgramOutAvailableEvent key) := by
  unfold Connection.getDgramOutAvailableEvent
  split
  · exact ⟨rfl, fun e he => by cases he; rfl⟩
  · exact ⟨rfl, fun e he => by cases he⟩

theorem getDgramOutSizeEvent_announces (lib : Library Conn Cfg) (c : Connection Conn)
    (key : ConnectionKey) : Announces key c (c.getDgramOutSizeEvent lib key) := by
  unfold Connection.getDgramOutSizeEvent
  simp only
  split
  · exact ⟨rfl, fun e he => by cases he⟩
  · exact ⟨rfl, fun e he => by cases he; rfl⟩

theorem announces_if (p : Prop) [Decidable p]
    {r : Connection Conn × Option (DatagramEvent ConnectionKey)} (h : Announces key c r) :
    Announces key c (if p then (c, none) else r) := by
  split
  · exact ⟨rfl, fun e he => by cases he⟩
  · exact h

theorem streamsAvailable_cases (lib : Library Conn Cfg) (c : Connection Conn)
    (key : ConnectionKey) {e : ConnectionEvent ConnectionKey}
    (he : e ∈ (c.getConnectionStreamsAvailableEvents lib key).2) :
    ∃ isBidirectional, e = .streamsAvailable key isBidirectional := by
  simp only [Connection.getConnectionStreamsAvailableEvents, List.mem_append] at he
  rcases he with he | he
  · split at he
    · exact ⟨true, List.mem_singleton.mp he⟩
    · cases he
  · split at he
    · exact ⟨false, List.mem_singleton.mp he⟩
    · cases he

theorem get_put (hget : b.connections.get key = some c) (c' : Connection Conn) :
    (b.put key c').connections.get key = some c' :=
  (Slots.get_set (Option.isSome_of_eq_some hget) c' key).trans (if_pos rfl)

theorem writeStreamDgramEvents_follows (b : QuicheBackend Conn Cfg G T) (key : ConnectionKey) :
    Follows b (b.writeStreamDgramEvents env key) := by
  unfold writeStreamDgramEvents
  split
  · exact .of_eq rfl
  · next c hget =>
    have hentry : (c.getConnectionStreamsAvailableEvents env.quiche key).1.entry = c.entry := rfl
    have hstreams := @streamsAvailable_cases _ _ env.quiche c key
    generalize c.getConnectionStreamsAvailableEvents env.quiche key = streams at hentry hstreams ⊢
    obtain ⟨c₁, streamsAvailable⟩ := streams
    simp only at hentry hstreams ⊢
    have hput := get_put hget
    refine (Follows.put hget ?_).trans (.push _ fun e he => ?_)
    · refine (getDgramOutSizeEvent_announces env.quiche _ key).1.trans ?_
      refine (announces_if _ (getDgramOutAvailableEvent_announces _ key)).1.trans ?_
      exact (announces_if _ (getDgramInAvailableEvent_announces _ key)).1.trans hentry
    · -- every one of the events is about this connection
      simp only [List.mem_append, List.mem_map, List.mem_filterMap, Option.mem_toList] at he
      rcases he with (⟨event, hevent, rfl⟩ | ⟨event, hevent, rfl⟩) | ⟨event, hevent, rfl⟩
      · obtain ⟨isBidirectional, rfl⟩ := hstreams hevent
        exact routine_of_get (hput _) rfl rfl rfl rfl
      · obtain ⟨streamId, -, hevent⟩ := hevent
        obtain ⟨_, -, rfl⟩ := Option.map_eq_some_iff.mp hevent
        exact routine_of_get (hput _) rfl rfl rfl rfl
      · refine routine_of_get (hput _) rfl rfl rfl ?_
        rcases hevent with (hevent | hevent) | hevent
        · exact (announces_if _ (getDgramInAvailableEvent_announces _ key)).2 event hevent
        · exact (announces_if _ (getDgramOutAvailableEvent_announces _ key)).2 event hevent
        · exact (getDgramOutSizeEvent_announces env.quiche _ key).2 event hevent

theorem ledger_updateScidsDict (b : QuicheBackend Conn Cfg G T) (key : ConnectionKey) :
    { b with connections := b.connections.updateScidsDict env.quiche key }.ledger = b.ledger := by
  unfold Connections.updateScidsDict
  split
  · rfl
  · next c hget => exact ledger_put_eq hget { c with inner := _ } rfl

theorem ledger_markVerified (b : QuicheBackend Conn Cfg G T) (key : ConnectionKey) :
    { b with connections := b.connections.markVerified env.quiche key }.ledger = b.ledger := by
  unfold Connections.markVerified
  split
  · rfl
  · next c hget =>
    split
    · exact ledger_put_eq hget { c with peerAddressVerified := true } rfl
    · rfl

theorem allocateScids_follows (b : QuicheBackend Conn Cfg G T) (key : ConnectionKey) :
    Follows b (b.allocateScids env key) := by
  unfold allocateScids
  split
  · exact .of_eq rfl
  · split
    · next server cs c _ hmark =>
      obtain ⟨c, hget, heq⟩ := Option.map_eq_some_iff.mp hmark
      obtain ⟨rfl, rfl⟩ := Prod.mk.inj heq
      simp only
      split
      · refine Follows.of_eq ((ledger_updateScidsDict env _ key).trans ?_)
        exact ledger_put_eq (b := { b with config := _, connections := _ }) hget
          { c with inner := _ } rfl
      · exact .of_eq rfl
    · exact .of_eq rfl

theorem handlePathEvents_follows (b : QuicheBackend Conn Cfg G T) (key : ConnectionKey) :
    Follows b (b.handlePathEvents env key) := by
  unfold handlePathEvents
  split
  · exact .of_eq rfl
  · next c hget =>
    generalize env.quiche.pathEvents c.inner = polled
    obtain ⟨inner, events⟩ := polled
    have hput : Follows b (b.put key { c with inner }) := .put hget rfl
    have hverified : Follows (b.put key { c with inner })
        (if events.contains .validated then
          { b.put key { c with inner } with
            connections := (b.put key { c with inner }).connections.markVerified env.quiche key }
        else b.put key { c with inner }) := by
      split
      · exact .of_eq (ledger_markVerified env _ key)
      · exact .of_eq rfl
    simp only
    split
    · exact (hput.trans hverified).trans (allocateScids_follows env _ key)
    · exact hput.trans hverified

theorem checkConnectionHandshakeProgress_follows (b : QuicheBackend Conn Cfg G T)
    (key : ConnectionKey) : Follows b (b.checkConnectionHandshakeProgress env key) := by
  unfold checkConnectionHandshakeProgress
  split
  · exact .of_eq rfl
  · next c hget =>
    split
    · simp only [Connection.popTimerKey_eq]
      refine Follows.trans ?_ (allocateScids_follows env _ key)
      have hstep := Ledger.Step.unschedule b.ledger (entries_ledger hget) .establishTimeout
      have hput := ledger_put hget (c.setTimerKey .establishTimeout none)
      rw [c.entry_setTimerKey] at hput
      refine .single ?_
      cases htimer : c.timerKey .establishTimeout with
      | none =>
        rw [show c.entry.timers .establishTimeout = none from htimer] at hstep
        simp only
        rw [hput]
        exact hstep
      | some timerKey =>
        rw [show c.entry.timers .establishTimeout = some timerKey from htimer] at hstep
        show Ledger.Step b.ledger { (b.put key _).ledger with timer := _ }
        rw [hput]
        exact hstep
    · exact .of_eq rfl

/-! ### Scheduled events -/

theorem getMarkActive_follows {cs : Connections Conn}
    (h : b.connections.getMarkActive key = some (cs, c)) :
    cs.get key = some c ∧ Follows b { b with connections := cs } := by
  obtain ⟨c, hget, heq⟩ := Option.map_eq_some_iff.mp h
  obtain ⟨rfl, rfl⟩ := Prod.mk.inj heq
  exact ⟨hget, .of_eq rfl⟩

theorem handleScheduledEvent_follows (b : QuicheBackend Conn Cfg G T) (event : TimerEvent) :
    Follows b (b.handleScheduledEvent env event) := by
  unfold handleScheduledEvent
  simp only
  split
  · exact .of_eq rfl
  · next cs c hmark =>
    obtain ⟨hget, hactive⟩ := getMarkActive_follows hmark
    refine hactive.trans ?_
    generalize hb₁ : { b with connections := cs } = b₁
    replace hget : b₁.connections.get event.connectionKey = some c := hb₁ ▸ hget
    split
    · exact .of_eq rfl
    · exact .put hget rfl
    · split
      · exact .of_eq rfl
      · have hreported := c.getHaltEvent_reported event.connectionKey .timeout
        generalize c.getHaltEvent event.connectionKey .timeout = halted at hreported ⊢
        obtain ⟨c', halted⟩ := halted
        refine (Follows.report hget hreported).trans ?_
        simp only
        split
        · exact .put (get_put hget c') rfl
        · exact forgetConnection_follows env _ _

theorem foldl_follows {α : Type} {f : QuicheBackend Conn Cfg G T → α → QuicheBackend Conn Cfg G T}
    (hf : ∀ b x, Follows b (f b x)) (xs : List α) (b : QuicheBackend Conn Cfg G T) :
    Follows b (xs.foldl f b) := by
  induction xs generalizing b with
  | nil => exact .of_eq rfl
  | cons x xs ih => exact (hf b x).trans (ih (f b x))

theorem handleScheduledEvents_follows (b : QuicheBackend Conn Cfg G T) :
    Follows b (b.handleScheduledEvents env) := by
  have hpop : Follows b { b with time := b.time.popFiredEvents.1 } := .of_eq rfl
  exact hpop.trans (foldl_follows (handleScheduledEvent_follows env) _ _)

end QuicheBackend

end Aquic.Backend.Quiche

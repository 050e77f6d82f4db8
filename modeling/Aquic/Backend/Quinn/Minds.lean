import Aquic.Backend.Awaiting
import Aquic.Backend.Quinn.Follows
import Aquic.Backend.Quinn.Send
import Aquic.Lib.Attending
import Aquic.Util.Timer.Delivery

/-!
# Minding one connection of quinn

As in the quiche backend, almost every function is about one connection, and lets the others and their timers be.

A connection has one timer, and remembers its key. The key goes stale when the timer fires, and is cancelled
all the same; and a connection whose handle is needed for another one is dropped with its timer running. Neither
does any harm: what a remembered key stands for, if anything, is an event of a connection under that handle.
-/

namespace Aquic.Backend.Quinn

open Aquic.Collections Aquic.Net Aquic.Polling Aquic.Run Aquic.Stream Aquic.Timer

/-! ## Timers -/

/-- What remembered timer keys rely on. -/
structure Remembers (timer : WheelTimer (Option QuinnConnectionId))
    (timerKeys : ConnectionKey → Option TimerKey) : Prop where
  shape : timer.Shape
  fits : timer.EpochsFit
  issued key timerKey : timerKeys key = some timerKey → timer.Issued timerKey
  own key timerKey id : timerKeys key = some timerKey → timer.lookup timerKey = some (some id) → id.key = key

namespace Remembers

variable {timer timer' : WheelTimer (Option QuinnConnectionId)}
  {timerKeys timerKeys' : ConnectionKey → Option TimerKey} {key : ConnectionKey} {timerKey : TimerKey}

/-- Timer keys are forgotten. -/
theorem mono (h : Remembers timer timerKeys)
    (hkeys : ∀ key timerKey, timerKeys' key = some timerKey → timerKeys key = some timerKey) :
    Remembers timer timerKeys' where
  shape := h.shape
  fits := h.fits
  issued key timerKey hkey := h.issued key timerKey (hkeys key timerKey hkey)
  own key timerKey id hkey := h.own key timerKey id (hkeys key timerKey hkey)

/-- The timer of a connection is cancelled, and those of the others stay. -/
theorem cancel (h : Remembers timer timerKeys) (hkey : timerKeys key = some timerKey) :
    Remembers (timer.cancel timerKey) timerKeys ∧
      ∀ id : QuinnConnectionId, id.key ≠ key → timer.Pending (some id) →
        (timer.cancel timerKey).Pending (some id) := by
  have hissued := h.issued key timerKey hkey
  refine ⟨⟨WheelTimer.cancel_shape h.shape _, (WheelTimer.cancel_inStep _ _).epochsFit h.fits, ?_, ?_⟩,
    fun id hid hpending => ?_⟩
  · intro key' timerKey' hkey'
    exact (h.issued key' timerKey' hkey').cancel hissued
  · intro key' timerKey' id hkey' hlookup
    rw [WheelTimer.lookup_cancel hissued] at hlookup
    split at hlookup
    · cases hgone : timer.lookup timerKey <;> simp [hgone] at hlookup
    · exact h.own key' timerKey' id hkey' hlookup
  · show ([timerKey].foldl WheelTimer.cancel timer).Pending (some id)
    apply hpending.foldl_cancel
    · intro cancelled hmem
      obtain rfl := List.mem_singleton.mp hmem
      exact hissued
    · intro cancelled hmem hlookup
      obtain rfl := List.mem_singleton.mp hmem
      exact hid (h.own key cancelled id hkey hlookup)

/-- A timer is added to those that are pending, and remembered. -/
theorem schedule (h : Remembers timer timerKeys) {id : QuinnConnectionId} {due now : Instant}
    (hschedule : timer.schedule (some id) due now = some (timer', timerKey)) :
    Remembers timer' (Function.update timerKeys id.key (some timerKey)) ∧ timer'.Pending (some id) ∧
      ∀ id' : QuinnConnectionId, timer.Pending (some id') → timer'.Pending (some id') := by
  have hadds := WheelTimer.schedule_adds h.shape h.fits hschedule
  refine ⟨⟨WheelTimer.schedule_shape h.shape hschedule, WheelTimer.schedule_epochsFit h.fits hschedule, ?_, ?_⟩,
    hadds.pending_self, fun _ => hadds.pending⟩
  · intro key' timerKey' hkey'
    by_cases hkey : key' = id.key
    · subst hkey
      rw [Function.update_self] at hkey'
      exact Option.some.inj hkey' ▸ hadds.issued
    · rw [Function.update_of_ne hkey] at hkey'
      exact hadds.keeps timerKey' (h.issued key' timerKey' hkey')
  · intro key' timerKey' id' hkey' hlookup
    rw [hadds.lookup] at hlookup
    by_cases hkey : key' = id.key
    · subst hkey
      rw [Function.update_self] at hkey'
      obtain rfl := Option.some.inj hkey'
      rw [if_pos rfl] at hlookup
      cases hlookup
      rfl
    · rw [Function.update_of_ne hkey] at hkey'
      have hne : timerKey' ≠ timerKey := by
        rintro rfl
        exact hadds.fresh (h.issued key' timerKey' hkey')
      rw [if_neg hne] at hlookup
      exact h.own key' timerKey' id' hkey' hlookup

/-- The timer of a connection is replaced, and those of the others stay. -/
theorem reschedule {time : EventTimer QuinnConnectionId} (h : Remembers time.timer timerKeys)
    (id : QuinnConnectionId) (due : Instant) :
    Remembers (time.reschedule id due (timerKeys id.key)).1.timer
        (Function.update timerKeys id.key (some (time.reschedule id due (timerKeys id.key)).2)) ∧
      (time.reschedule id due (timerKeys id.key)).1.timer.Pending (some id) ∧
      ∀ id' : QuinnConnectionId, id'.key ≠ id.key → time.timer.Pending (some id') →
        (time.reschedule id due (timerKeys id.key)).1.timer.Pending (some id') := by
  have hschedule := time.reschedule_eq id due (timerKeys id.key)
  generalize time.reschedule id due (timerKeys id.key) = rescheduled at hschedule ⊢
  obtain ⟨hcancelled, hothers⟩ : Remembers ((timerKeys id.key).elim time.timer time.timer.cancel) timerKeys ∧
      ∀ id' : QuinnConnectionId, id'.key ≠ id.key → time.timer.Pending (some id') →
        ((timerKeys id.key).elim time.timer time.timer.cancel).Pending (some id') := by
    cases hkey : timerKeys id.key with
    | none => exact ⟨h, fun _ _ h => h⟩
    | some timerKey => exact h.cancel hkey
  obtain ⟨hremembers, hpending, hkept⟩ := hcancelled.schedule hschedule
  exact ⟨hremembers, hpending, fun id' hid hbefore => hkept id' (hothers id' hid hbefore)⟩

end Remembers

/-! ## Attendance -/

namespace QuinnBackend

variable {Conn : Type} (lib : Library Conn)

/-- The timer key that a connection remembers. -/
def timerKeys (b : QuinnBackend Conn) (key : ConnectionKey) : Option TimerKey :=
  (b.connections.all.get key).bind (·.timerQuinnTimeoutKey)

def Sound (b : QuinnBackend Conn) : Prop := Remembers b.time.timer b.timerKeys

/-- What there is to attend to in a backend. -/
def attendance : Attendance (QuinnBackend Conn) (Connection Conn) ConnectionKey where
  queue b := b.connections.active.toList
  conn b := b.connections.all.get
  Sound := Sound
  Awaited b key := ∃ c, b.connections.all.get key = some c ∧ b.time.Awaits (c.id key)

/-- quinn asks for a timeout. -/
def HasTimeout (c : Connection Conn) : Prop := (lib.pollTimeout c.inner).2 ≠ none

abbrev Attended (b : QuinnBackend Conn) (key : ConnectionKey) : Prop :=
  attendance.Attended (HasTimeout lib) b key

abbrev Queued (b : QuinnBackend Conn) (key : ConnectionKey) : Prop := attendance.Queued b key

abbrev Tended (others : Set ConnectionKey) (b : QuinnBackend Conn) : Prop :=
  attendance.Tended (HasTimeout lib) others b

abbrev Minds (key : ConnectionKey) (b b' : QuinnBackend Conn) : Prop := attendance.Minds key b b'

variable {lib} {b b' : QuinnBackend Conn} {id : QuinnConnectionId} {key : ConnectionKey}
  {c c' : Connection Conn}

/-- A connection is written back, with another timer. -/
theorem sound_put (hget : b.connections.all.get key = some c) {time : EventTimer QuinnConnectionId}
    (h : Remembers time.timer (Function.update b.timerKeys key c'.timerQuinnTimeoutKey)) :
    Sound ({ b with time }.put key c') := by
  apply h.mono
  intro k timerKey hkey
  have hput : (b.connections.put key c').all.get k = if k = key then some c' else b.connections.all.get k :=
    Slots.get_set (Option.isSome_of_eq_some hget) c' k
  have hkey : ((b.connections.put key c').all.get k).bind (·.timerQuinnTimeoutKey) = some timerKey := hkey
  rw [hput] at hkey
  by_cases hk : k = key
  · rw [if_pos hk, Option.bind_some] at hkey
    rwa [hk, Function.update_self]
  · rw [if_neg hk] at hkey
    rwa [Function.update_of_ne hk]

namespace Minds

/-- No timer of another connection is disturbed. -/
theorem of_timers (hothers : ∀ k ≠ key, b'.connections.all.get k = b.connections.all.get k)
    (hactive : ∀ k ≠ key, k ∈ b.connections.active.toList → k ∈ b'.connections.active.toList)
    (hqueued : b.Queued key → b'.Queued key) (hfired : b'.time.firedEvents = b.time.firedEvents)
    (htimers : b.Sound → b'.Sound ∧ ∀ id : QuinnConnectionId, id.key ≠ key →
      b.time.timer.Pending (some id) → b'.time.timer.Pending (some id)) : Minds key b b' := by
  refine ⟨hothers, hactive, hqueued, fun hsound => ?_⟩
  obtain ⟨hsound', hpending⟩ := htimers hsound
  refine ⟨hsound', fun k hk hawaited => ?_⟩
  obtain ⟨c, hget, hawaits⟩ := hawaited
  refine ⟨c, (hothers k hk).trans hget, ?_⟩
  rcases hawaits with hb | hb
  · exact .inl (hpending (c.id k) hk hb)
  · refine .inr ?_
    unfold EventTimer.Fired
    rwa [hfired]

/-- Neither the connections nor the timers change. -/
theorem of_eq (hall : b'.connections.all = b.connections.all)
    (hactive : b'.connections.active = b.connections.active) (htime : b'.time = b.time) :
    Minds key b b' := by
  refine of_timers (fun k _ => congrArg (Slots.get · k) hall) (fun k _ hk => hactive ▸ hk) (fun hqueued => ?_)
    (congrArg EventTimer.firedEvents htime) fun hsound => ⟨?_, fun id _ hpending => htime ▸ hpending⟩
  · show (b'.connections.all.get key).isSome → key ∈ b'.connections.active.toList
    rw [hall, hactive]
    exact hqueued
  · unfold Sound timerKeys
    rw [hall, htime]
    exact hsound

theorem push (b : QuinnBackend Conn) (events : List (Event QuinnConnectionId)) :
    Minds key b (b.push events) := of_eq rfl rfl rfl

theorem put (hget : b.connections.all.get key = some c)
    (htimer : c'.timerQuinnTimeoutKey = c.timerQuinnTimeoutKey) : Minds key b (b.put key c') := by
  refine of_timers (fun k hk => Slots.get_set_of_ne hk) (fun _ _ h => h)
    (fun hqueued _ => hqueued (Option.isSome_of_eq_some hget)) rfl fun hsound => ⟨?_, fun _ _ h => h⟩
  have hkey : b.timerKeys key = c'.timerQuinnTimeoutKey := by
    unfold timerKeys
    rw [hget, Option.bind_some, htimer]
  apply sound_put hget
  rw [← hkey, Function.update_eq_self]
  exact hsound

/-- The connection is marked. -/
theorem mark (b : QuinnBackend Conn) (key : ConnectionKey) {connections : Connections Conn}
    (h : connections = { b.connections with active := b.connections.active.replace key }) :
    Minds key b { b with connections } := by
  subst h
  exact of_timers (fun _ _ => rfl) (fun k _ hk => LinkedHashSet.mem_replace.mpr (.inl hk))
    (fun _ _ => LinkedHashSet.mem_replace.mpr (.inr rfl)) rfl fun hsound => ⟨hsound, fun _ _ h => h⟩

end Minds

/-! ## Functions below the operations -/

/-- What `schedule_quinn_timeout` does to a connection. -/
theorem scheduleQuinnTimeout_cases (lib : Library Conn) (hget : b.connections.get id = some c) :
    ((lib.pollTimeout c.inner).2 = none ∧
      b.scheduleQuinnTimeout lib id = b.put id.key { c with inner := (lib.pollTimeout c.inner).1 }) ∨
    ∃ due, b.scheduleQuinnTimeout lib id =
      { b with time := (b.time.reschedule id due c.timerQuinnTimeoutKey).1 }.put id.key
        { c with
          inner := (lib.pollTimeout c.inner).1
          timerQuinnTimeoutKey := some (b.time.reschedule id due c.timerQuinnTimeoutKey).2 } := by
  unfold scheduleQuinnTimeout
  simp only [hget]
  generalize lib.pollTimeout c.inner = polled
  obtain ⟨inner, due⟩ := polled
  cases due with
  | none => exact .inl ⟨rfl, rfl⟩
  | some due => exact .inr ⟨due, rfl⟩

theorem scheduleQuinnTimeout_sound (hget : b.connections.get id = some c) (due : Instant) (inner : Conn)
    (hsound : b.Sound) :
    Sound ({ b with time := (b.time.reschedule id due c.timerQuinnTimeoutKey).1 }.put id.key
      { c with
        inner
        timerQuinnTimeoutKey := some (b.time.reschedule id due c.timerQuinnTimeoutKey).2 }) ∧
    (b.time.reschedule id due c.timerQuinnTimeoutKey).1.timer.Pending (some id) ∧
    ∀ id' : QuinnConnectionId, id'.key ≠ id.key → b.time.timer.Pending (some id') →
      (b.time.reschedule id due c.timerQuinnTimeoutKey).1.timer.Pending (some id') := by
  obtain ⟨hall, -⟩ := id_of_get hget
  have hkey : b.timerKeys id.key = c.timerQuinnTimeoutKey := by
    unfold timerKeys
    rw [hall, Option.bind_some]
  obtain ⟨hremembers, hpending, hothers⟩ := Remembers.reschedule hsound id due
  rw [hkey] at hremembers hpending hothers
  exact ⟨sound_put hall hremembers, hpending, hothers⟩

variable (lib) in
theorem scheduleQuinnTimeout_minds (b : QuinnBackend Conn) (id : QuinnConnectionId) :
    Minds id.key b (b.scheduleQuinnTimeout lib id) := by
  cases hget : b.connections.get id with
  | none =>
    unfold scheduleQuinnTimeout
    simp only [hget]
    exact .refl _ b
  | some c =>
    obtain ⟨hall, -⟩ := id_of_get hget
    rcases scheduleQuinnTimeout_cases lib hget with ⟨-, heq⟩ | ⟨due, heq⟩
    · rw [heq]
      exact .put hall rfl
    · rw [heq]
      refine .of_timers (fun k hk => ?_) (fun _ _ h => h) (fun hqueued _ => ?_) ?_ fun hsound => ?_
      · exact Slots.get_set_of_ne hk
      · exact hqueued (Option.isSome_of_eq_some hall)
      · exact b.time.reschedule_firedEvents ..
      · obtain ⟨hsound', -, hothers⟩ := scheduleQuinnTimeout_sound hget due _ hsound
        exact ⟨hsound', hothers⟩

/-- quinn goes on without a timeout when it is asked once more, and receiving a datagram has nothing to do with
timeouts. -/
structure KeepsTimeout (lib : Library Conn) : Prop where
  pollTimeout c : (lib.pollTimeout c).2 = none → (lib.pollTimeout (lib.pollTimeout c).1).2 = none
  recvDatagram c : (lib.pollTimeout c).2 = none → (lib.pollTimeout (lib.recvDatagram c).1).2 = none

/-- **`schedule_quinn_timeout`** leaves the connection attended. -/
theorem scheduleQuinnTimeout_attended (hlib : KeepsTimeout lib) (hsound : b.Sound)
    (hget : b.connections.get id = some c) : (b.scheduleQuinnTimeout lib id).Attended lib id.key := by
  obtain ⟨hall, hid⟩ := id_of_get hget
  rcases scheduleQuinnTimeout_cases lib hget with ⟨hnone, heq⟩ | ⟨due, heq⟩
  · rw [heq]
    intro c₁ hget₁ hneeds
    obtain rfl := Option.some.inj ((get_put hall _).symm.trans hget₁)
    exact absurd (hlib.pollTimeout c.inner hnone) hneeds
  · rw [heq]
    intro c₁ hget₁ _
    obtain rfl := Option.some.inj ((get_put (b := { b with time := _ }) hall _).symm.trans hget₁)
    obtain ⟨-, hpending, -⟩ := scheduleQuinnTimeout_sound hget due c.inner hsound
    refine ⟨_, hget₁, .inl ?_⟩
    -- the id depends on the version alone
    show WheelTimer.Pending _ (some (c.id id.key))
    rw [hid]
    exact hpending

theorem getHaltEvent_timer (c : Connection Conn) (key : ConnectionKey) (kind : HaltKind) :
    (c.getHaltEvent key kind).1.timerQuinnTimeoutKey = c.timerQuinnTimeoutKey := by
  unfold Connection.getHaltEvent
  split <;> rfl

theorem getCloseEvent_timer (c : Connection Conn) (key : ConnectionKey) (code : Nat) (reason : List UInt8)
    (isApplication isLocal : Bool) :
    (c.getCloseEvent key code reason isApplication isLocal).1.timerQuinnTimeoutKey =
      c.timerQuinnTimeoutKey := by
  unfold Connection.getCloseEvent
  split <;> rfl

/-- A connection is removed, with or without its timer. -/
theorem Minds.remove (hget : ∀ k, b'.connections.all.get k = if k = key then none else b.connections.all.get k)
    (hactive : b'.connections.active = b.connections.active.remove key)
    (htime : b'.time = b.time ∨ ∃ timerKey, b.timerKeys key = some timerKey ∧ b'.time = b.time.cancel timerKey) :
    Minds key b b' := by
  have hdead : b'.connections.all.get key = none := by rw [hget, if_pos rfl]
  have hkeys (k : ConnectionKey) (timerKey : TimerKey) (hk : b'.timerKeys k = some timerKey) :
      b.timerKeys k = some timerKey := by
    unfold timerKeys at hk ⊢
    rw [hget] at hk
    by_cases hkey : k = key
    · rw [if_pos hkey] at hk
      cases hk
    · rwa [if_neg hkey] at hk
  refine .of_timers (fun k hk => ?_) (fun k hk hmem => ?_) (fun _ => Attendance.queued_of_dead hdead) ?_
    fun hsound => ?_
  · rw [hget, if_neg hk]
  · rw [hactive]
    exact LinkedHashSet.mem_remove.mpr ⟨hk, hmem⟩
  · rcases htime with heq | ⟨timerKey, -, heq⟩ <;> rw [heq]
    rfl
  · rcases htime with heq | ⟨timerKey, hkey, heq⟩
    · unfold Sound
      rw [heq]
      exact ⟨hsound.mono hkeys, fun _ _ hpending => hpending⟩
    · obtain ⟨hcancelled, hothers⟩ := Remembers.cancel hsound hkey
      unfold Sound
      rw [heq]
      exact ⟨hcancelled.mono hkeys, hothers⟩

theorem forgetConnection_minds (b : QuinnBackend Conn) (id : QuinnConnectionId) :
    Minds id.key b (b.forgetConnection id) := by
  cases hget : b.connections.get id with
  | none =>
    have hremove : b.connections.remove id = none := by
      unfold Connections.remove
      rw [hget]
      rfl
    unfold forgetConnection
    rw [hremove]
    exact .refl _ b
  | some c =>
    obtain ⟨hall, hid⟩ := id_of_get hget
    have hforgets := forgetConnection_forgets hall
    rw [hid] at hforgets
    refine .remove hforgets.get hforgets.active ?_
    have hremove := Connections.remove_spec hall
    rw [hid] at hremove
    unfold forgetConnection
    rw [hremove]
    have hkey : b.timerKeys id.key = c.timerQuinnTimeoutKey := by
      unfold timerKeys
      rw [hall, Option.bind_some]
    simp only [getHaltEvent_timer]
    cases htimer : c.timerQuinnTimeoutKey with
    | none => exact .inl rfl
    | some timerKey => exact .inr ⟨timerKey, hkey.trans htimer, rfl⟩

/-! ### Marking -/

theorem getMarkActive_minds {connections : Connections Conn}
    (h : b.connections.getMarkActive id = some (connections, c)) :
    connections.all.get id.key = some c ∧ c.id id.key = id ∧ Minds id.key b { b with connections } ∧
      { b with connections }.Queued id.key := by
  obtain ⟨hget, hid, -⟩ := getMarkActive_follows h
  obtain ⟨c₁, -, heq⟩ := Option.map_eq_some_iff.mp h
  obtain ⟨rfl, rfl⟩ := Prod.mk.inj heq
  exact ⟨hget, hid, .mark b id.key rfl, fun _ => LinkedHashSet.mem_replace.mpr (.inr rfl)⟩

theorem getMarkActiveRaw_minds {connections : Connections Conn}
    (h : b.connections.getMarkActiveRaw key = some (connections, c)) :
    connections.all.get key = some c ∧ Minds key b { b with connections } ∧
      { b with connections }.Queued key := by
  obtain ⟨hget, -⟩ := getMarkActiveRaw_follows h
  obtain ⟨c₁, -, heq⟩ := Option.map_eq_some_iff.mp h
  obtain ⟨rfl, rfl⟩ := Prod.mk.inj heq
  exact ⟨hget, .mark b key rfl, fun _ => LinkedHashSet.mem_replace.mpr (.inr rfl)⟩

theorem getOpen_minds (h : b.getOpen lib id = some (b', c)) :
    b'.connections.all.get id.key = some c ∧ Minds id.key b b' ∧ b'.Queued id.key := by
  obtain ⟨hget, -, -⟩ := getOpen_follows lib h
  obtain ⟨⟨connections, c₁⟩, hmark, heq⟩ := Option.map_eq_some_iff.mp h
  obtain ⟨rfl, rfl⟩ := Prod.mk.inj heq
  obtain ⟨c₂, -, heq⟩ := Option.map_eq_some_iff.mp hmark
  obtain ⟨rfl, rfl⟩ := Prod.mk.inj heq
  exact ⟨hget, .mark b id.key rfl, fun _ => LinkedHashSet.mem_replace.mpr (.inr rfl)⟩

/-! ### Events of quinn -/

theorem getDgramOutSizeEvent_timer (lib : Library Conn) (c : Connection Conn) (key : ConnectionKey) :
    (c.getDgramOutSizeEvent lib key).1.timerQuinnTimeoutKey = c.timerQuinnTimeoutKey := by
  unfold Connection.getDgramOutSizeEvent
  simp only
  split <;> rfl

theorem getLostEvent_timer (c : Connection Conn) (key : ConnectionKey) (error : ConnectionError) :
    (c.getLostEvent key error).1.timerQuinnTimeoutKey = c.timerQuinnTimeoutKey := by
  cases error with
  | versionMismatch => apply getHaltEvent_timer
  | transportError code reason => apply getCloseEvent_timer
  | connectionClosed code reason => apply getCloseEvent_timer
  | applicationClosed code reason => apply getCloseEvent_timer
  | timedOut => apply getHaltEvent_timer
  | reset => apply getHaltEvent_timer
  | cidsExhausted => apply getHaltEvent_timer
  | locallyClosed => rfl

theorem handleQuinnConnectionLostEvent_minds (b : QuinnBackend Conn) (id : QuinnConnectionId)
    (error : ConnectionError) : Minds id.key b (b.handleQuinnConnectionLostEvent lib id error) := by
  unfold handleQuinnConnectionLostEvent
  split
  · exact .refl _ b
  · next connections c hmark =>
    obtain ⟨hget, -, hactive, -⟩ := getMarkActive_minds hmark
    have htimer := getLostEvent_timer c id.key error
    generalize c.getLostEvent id.key error = lost at htimer ⊢
    obtain ⟨c', event⟩ := lost
    have hput : Minds id.key { b with connections } ({ b with connections }.put id.key c') := .put hget htimer
    have hreport := (hactive.trans hput).trans (Minds.push _ (event.toList.map .connection))
    simp only
    split
    · exact hreport.trans (forgetConnection_minds _ id)
    · exact hreport

theorem handleQuinnStreamEvent_minds (b : QuinnBackend Conn) (id : QuinnConnectionId)
    (event : QuinnStreamEvent) : Minds id.key b (b.handleQuinnStreamEvent lib id event) := by
  unfold handleQuinnStreamEvent
  split
  · exact .refl _ b
  · next connections c hmark =>
    obtain ⟨hget, -, hactive, -⟩ := getMarkActive_minds hmark
    refine hactive.trans ?_
    generalize hb₁ : { b with connections } = b₁
    replace hget : b₁.connections.all.get id.key = some c := hb₁ ▸ hget
    have hput (inner : Conn) : Minds id.key b₁ (b₁.put id.key { c with inner }) := .put hget rfl
    cases event with
    | opened dir =>
      simp only
      split
      · exact hput _
      · exact (hput _).trans (Minds.push _ _)
    | available dir => exact Minds.push _ _
    | readable streamId => exact Minds.push _ _
    | writable streamId => exact Minds.push _ _
    | finished streamId => exact Minds.push _ _
    | stopped streamId code => exact Minds.push _ _

theorem handleQuinnEvent_minds (b : QuinnBackend Conn) (id : QuinnConnectionId) (event : QuinnEvent) :
    Minds id.key b (b.handleQuinnEvent lib id event) := by
  cases event with
  | handshakeDataReady => exact .refl _ b
  | connected => exact Minds.push _ _
  | connectionLost reason => exact handleQuinnConnectionLostEvent_minds b id reason
  | stream event => exact handleQuinnStreamEvent_minds b id event
  | datagramReceived => exact Minds.push _ _
  | datagramsUnblocked => exact Minds.push _ _

theorem pollLoop_minds {fuel : Nat} {live : Bool} (h : pollLoop lib id fuel b = some (b', live)) :
    Minds id.key b b' := by
  induction fuel generalizing b with
  | zero => cases h
  | succ fuel ih =>
    unfold pollLoop at h
    split at h
    · cases h
      exact .refl _ _
    · next c hget =>
      obtain ⟨hall, -⟩ := id_of_get hget
      have hput (inner : Conn) : Minds id.key b (b.put id.key { c with inner }) := .put hall rfl
      split at h
      · cases h
        exact hput _
      · exact ((hput _).trans (handleQuinnEvent_minds _ id _)).trans (ih h)

theorem settle_minds (b : QuinnBackend Conn) (id : QuinnConnectionId) :
    Minds id.key b (b.settle lib id) := by
  unfold settle
  split
  · exact .refl _ b
  · next c hget =>
    obtain ⟨hall, -⟩ := id_of_get hget
    split
    · exact forgetConnection_minds b id
    · have hput : Minds id.key b (b.put id.key (c.getDgramOutSizeEvent lib id.key).1) :=
        .put hall (getDgramOutSizeEvent_timer lib c id.key)
      exact (hput.trans (Minds.push _ _)).trans (scheduleQuinnTimeout_minds lib _ id)

theorem drainEvents_minds {fuel : Nat} (h : b.drainEvents lib id fuel = some b') : Minds id.key b b' := by
  obtain ⟨⟨b₁, live⟩, hpoll, rfl⟩ := Option.map_eq_some_iff.mp h
  have hpolled := pollLoop_minds hpoll
  cases live with
  | true => exact hpolled.trans (settle_minds b₁ id)
  | false => exact hpolled

end QuinnBackend

end Aquic.Backend.Quinn

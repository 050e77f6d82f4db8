import Aquic.Backend.Quiche.Follows
import Aquic.Util.Timer.Delivery

/-!
# Pending timers of a connection

A connection remembers the key of its last timer of each kind, and cancels that one before it
schedules the next. The keys go stale when a timer fires, and stale keys are passed to `cancel` as
well, when the connection is forgotten at the latest. What makes this sound is that a key stands for at
most one event of the wheel, for ever: so every event of the wheel is the one that some live
connection remembers.

This needs that keys are told apart by their epochs, and an epoch is a counter of 64 bits. The key of a
later bucket has the next epoch of its level. So the invariant holds in every run in which no level passes
epoch `2 ^ 64 - 2`, and breaks in the next epoch.
-/

namespace Aquic.Backend.Quiche

open Aquic.Bytes Aquic.Cid Aquic.Collections Aquic.Net Aquic.Run Aquic.Timer Aquic.Word

open QuicheBackend

namespace Ledger

/-- Every event of the wheel is remembered by its connection. -/
structure Timed (g : Ledger) : Prop where
  shape : g.timer.Shape
  fits : g.timer.EpochsFit
  issued : ∀ key entry kind timerKey, g.entries key = some entry →
    entry.timers kind = some timerKey → g.timer.Issued timerKey
  found : ∀ timerKey event, g.timer.lookup timerKey = some (some event) →
    ∃ entry, g.entries event.connectionKey = some entry ∧ entry.timers event.kind = some timerKey

variable {g g' : Ledger} {key : ConnectionKey} {entry : Entry}

namespace Timed

/-- The wheel and the entry of one connection change: what has to be checked. -/
theorem change (h : g.Timed) {timer : WheelTimer (Option TimerEvent)} (hshape : timer.Shape)
    (hfits : timer.EpochsFit) (hissued : ∀ timerKey, g.timer.Issued timerKey → timer.Issued timerKey)
    (key : ConnectionKey) {entry : Option Entry}
    (hentry : ∀ e ∈ entry, ∀ kind timerKey, e.timers kind = some timerKey → timer.Issued timerKey)
    (hothers : ∀ timerKey event, timer.lookup timerKey = some (some event) →
      event.connectionKey ≠ key → g.timer.lookup timerKey = some (some event))
    (hown : ∀ timerKey event, timer.lookup timerKey = some (some event) →
      event.connectionKey = key → ∃ e, entry = some e ∧ e.timers event.kind = some timerKey) :
    ({ g with timer }.put key entry).Timed := by
  refine ⟨hshape, hfits, ?_, ?_⟩
  · intro key' e kind timerKey hget hkind
    by_cases hkey : key' = key
    · subst hkey
      exact hentry e (by simpa [Ledger.put] using hget) kind timerKey hkind
    · have hget' : g.entries key' = some e := by simpa [Ledger.put, hkey] using hget
      exact hissued timerKey (h.issued key' e kind timerKey hget' hkind)
  · intro timerKey event hlookup
    by_cases hkey : event.connectionKey = key
    · obtain ⟨e, rfl, hkind⟩ := hown timerKey event hlookup hkey
      exact ⟨e, by simp [Ledger.put, hkey], hkind⟩
    · obtain ⟨e, hget, hkind⟩ := h.found timerKey event (hothers timerKey event hlookup hkey)
      exact ⟨e, by simpa [Ledger.put, hkey] using hget, hkind⟩

/-- A scheduled event of a connection has the key that its entry says. -/
theorem found_of_get (h : g.Timed) (hget : g.entries key = some entry) {timerKey : TimerKey}
    {event : TimerEvent} (hlookup : g.timer.lookup timerKey = some (some event))
    (hkey : event.connectionKey = key) : entry.timers event.kind = some timerKey := by
  obtain ⟨e, hget', hkind⟩ := h.found timerKey event hlookup
  rw [hkey, hget] at hget'
  obtain rfl := Option.some.inj hget'
  exact hkind

/-! ### One step -/

theorem register (h : g.Timed) (hfree : g.entries g.nextKey = none) :
    (g.put g.nextKey (some ⟨fun _ => none, false⟩)).Timed := by
  refine h.change h.shape h.fits (fun _ hissued => hissued) g.nextKey ?_ (fun _ _ hx _ => hx) ?_
  · intro e he kind timerKey hkind
    cases he
    cases hkind
  · intro timerKey event hlookup hkey
    obtain ⟨e, hget, -⟩ := h.found timerKey event hlookup
    rw [hkey, hfree] at hget
    cases hget

theorem report (h : g.Timed) (hget : g.entries key = some entry) :
    (g.put key (some { entry with closedEventSent := true })).Timed := by
  refine h.change h.shape h.fits (fun _ hissued => hissued) key ?_ (fun _ _ hx _ => hx) ?_
  · intro e he kind timerKey hkind
    cases he
    exact h.issued key entry kind timerKey hget hkind
  · intro timerKey event hlookup hkey
    exact ⟨_, rfl, h.found_of_get hget hlookup hkey⟩

theorem unschedule (h : g.Timed) (hget : g.entries key = some entry) (kind : TimerKind) :
    ((g.cancel (entry.timers kind)).put key
      (some { entry with timers := Function.update entry.timers kind none })).Timed := by
  have hrest {timer : WheelTimer (Option TimerEvent)}
      (hissued : ∀ timerKey, g.timer.Issued timerKey → timer.Issued timerKey) :
      ∀ e ∈ some { entry with timers := Function.update entry.timers kind none },
        ∀ kind' timerKey, e.timers kind' = some timerKey → timer.Issued timerKey := by
    intro e he kind' timerKey hkind'
    cases he
    by_cases heq : kind' = kind
    · subst heq
      simp at hkind'
    · simp only [Function.update_of_ne heq] at hkind'
      exact hissued timerKey (h.issued key entry kind' timerKey hget hkind')
  cases hkind : entry.timers kind with
  | none =>
    refine h.change h.shape h.fits (fun _ hissued => hissued) key (hrest fun _ hissued => hissued)
      (fun _ _ hx _ => hx) fun timerKey event hlookup hkey => ⟨_, rfl, ?_⟩
    have hevent := h.found_of_get hget hlookup hkey
    have hne : event.kind ≠ kind := by
      rintro rfl
      rw [hkind] at hevent
      cases hevent
    simpa only [Function.update_of_ne hne] using hevent
  | some cancelled =>
    have hcancelled := h.issued key entry kind cancelled hget hkind
    have hissued (timerKey : TimerKey) (hissued : g.timer.Issued timerKey) :
        (g.timer.cancel cancelled).Issued timerKey := hissued.cancel hcancelled
    -- the key stands for nothing any more, and the other keys for what they did
    have hlookup {timerKey : TimerKey} {event : TimerEvent}
        (hx : (g.timer.cancel cancelled).lookup timerKey = some (some event)) :
        timerKey ≠ cancelled ∧ g.timer.lookup timerKey = some (some event) := by
      rw [WheelTimer.lookup_cancel hcancelled] at hx
      split at hx
      · cases hgone : g.timer.lookup cancelled <;> simp [hgone] at hx
      · next hne => exact ⟨hne, hx⟩
    refine h.change (WheelTimer.cancel_shape h.shape _)
      ((WheelTimer.cancel_inStep _ _).epochsFit h.fits) hissued key (hrest hissued)
      (fun _ _ hx _ => (hlookup hx).2) fun timerKey event hx hkey => ⟨_, rfl, ?_⟩
    obtain ⟨hother, hx⟩ := hlookup hx
    have hevent := h.found_of_get hget hx hkey
    have hne : event.kind ≠ kind := by
      rintro rfl
      rw [hkind] at hevent
      exact hother (Option.some.inj hevent).symm
    simpa only [Function.update_of_ne hne] using hevent

/-- A new timer of a kind without one. -/
theorem add (h : g.Timed) (hget : g.entries key = some entry) {kind : TimerKind}
    (hkind : entry.timers kind = none) {due now : Instant}
    {timer : WheelTimer (Option TimerEvent)} {timerKey : TimerKey}
    (hschedule : g.timer.schedule (some ⟨key, kind⟩) due now = some (timer, timerKey)) :
    ({ g with timer }.put key
      (some { entry with timers := Function.update entry.timers kind (some timerKey) })).Timed := by
  have hadds := WheelTimer.schedule_adds h.shape h.fits hschedule
  have hlookup {k : TimerKey} {event : TimerEvent} (hx : timer.lookup k = some (some event)) :
      (k = timerKey ∧ event = ⟨key, kind⟩) ∨ g.timer.lookup k = some (some event) := by
    rw [hadds.lookup] at hx
    split at hx
    · next hk => exact .inl ⟨hk, (Option.some.inj (Option.some.inj hx)).symm⟩
    · exact .inr hx
  refine h.change (WheelTimer.schedule_shape h.shape hschedule)
    (WheelTimer.schedule_epochsFit h.fits hschedule) hadds.keeps key ?_ ?_ ?_
  · intro e he kind' k hkind'
    cases he
    by_cases heq : kind' = kind
    · subst heq
      obtain rfl : timerKey = k := by simpa using hkind'
      exact hadds.issued
    · simp only [Function.update_of_ne heq] at hkind'
      exact hadds.keeps k (h.issued key entry kind' k hget hkind')
  · intro k event hx hkey
    rcases hlookup hx with ⟨-, rfl⟩ | hx
    · exact absurd rfl hkey
    · exact hx
  · intro k event hx hkey
    refine ⟨_, rfl, ?_⟩
    rcases hlookup hx with ⟨rfl, rfl⟩ | hx
    · simp
    · have hevent := h.found_of_get hget hx hkey
      have hne : event.kind ≠ kind := by
        rintro rfl
        rw [hkind] at hevent
        cases hevent
      simpa only [Function.update_of_ne hne] using hevent

theorem forget (h : g.Timed) (hget : g.entries key = some entry)
    (htimers : ∀ kind, entry.timers kind = none) : (g.put key none).Timed := by
  refine h.change h.shape h.fits (fun _ hissued => hissued) key (fun e he => by cases he)
    (fun _ _ hx _ => hx) fun timerKey event hlookup hkey => ?_
  have hevent := h.found_of_get hget hlookup hkey
  rw [htimers] at hevent
  cases hevent

theorem step (h : g.Timed) (hstep : Step g g') : g'.Timed := by
  cases hstep with
  | push hroutine => exact ⟨h.shape, h.fits, h.issued, h.found⟩
  | register hfree isServer =>
    have hregister := h.register hfree
    exact ⟨hregister.shape, hregister.fits, hregister.issued, hregister.found⟩
  | report hget hunsent hterminates =>
    have hreport := h.report hget
    exact ⟨hreport.shape, hreport.fits, hreport.issued, hreport.found⟩
  | schedule hget kind hschedule =>
    -- the previous timer is cancelled first
    have hcancelled := h.unschedule hget kind
    have hadd := hcancelled.add (entries_put_self ..) (by simp) hschedule
    simp only [Function.update_idem] at hadd
    convert hadd using 1
    simp [Ledger.put, Ledger.cancel]
  | unschedule hget kind => exact h.unschedule hget kind
  | forget hget hsent htimers => exact h.forget hget htimers

theorem steps (h : g.Timed) (hsteps : Relation.ReflTransGen Step g g') : g'.Timed := by
  induction hsteps with
  | refl => exact h
  | tail _ hstep ih => exact ih.step hstep

end Timed

end Ledger

/-! ## Every run -/

namespace Running

variable {Conn Cfg G T : Type} {env : Env Conn Cfg G T}

/-- The condition on an operation: no level of the wheel passes epoch `2 ^ 64 - 2`. Only `tick` moves the
wheel. -/
def EpochsFit (s : Running Conn Cfg G T) (op : Operation) : Prop :=
  (op matches .tick) = true →
    WheelTimer.EpochsFitDuring (s.backend.time.clock.nanos + 1 - s.backend.time.timer.currentClock)
      s.backend.time.timer s.backend.time.clock.nanos ∧ s.backend.tick.time.timer.EpochsFit

instance (s : Running Conn Cfg G T) (op : Operation) : Decidable (EpochsFit s op) :=
  inferInstanceAs (Decidable (_ → _))

/-- The number of pending timers of a kind that the wheel holds for a connection. -/
def pending (s : Running Conn Cfg G T) (key : ConnectionKey) (kind : TimerKind) : Nat :=
  s.backend.time.timer.countP fun event => event = some ⟨key, kind⟩

variable {s s' : Running Conn Cfg G T}

theorem timed_init (h : Init s) : s.backend.ledger.Timed := by
  obtain ⟨-, config, listenAddr, clock, clockSys, rng, h⟩ := h
  obtain ⟨buffer, -, hbackend⟩ := Option.map_eq_some_iff.mp h
  rw [← hbackend]
  obtain ⟨timer, hnew, -⟩ := EventTimer.new_total (E := TimerEvent) clock
  have htimer : (EventTimer.new clock : EventTimer TimerEvent).timer = timer := by
    simp [EventTimer.new, hnew]
  obtain ⟨hshape, -, -, hadded⟩ := WheelTimer.new_shape (by decide) hnew
  refine ⟨?_, ?_, ?_, ?_⟩
  · show (EventTimer.new clock : EventTimer TimerEvent).timer.Shape
    rw [htimer]
    exact hshape
  · show (EventTimer.new clock : EventTimer TimerEvent).timer.EpochsFit
    rw [htimer]
    exact (WheelTimer.new_ticked hnew).epochsFit hshape (Nat.two_pow_pos _)
  · intro key entry kind timerKey hget
    simp [QuicheBackend.ledger, Connections.new, Connections.get, Slots.empty, Slots.get] at hget
  · intro timerKey event hlookup
    have hlookup' : (EventTimer.new clock : EventTimer TimerEvent).timer.lookup timerKey =
      some (some event) := hlookup
    rw [htimer, WheelTimer.lookup_new hadded] at hlookup'
    cases hlookup'

theorem timed_exec {op : Operation} (h : s.backend.ledger.Timed) (hfit : EpochsFit s op)
    (hexec : exec env s op = some s') : s'.backend.ledger.Timed := by
  obtain ⟨b, hcall, rfl⟩ := Option.map_eq_some_iff.mp hexec
  by_cases htick : op = .tick
  · subst htick
    cases hcall
    obtain ⟨hduring, hafter⟩ := hfit rfl
    obtain ⟨hshape, hdetaches⟩ := WheelTimer.progressLoop_detaches _ h.shape hduring
    exact ⟨hshape, hafter,
      fun key entry kind timerKey hget hkind =>
        hdetaches.keeps timerKey (h.issued key entry kind timerKey hget hkind),
      fun timerKey event hlookup => h.found timerKey event (hdetaches.lookup timerKey _ hlookup)⟩
  · by_cases hconsume : op = .consumeEvents
    · subst hconsume
      cases hcall
      exact ⟨h.shape, h.fits, h.issued, h.found⟩
    · exact h.steps (call_follows env htick hconsume hcall)

theorem timed_of_reachable (h : Reachable Init EpochsFit (exec env) s) :
    s.backend.ledger.Timed :=
  h.invariant (fun _ => timed_init) fun _ _ _ hinv hfit hexec => timed_exec hinv hfit hexec

/-- **At most one pending timer per connection and kind**, in every run in which no level of the wheel
passes epoch `2 ^ 64 - 2`, and none for a connection that is not registered (any more). -/
theorem pending_timer_unique (h : Reachable Init EpochsFit (exec env) s) (key : ConnectionKey)
    (kind : TimerKind) :
    s.pending key kind ≤ 1 ∧
      (s.backend.connections.get key = none → s.pending key kind = 0) := by
  have htimed := timed_of_reachable h
  constructor
  · refine WheelTimer.countP_le_one fun timerKey timerKey' x y hx hy hpx hpy => ?_
    obtain rfl := of_decide_eq_true hpx
    obtain rfl := of_decide_eq_true hpy
    obtain ⟨entry, hget, hkind⟩ := htimed.found timerKey _ hx
    have hkind' := htimed.found_of_get hget hy rfl
    exact Option.some.inj (hkind.symm.trans hkind')
  · intro hnone
    by_contra hne
    obtain ⟨timerKey, x, hx, hpx⟩ := WheelTimer.countP_pos_iff.mp (Nat.pos_of_ne_zero hne)
    obtain rfl := of_decide_eq_true hpx
    obtain ⟨entry, hget, -⟩ := htimed.found timerKey _ hx
    simp [QuicheBackend.ledger, hnone] at hget

/-- Client connections that never have anything to send and time out at a fixed time. -/
def expiringEnv (due : Instant) : Env IdleConnection Unit RandomIdGenerator Unit :=
  { idleEnv with
    quiche := { idleLibrary with isServer := fun _ => false, timeoutInstant := fun _ => some due } }

/-- A timeout fires and is scheduled again, although the key of the first is stale by then; another
connection is closed and forgotten while its timeout is pending. -/
theorem pending_timer_unique_rescheduled :
    ∃ s : Running IdleConnection Unit RandomIdGenerator Unit,
      s.pending 0 .quicheTimeout = 1 ∧ s.pending 0 .quicheTimeout ≤ 1 ∧
        s.backend.connections.get 1 = none ∧ s.pending 1 .quicheTimeout = 0 := by
  let second : Instant := ⟨10 ^ 6, by decide⟩
  let fourth : Instant := ⟨3 * 10 ^ 6, by decide⟩
  have hrun : ∃ s : Running IdleConnection Unit RandomIdGenerator Unit,
      Reachable Init EpochsFit (exec (expiringEnv second)) s ∧
        decide (s.pending 0 .quicheTimeout = 1 ∧ s.backend.connections.get 1 = none) = true :=
    exists_reachable (idleClient.map (⟨·, []⟩)) (fun s hs => by
        obtain ⟨b, hb, rfl⟩ := Option.map_eq_some_iff.mp hs
        exact idleClient_init hb)
      [.connect "" peerAddr none, .send [], .clockUpdate fourth 0, .tick, .connect "" peerAddr none,
        .send [], .connectionClose 1 0 [], .send []]
      (by decide +kernel)
  obtain ⟨s, hs, hstate⟩ := hrun
  obtain ⟨hone, hgone⟩ := of_decide_eq_true hstate
  exact ⟨s, hone, (pending_timer_unique hs 0 .quicheTimeout).1, hgone,
    (pending_timer_unique hs 1 .quicheTimeout).2 hgone⟩

/-! ## An epoch that wraps

A client without connections ticks once in a millisecond, until the epoch of the first level has
reached its last value. A timer that comes up in the next revolution then gets the epoch 0, and
`cancel` takes its key for a stale one. -/

/-- A level of 64 empty buckets after `n` ticks. -/
def quietLevel (n : Nat) : Level (Option TimerEvent) :=
  ⟨List.replicate 64 [], n % 64, n / 64 % 2 ^ usizeBits⟩

theorem quietLevel_tick (n : Nat) : (quietLevel n).tick = (quietLevel (n + 1), []) := by
  have hlength : (quietLevel n).buckets.length = 64 := List.length_replicate
  have hwf : (quietLevel n).Wf :=
    ⟨hlength ▸ ⟨6, rfl⟩, hlength ▸ Nat.mod_lt n (by decide), hlength ▸ by decide⟩
  have helements : (quietLevel n).buckets.getD (n % 64) [] = [] := by
    show (List.replicate 64 []).getD (n % 64) [] = []
    rw [List.getD_eq_getElem?_getD, List.getElem?_replicate, if_pos (Nat.mod_lt n (by decide))]
    rfl
  have hbuckets : (quietLevel n).buckets.set (n % 64) [] = List.replicate 64 [] := by
    refine List.ext_getElem? fun i => ?_
    rw [List.getElem?_set]
    split
    · next hi =>
      rw [hlength, if_pos (Nat.mod_lt n (by decide)), List.getElem?_replicate,
        if_pos (hi ▸ Nat.mod_lt n (by decide))]
    · rfl
  have hindex : ((quietLevel n).index + 1) % (quietLevel n).buckets.length = (n + 1) % 64 := by
    rw [hlength]
    exact Nat.mod_add_mod n 64 1
  have hepoch : wrappingAdd usizeBits (quietLevel n).epoch (if (n + 1) % 64 = 0 then 1 else 0) =
      (n + 1) / 64 % 2 ^ usizeBits := by
    have hdiv : (n + 1) / 64 = n / 64 + if (n + 1) % 64 = 0 then 1 else 0 := by
      split <;> omega
    rw [hdiv]
    exact Nat.mod_add_mod ..
  unfold Level.tick
  rw [Level.masked_index hwf, hindex]
  show (Level.mk ((quietLevel n).buckets.set (n % 64) []) _ _, _) = _
  rw [hbuckets, hepoch]
  exact Prod.ext rfl helements

/-- The wheel after `n` ticks without any events. -/
def quietWheel (n : Nat) : WheelTimer (Option TimerEvent) where
  levels := [quietLevel n]
  currentTick := n % 2 ^ usizeBits
  currentClock := n * 10 ^ 6
  startHz := tickDuration
  startCoverage := firstCoverage

theorem quietWheel_progress {n : Nat} {now : Instant} (hnow : now.nanos = n * 10 ^ 6) :
    (quietWheel n).progress now = (quietWheel (n + 1), [[]]) := by
  have hclock : (quietWheel n).currentClock = now.nanos := hnow.symm
  have htick : (quietWheel n).tick =
      ({ quietWheel n with levels := [quietLevel (n + 1)], currentTick := (n + 1) % 2 ^ usizeBits },
        [[]]) := by
    have hlevels (count : Nat) : WheelTimer.tickLevels (count + 1) [quietLevel n] =
        ([quietLevel (n + 1)], [[]]) := by
      cases count <;> simp [WheelTimer.tickLevels, quietLevel_tick]
    have hcounter : wrappingAdd usizeBits (n % 2 ^ usizeBits) 1 = (n + 1) % 2 ^ usizeBits :=
      Nat.mod_add_mod ..
    unfold WheelTimer.tick
    simp only [quietWheel, hlevels, hcounter]
  unfold WheelTimer.progress
  rw [hclock, Nat.add_sub_cancel_left, WheelTimer.progressLoop, if_pos hclock.le, htick]
  refine Prod.ext ?_ rfl
  have hnext : n * 10 ^ 6 + tickDuration.nanos = (n + 1) * 10 ^ 6 := (Nat.succ_mul n (10 ^ 6)).symm
  show ({ quietWheel n with
    levels := [quietLevel (n + 1)], currentTick := (n + 1) % 2 ^ usizeBits
    currentClock := n * 10 ^ 6 + tickDuration.nanos } : WheelTimer _) = _
  rw [hnext]
  rfl

theorem tick_lt {n : Nat} (h : n * 10 ^ 6 < durationLimit) : (n - 1) * 10 ^ 6 < durationLimit :=
  (Nat.mul_le_mul_right _ (Nat.sub_le n 1)).trans_lt h

/-- The client after `n` ticks. -/
def quietClient (n : Nat) (h : n * 10 ^ 6 < durationLimit) :
    Running IdleConnection Unit RandomIdGenerator Unit where
  backend :=
    { idleClient.get (by decide) with
      time :=
        { timer := quietWheel n
          startHz := rfl
          startCoverage := rfl
          firedEvents := []
          clock := ⟨(n - 1) * 10 ^ 6, tick_lt h⟩ } }
  consumed := []

theorem quietClient_reachable (due : Instant) (n : Nat) (h : n * 10 ^ 6 < durationLimit) :
    Reachable Init anyStep (exec (expiringEnv due)) (quietClient n h) := by
  induction n with
  | zero =>
    have hstart : idleClient = some (quietClient 0 h).backend := by
      rfl
    unfold idleClient at hstart
    exact .init ⟨rfl, _, _, _, _, _, hstart⟩
  | succ n ih =>
    have hn : n * 10 ^ 6 < durationLimit :=
      (Nat.mul_le_mul_right _ (Nat.le_succ n)).trans_lt h
    let updated := (quietClient n hn).backend.clockUpdate ⟨n * 10 ^ 6, hn⟩ 0
    have hclock : Reachable Init anyStep (exec (expiringEnv due)) ⟨updated, []⟩ :=
      (ih hn).step (i := .clockUpdate ⟨n * 10 ^ 6, hn⟩ 0) trivial rfl
    obtain ⟨startHz, startCoverage, htime⟩ :=
      EventTimer.tick_eq (t := updated.time) (quietWheel_progress rfl)
    have htick : Reachable Init anyStep (exec (expiringEnv due)) ⟨{ updated with
        time := ⟨quietWheel (n + 1), startHz, startCoverage, [[]], ⟨n * 10 ^ 6, hn⟩⟩ }, []⟩ := by
      refine hclock.step (i := .tick) trivial ?_
      show some (Running.mk { updated with time := updated.time.tick } []) = _
      rw [htime]
      rfl
    exact htick.step (i := .send []) trivial rfl

/-- The number of ticks after which the first level is in the middle of its last epoch. -/
def lastEpoch : Nat := 64 * (2 ^ usizeBits - 1) + 32

/-- **An epoch that wraps lets a connection have two pending timers of one kind**: the timeout is 40
ticks ahead, in the next revolution, and scheduling it again does not cancel it. -/
theorem pending_timer_doubled :
    ∃ (due : Instant) (s : Running IdleConnection Unit RandomIdGenerator Unit),
      Reachable Init anyStep (exec (expiringEnv due)) s ∧
        (s.backend.connections.get 0).isSome ∧ s.pending 0 .quicheTimeout = 2 := by
  let due : Instant := ⟨(lastEpoch + 39) * 10 ^ 6, by decide⟩
  have hstart := quietClient_reachable due lastEpoch (by decide)
  have hrun : (runAll anyStep (exec (expiringEnv due)) (quietClient lastEpoch (by decide))
      [.connect "" peerAddr none, .send []]).any fun s =>
        (s.backend.connections.get 0).isSome && s.pending 0 .quicheTimeout == 2 := by
    decide +kernel
  obtain ⟨s, hs, hpending⟩ := (Option.any_eq_true ..).mp hrun
  obtain ⟨hlive, hcount⟩ := Bool.and_eq_true_iff.mp hpending
  exact ⟨due, s, hstart.of_runAll hs, hlive, eq_of_beq hcount⟩

end Running

end Aquic.Backend.Quiche

import Aquic.Backend.Awaiting
import Aquic.Backend.Quiche.Send
import Aquic.Backend.Quiche.Timers
import Aquic.Lib.Attending

/-!
# Minding one connection

Almost every function of the backend is about one connection: it changes that connection, its timers and its
place in the queue, and lets the others be (`Minds`). Doing so, it never drops the connection from the
queue without forgetting it; only the loop of `send` does that.

A connection that is not in the queue is `Attended` if a timer will bring it back. The timers of the others are
not disturbed, because no two of them share a key.
-/

namespace Aquic.Backend.Quiche

open Aquic.Cid Aquic.Collections Aquic.Net Aquic.Polling Aquic.Run Aquic.Stream Aquic.Timer Aquic.Tokens

/-! ## Timers of different connections -/

namespace Ledger

variable {g g' : Ledger} {key : ConnectionKey} {entry : Entry}

/-- No timer key is remembered twice. -/
def Distinct (g : Ledger) : Prop :=
  ∀ key entry kind timerKey key' entry' kind', g.entries key = some entry →
    entry.timers kind = some timerKey → g.entries key' = some entry' →
      entry'.timers kind' = some timerKey → key' = key ∧ kind' = kind

/-- What the timers of a backend rely on. -/
structure Sound (g : Ledger) : Prop where
  timed : g.Timed
  distinct : g.Distinct

/-- An entry changes, but remembers no more timers. -/
theorem Distinct.put (h : g.Distinct) (hget : g.entries key = some entry) {entry' : Option Entry}
    (htimers : ∀ e ∈ entry', ∀ kind timerKey, e.timers kind = some timerKey →
      entry.timers kind = some timerKey) {timer : WheelTimer (Option TimerEvent)} :
    ({ g with timer }.put key entry').Distinct := by
  have hold {k : ConnectionKey} {e : Entry} (he : ({ g with timer }.put key entry').entries k = some e)
      {kind : TimerKind} {timerKey : TimerKey} (hkind : e.timers kind = some timerKey) :
      ∃ e', g.entries k = some e' ∧ e'.timers kind = some timerKey := by
    by_cases hk : k = key
    · subst hk
      rw [entries_put_self] at he
      exact ⟨entry, hget, htimers e he kind timerKey hkind⟩
    · simp only [Ledger.put, Function.update_of_ne hk] at he
      exact ⟨e, he, hkind⟩
  intro k e kind timerKey k' e' kind' he hkind he' hkind'
  obtain ⟨e₁, he₁, hkind₁⟩ := hold he hkind
  obtain ⟨e₂, he₂, hkind₂⟩ := hold he' hkind'
  exact h k e₁ kind timerKey k' e₂ kind' he₁ hkind₁ he₂ hkind₂

/-- A timer key that nobody remembers is remembered. -/
theorem Distinct.schedule (h : g.Distinct) (hget : g.entries key = some entry) (kind : TimerKind)
    {timerKey : TimerKey} {timer : WheelTimer (Option TimerEvent)}
    (hfresh : ∀ k e kind', g.entries k = some e → e.timers kind' ≠ some timerKey) :
    ({ g with timer }.put key
      (some { entry with timers := Function.update entry.timers kind (some timerKey) })).Distinct := by
  have hold {k : ConnectionKey} {e : Entry} {kind' : TimerKind} {timerKey' : TimerKey}
      (he : ({ g with timer }.put key (some { entry with
        timers := Function.update entry.timers kind (some timerKey) })).entries k = some e)
      (hkind' : e.timers kind' = some timerKey') :
      (k = key ∧ kind' = kind ∧ timerKey' = timerKey) ∨
        ∃ e', g.entries k = some e' ∧ e'.timers kind' = some timerKey' := by
    by_cases hk : k = key
    · subst hk
      rw [entries_put_self] at he
      cases he
      by_cases hsame : kind' = kind
      · subst hsame
        simp only [Function.update_self, Option.some.injEq] at hkind'
        exact .inl ⟨rfl, rfl, hkind'.symm⟩
      · simp only [Function.update_of_ne hsame] at hkind'
        exact .inr ⟨entry, hget, hkind'⟩
    · simp only [Ledger.put, Function.update_of_ne hk] at he
      exact .inr ⟨e, he, hkind'⟩
  intro k e kind₁ timerKey₁ k' e' kind₂ he hkind₁ he' hkind₂
  rcases hold he hkind₁ with ⟨rfl, rfl, rfl⟩ | ⟨e₁, he₁, hkind₁⟩
  · rcases hold he' hkind₂ with ⟨rfl, rfl, -⟩ | ⟨e₂, he₂, hkind₂⟩
    · exact ⟨rfl, rfl⟩
    · exact absurd hkind₂ (hfresh k' e₂ kind₂ he₂)
  · rcases hold he' hkind₂ with ⟨rfl, rfl, rfl⟩ | ⟨e₂, he₂, hkind₂⟩
    · exact absurd hkind₁ (hfresh k e₁ kind₁ he₁)
    · exact h k e₁ kind₁ timerKey₁ k' e₂ kind₂ he₁ hkind₁ he₂ hkind₂

theorem Sound.step (h : g.Sound) (hstep : Step g g') : g'.Sound := by
  refine ⟨h.timed.step hstep, ?_⟩
  cases hstep with
  | push => exact h.distinct
  | register hfree isServer =>
    intro k e kind timerKey k' e' kind' he hkind he' hkind'
    have hold {k : ConnectionKey} {e : Entry} {kind : TimerKind}
        (he : Function.update g.entries g.nextKey (some ⟨fun _ => none, false⟩) k = some e)
        (hkind : e.timers kind = some timerKey) : g.entries k = some e := by
      by_cases hk : k = g.nextKey
      · subst hk
        rw [Function.update_self] at he
        cases he
        cases hkind
      · rwa [Function.update_of_ne hk] at he
    exact h.distinct k e kind timerKey k' e' kind' (hold he hkind) hkind (hold he' hkind') hkind'
  | @report key entry hget =>
    have hput : (g.put key (some { entry with closedEventSent := true })).Distinct :=
      h.distinct.put hget fun e he kind timerKey hkind => by cases he; exact hkind
    exact hput
  | @schedule key entry hget kind due now timer timerKey hschedule =>
    have hcancelled := h.timed.unschedule hget kind
    have hadds := WheelTimer.schedule_adds hcancelled.shape hcancelled.fits hschedule
    refine h.distinct.schedule hget kind fun k e kind' he hkind' => ?_
    -- whatever is remembered was issued before
    have hissued := h.timed.issued k e kind' timerKey he hkind'
    apply hadds.fresh
    show ((entry.timers kind).elim g.timer g.timer.cancel).Issued timerKey
    cases hprevious : entry.timers kind with
    | none => exact hissued
    | some previous => exact hissued.cancel (h.timed.issued key entry kind previous hget hprevious)
  | unschedule hget kind =>
    refine h.distinct.put hget fun e he kind' timerKey hkind' => ?_
    cases he
    by_cases hsame : kind' = kind
    · subst hsame
      simp at hkind'
    · simpa only [Function.update_of_ne hsame] using hkind'
  | forget hget => exact h.distinct.put hget fun e he => by cases he

theorem Sound.steps (h : g.Sound) (hsteps : Relation.ReflTransGen Step g g') : g'.Sound := by
  induction hsteps with
  | refl => exact h
  | tail _ hstep ih => exact ih.step hstep

/-- The timer wheel holds the timeout of a connection. -/
def Armed (g : Ledger) (key : ConnectionKey) : Prop :=
  g.timer.Pending (some ⟨key, .quicheTimeout⟩)

/-- A timeout that is not cancelled stays. -/
theorem Sound.armed_cancel (h : g.Sound) (hget : g.entries key = some entry) (keys : List TimerKey)
    {k : ConnectionKey} (hkeys : ∀ timerKey ∈ keys, ∃ kind, entry.timers kind = some timerKey ∧
      ¬ (k = key ∧ kind = .quicheTimeout)) (harmed : g.Armed k) :
    { g with timer := keys.foldl WheelTimer.cancel g.timer }.Armed k := by
  apply WheelTimer.Pending.foldl_cancel harmed
  · intro timerKey hmem
    obtain ⟨kind, hkind, -⟩ := hkeys timerKey hmem
    exact h.timed.issued key entry kind timerKey hget hkind
  · intro timerKey hmem hlookup
    obtain ⟨kind, hkind, hother⟩ := hkeys timerKey hmem
    obtain ⟨e, he, htimer⟩ := h.timed.found timerKey _ hlookup
    obtain ⟨hk, hsame⟩ := h.distinct key entry kind timerKey k e .quicheTimeout hget hkind he htimer
    exact hother ⟨hk, hsame.symm⟩

theorem foldl_cancel (g : Ledger) (timerKey : Option TimerKey) :
    { g with timer := timerKey.toList.foldl WheelTimer.cancel g.timer } = g.cancel timerKey := by
  cases timerKey <;> rfl

/-- The events do not matter. -/
theorem Sound.of_eq (h : g.Sound) (htimer : g'.timer = g.timer) (hentries : g'.entries = g.entries) :
    g'.Sound := by
  obtain ⟨⟨hshape, hfits, hissued, hfound⟩, hdistinct⟩ := h
  rw [← htimer] at hshape hfits hissued hfound
  rw [← hentries] at hissued hfound
  refine ⟨⟨hshape, hfits, hissued, hfound⟩, ?_⟩
  unfold Distinct at hdistinct ⊢
  rwa [hentries]

/-- The timers that are remembered stay the same. -/
theorem Sound.put (h : g.Sound) (hget : g.entries key = some entry) {entry' : Entry}
    (htimers : entry'.timers = entry.timers) : (g.put key (some entry')).Sound := by
  refine ⟨h.timed.change h.timed.shape h.timed.fits (fun _ hissued => hissued) key ?_
    (fun _ _ hx _ => hx) ?_, h.distinct.put hget ?_⟩
  · intro e he kind timerKey hkind
    cases he
    rw [htimers] at hkind
    exact h.timed.issued key entry kind timerKey hget hkind
  · intro timerKey event hlookup hkey
    exact ⟨_, rfl, htimers ▸ h.timed.found_of_get hget hlookup hkey⟩
  · intro e he kind timerKey hkind
    cases he
    exact htimers ▸ hkind

/-- A timer that is set takes no timeout away, and sets one if it is of that kind. -/
theorem Sound.armed_schedule (h : g.Sound) (hget : g.entries key = some entry) {kind : TimerKind}
    {due now : Instant} {timer : WheelTimer (Option TimerEvent)} {timerKey : TimerKey}
    (hschedule : (g.cancel (entry.timers kind)).timer.schedule (some ⟨key, kind⟩) due now =
      some (timer, timerKey)) {k : ConnectionKey}
    (harmed : g.Armed k ∨ (k = key ∧ kind = .quicheTimeout)) : { g with timer }.Armed k := by
  have hcancelled := h.timed.unschedule hget kind
  have hadds := WheelTimer.schedule_adds hcancelled.shape hcancelled.fits hschedule
  by_cases hown : k = key ∧ kind = .quicheTimeout
  · obtain ⟨rfl, rfl⟩ := hown
    exact hadds.pending_self
  · have hkeys : ∀ cancelled ∈ (entry.timers kind).toList, ∃ kind, entry.timers kind = some cancelled ∧
        ¬ (k = key ∧ kind = .quicheTimeout) :=
      fun cancelled hmem => ⟨kind, Option.mem_toList.mp hmem, hown⟩
    have harmed := h.armed_cancel hget _ hkeys (harmed.resolve_right hown)
    rw [foldl_cancel] at harmed
    exact hadds.pending harmed

end Ledger

/-! ## Attendance -/

/-- Reporting the end of a connection does not touch its timers. -/
theorem Connection.Reported.timers {Conn : Type} {key : ConnectionKey} {entry : Entry}
    {c : Connection Conn} {events : List (ConnectionEvent ConnectionKey)}
    (h : Connection.Reported key entry c events) : c.timerKey = entry.timers := by
  rcases h with ⟨hsame, -⟩ | ⟨-, hsent, -⟩
  · exact congrArg Entry.timers hsame
  · exact congrArg Entry.timers hsent

namespace QuicheBackend

variable {Conn Cfg G T : Type} (env : Env Conn Cfg G T)

/-- The timeout of a connection has fired, and waits to be handled. -/
def Fired (b : QuicheBackend Conn Cfg G T) (key : ConnectionKey) : Prop :=
  b.time.Fired ⟨key, .quicheTimeout⟩

/-- What there is to attend to in a backend. -/
def attendance : Attendance (QuicheBackend Conn Cfg G T) (Connection Conn) ConnectionKey where
  queue b := b.connections.active.toList
  conn b := b.connections.get
  Sound b := b.ledger.Sound
  Awaited b key := b.time.Awaits ⟨key, .quicheTimeout⟩

/-- quiche asks for a timeout. -/
def HasTimeout (c : Connection Conn) : Prop := env.quiche.timeoutInstant c.inner ≠ none

abbrev Attended (b : QuicheBackend Conn Cfg G T) (key : ConnectionKey) : Prop :=
  attendance.Attended (HasTimeout env) b key

abbrev Queued (b : QuicheBackend Conn Cfg G T) (key : ConnectionKey) : Prop := attendance.Queued b key

abbrev Tended (others : Set ConnectionKey) (b : QuicheBackend Conn Cfg G T) : Prop :=
  attendance.Tended (HasTimeout env) others b

abbrev Minds (key : ConnectionKey) (b b' : QuicheBackend Conn Cfg G T) : Prop := attendance.Minds key b b'

variable {env} {b b' b'' : QuicheBackend Conn Cfg G T} {key : ConnectionKey} {c c' : Connection Conn}

namespace Minds

/-- No timer of another connection is disturbed. -/
theorem of_timers (hothers : ∀ k ≠ key, b'.connections.get k = b.connections.get k)
    (hactive : ∀ k ≠ key, k ∈ b.connections.active.toList → k ∈ b'.connections.active.toList)
    (hqueued : b.Queued key → b'.Queued key) (hfired : b'.time.firedEvents = b.time.firedEvents)
    (htimers : b.ledger.Sound → b'.ledger.Sound ∧ ∀ k ≠ key, b.ledger.Armed k → b'.ledger.Armed k) :
    Minds key b b' := by
  refine ⟨hothers, hactive, hqueued, fun hsound => ?_⟩
  obtain ⟨hsound', harmed⟩ := htimers hsound
  refine ⟨hsound', fun k hk => Or.imp (harmed k hk) fun hb => ?_⟩
  unfold EventTimer.Fired
  rwa [hfired]

/-- Neither the connections nor the timers change. -/
theorem of_eq (hall : b'.connections.all = b.connections.all)
    (hactive : b'.connections.active = b.connections.active) (htime : b'.time = b.time) :
    Minds key b b' := by
  have hget : b'.connections.get = b.connections.get := by
    unfold Connections.get
    rw [hall]
  have htimer : b'.ledger.timer = b.ledger.timer := congrArg EventTimer.timer htime
  have hentries : b'.ledger.entries = b.ledger.entries := by
    unfold ledger
    simp only [hget]
  refine of_timers (fun k _ => congrFun hget k) (fun k _ hk => hactive ▸ hk) (fun hqueued => ?_)
    (congrArg EventTimer.firedEvents htime) fun hsound => ⟨hsound.of_eq htimer hentries, ?_⟩
  · show (b'.connections.get key).isSome → key ∈ b'.connections.active.toList
    rw [hget, hactive]
    exact hqueued
  · intro k _ harmed
    unfold Ledger.Armed
    rw [htimer]
    exact harmed

theorem push (b : QuicheBackend Conn Cfg G T) (events : List (Event ConnectionKey)) :
    Minds key b (b.push events) := of_eq rfl rfl rfl

theorem put (hget : b.connections.get key = some c) (htimers : c'.timerKey = c.timerKey) :
    Minds key b (b.put key c') := by
  refine of_timers (fun k hk => Slots.get_set_of_ne hk) (fun _ _ => id)
    (fun hqueued _ => hqueued (Option.isSome_of_eq_some hget)) rfl fun hsound => ?_
  rw [ledger_put hget]
  exact ⟨hsound.put (entries_ledger hget) htimers, fun _ _ => id⟩

/-- The connection is marked. -/
theorem mark (b : QuicheBackend Conn Cfg G T) (key : ConnectionKey) {connections : Connections Conn}
    (h : connections = { b.connections with active := b.connections.active.replace key }) :
    Minds key b { b with connections } := by
  subst h
  exact of_timers (fun _ _ => rfl) (fun k _ hk => LinkedHashSet.mem_replace.mpr (.inl hk))
    (fun _ _ => LinkedHashSet.mem_replace.mpr (.inr rfl)) rfl fun hsound => ⟨hsound, fun _ _ => id⟩

end Minds

/-! ## Functions below the operations -/

theorem foldl_cancel_time (keys : List TimerKey) (time : EventTimer TimerEvent) :
    (keys.foldl EventTimer.cancel time).timer = keys.foldl WheelTimer.cancel time.timer ∧
      (keys.foldl EventTimer.cancel time).firedEvents = time.firedEvents := by
  induction keys generalizing time with
  | nil => exact ⟨rfl, rfl⟩
  | cons timerKey keys ih => exact ih (time.cancel timerKey)

theorem log_minds (b : QuicheBackend Conn Cfg G T) (key : ConnectionKey) (call : Call) :
    Minds key b (b.log call) := .of_eq rfl rfl rfl

theorem forgetConnection_minds (b : QuicheBackend Conn Cfg G T) (key : ConnectionKey) :
    Minds key b (b.forgetConnection env key) := by
  cases hget : b.connections.get key with
  | none =>
    rw [forgetConnection_dead env hget]
    exact .refl key b
  | some c =>
    have hforgets := forgetConnection_forgets env (Option.isSome_of_eq_some hget)
    have hsteps := forgetConnection_follows env b key
    -- the timers of the connection are cancelled, and no others
    have htime : ∃ keys : List TimerKey, (∀ timerKey ∈ keys, ∃ kind, c.entry.timers kind = some timerKey) ∧
        (b.forgetConnection env key).time.timer = keys.foldl WheelTimer.cancel b.time.timer ∧
        (b.forgetConnection env key).time.firedEvents = b.time.firedEvents := by
      unfold forgetConnection
      split
      · exact ⟨[], fun _ hmem => absurd hmem List.not_mem_nil, rfl, rfl⟩
      · next connections c₁ hremove =>
        obtain ⟨c₀, hget₀, hentry, -⟩ := ledger_remove env hremove
        rw [hget] at hget₀
        obtain rfl := Option.some.inj hget₀
        have hreported := c₁.getCloseEvent_reported env.quiche key
        generalize c₁.getCloseEvent env.quiche key = closed at hreported ⊢
        have htimers : closed.1.entry.timers = c.entry.timers :=
          hreported.timers.trans (congrArg Entry.timers hentry)
        refine ⟨_, fun timerKey hmem => ?_, foldl_cancel_time _ b.time⟩
        rw [← htimers]
        rw [List.reduceOption_mem_iff] at hmem
        simp only [List.mem_cons, List.not_mem_nil, or_false] at hmem
        rcases hmem with hmem | hmem | hmem
        · exact ⟨.pacer, hmem.symm⟩
        · exact ⟨.quicheTimeout, hmem.symm⟩
        · exact ⟨.establishTimeout, hmem.symm⟩
    obtain ⟨keys, hkeys, htimer, hfired⟩ := htime
    refine .of_timers (fun k hk => ?_) (fun k hk hmem => ?_) (fun _ hlive => ?_) hfired fun hsound => ?_
    · rw [hforgets.get, if_neg hk]
    · rw [hforgets.active]
      exact LinkedHashSet.mem_remove.mpr ⟨hk, hmem⟩
    · have hdead : (b.forgetConnection env key).connections.get key = none := by
        rw [hforgets.get, if_pos rfl]
      exact absurd hlive (by simp [attendance, hdead])
    · refine ⟨hsound.steps hsteps, fun k hk harmed => ?_⟩
      have harmed := hsound.armed_cancel (entries_ledger hget) _ (fun timerKey hmem => by
        obtain ⟨kind, hkind⟩ := hkeys timerKey hmem
        exact ⟨kind, hkind, fun hown => hk hown.1⟩) harmed
      unfold Ledger.Armed
      show (b.forgetConnection env key).time.timer.Pending _
      rw [htimer]
      exact harmed

/-! ### Timers -/

theorem scheduleTimer_of_none {kind : TimerKind} {due : Connection Conn → Option Instant}
    (h : (b.connections.get key).bind due = none) : b.scheduleTimer key kind due = b := by
  unfold scheduleTimer
  cases hget : b.connections.get key with
  | none => rfl
  | some c =>
    rw [hget, Option.bind_some] at h
    simp only [h]

/-- What setting a timer of a connection does. -/
structure Sets (key : ConnectionKey) (kind : TimerKind) (c : Connection Conn)
    (b b' : QuicheBackend Conn Cfg G T) : Prop where
  connections : ∃ c', b'.connections = b.connections.put key c' ∧ c'.inner = c.inner
  fired : b'.time.firedEvents = b.time.firedEvents
  armed k : b.ledger.Sound → (b.ledger.Armed k ∨ (k = key ∧ kind = .quicheTimeout)) → b'.ledger.Armed k

theorem scheduleTimer_sets (hget : b.connections.get key = some c) (kind : TimerKind)
    {due : Connection Conn → Option Instant} {time : Instant} (hdue : due c = some time) :
    Sets key kind c b (b.scheduleTimer key kind due) := by
  have hinner : ((c.popTimerKey kind).1.setTimerKey kind
      (some (b.time.reschedule ⟨key, kind⟩ time (c.timerKey kind)).2)).inner = c.inner := by
    cases kind <;> rfl
  have hschedule := b.time.reschedule_eq ⟨key, kind⟩ time (c.timerKey kind)
  have hfired := b.time.reschedule_firedEvents ⟨key, kind⟩ time (c.timerKey kind)
  unfold scheduleTimer
  simp only [hget, hdue]
  rw [Connection.popTimerKey_eq] at hinner ⊢
  exact ⟨⟨_, rfl, hinner⟩, hfired,
    fun k hsound harmed => hsound.armed_schedule (entries_ledger hget) hschedule harmed⟩

theorem scheduleTimer_minds (b : QuicheBackend Conn Cfg G T) (key : ConnectionKey) (kind : TimerKind)
    (due : Connection Conn → Option Instant) : Minds key b (b.scheduleTimer key kind due) := by
  cases hdue : (b.connections.get key).bind due with
  | none =>
    rw [scheduleTimer_of_none hdue]
    exact .refl key b
  | some time =>
    obtain ⟨c, hget, hdue⟩ := Option.bind_eq_some_iff.mp hdue
    have hsteps := scheduleTimer_follows b key kind due
    obtain ⟨⟨c', hconnections, -⟩, hfired, harmed⟩ := scheduleTimer_sets hget kind hdue
    refine .of_timers (fun k hk => ?_) (fun k _ hmem => ?_) (fun hqueued _ => ?_) hfired fun hsound => ?_
    · rw [hconnections]
      exact Slots.get_set_of_ne hk
    · rw [hconnections]
      exact hmem
    · show key ∈ (b.scheduleTimer key kind due).connections.active.toList
      rw [hconnections]
      exact hqueued (Option.isSome_of_eq_some hget)
    · exact ⟨hsound.steps hsteps, fun k _ hk => harmed k hsound (.inl hk)⟩

variable (env) in
theorem scheduleQuicheTimeout_minds (b : QuicheBackend Conn Cfg G T) (key : ConnectionKey) :
    Minds key b (b.scheduleQuicheTimeout env key) :=
  scheduleTimer_minds ..

/-- The other timers of a connection do not matter. -/
theorem scheduleTimer_attended (hsound : b.ledger.Sound) (h : b.Attended env key) (kind : TimerKind)
    (due : Connection Conn → Option Instant) : (b.scheduleTimer key kind due).Attended env key := by
  cases hdue : (b.connections.get key).bind due with
  | none =>
    rw [scheduleTimer_of_none hdue]
    exact h
  | some time =>
    obtain ⟨c, hget, hdue⟩ := Option.bind_eq_some_iff.mp hdue
    obtain ⟨⟨c', hconnections, hinner⟩, hfired, harmed⟩ := scheduleTimer_sets hget kind hdue
    intro c₁ hget₁ htimeout
    have hget₁ : (b.connections.put key c').get key = some c₁ := hconnections ▸ hget₁
    obtain rfl := Option.some.inj ((get_put hget c').symm.trans hget₁)
    unfold HasTimeout at htimeout
    rw [hinner] at htimeout
    rcases h c hget htimeout with hb | hb
    · exact .inl (harmed key hsound (.inl hb))
    · refine .inr ?_
      unfold EventTimer.Fired
      rwa [hfired]

/-- **`schedule_quiche_timeout`** leaves the connection attended. -/
theorem scheduleQuicheTimeout_attended (hsound : b.ledger.Sound) (key : ConnectionKey) :
    (b.scheduleQuicheTimeout env key).Attended env key := by
  unfold scheduleQuicheTimeout
  intro c₁ hget₁ htimeout
  cases hdue : (b.connections.get key).bind fun c => env.quiche.timeoutInstant c.inner with
  | none =>
    rw [scheduleTimer_of_none hdue] at hget₁
    have hget₁ : b.connections.get key = some c₁ := hget₁
    rw [hget₁, Option.bind_some] at hdue
    exact absurd hdue htimeout
  | some time =>
    obtain ⟨c, hget, hdue⟩ := Option.bind_eq_some_iff.mp hdue
    exact .inl ((scheduleTimer_sets hget .quicheTimeout hdue).armed key hsound (.inr ⟨rfl, rfl⟩))

theorem scheduleEstablishTimeout_minds (h : b.scheduleEstablishTimeout env key = some b') :
    Minds key b b' := by
  unfold scheduleEstablishTimeout at h
  split at h
  · cases h
    exact .refl key b
  · simp only at h
    split at h
    · cases h
      exact .refl key b
    · obtain ⟨due, -, rfl⟩ := Option.map_eq_some_iff.mp h
      apply scheduleTimer_minds

/-! ### Events of quiche -/

variable (env) in
theorem writeStreamDgramEvents_minds (b : QuicheBackend Conn Cfg G T) (key : ConnectionKey) :
    Minds key b (b.writeStreamDgramEvents env key) := by
  unfold writeStreamDgramEvents
  split
  · exact .refl key b
  · next c hget =>
    refine (Minds.put hget (congrArg Entry.timers (?_ : Connection.entry _ = c.entry))).trans (Minds.push _ _)
    refine (getDgramOutSizeEvent_announces env.quiche _ key).1.trans ?_
    refine (announces_if _ (getDgramOutAvailableEvent_announces _ key)).1.trans ?_
    exact (announces_if _ (getDgramInAvailableEvent_announces _ key)).1

theorem updateScidsDict_minds (b : QuicheBackend Conn Cfg G T) (key : ConnectionKey) :
    Minds key b { b with connections := b.connections.updateScidsDict env.quiche key } := by
  unfold Connections.updateScidsDict
  split
  · exact .refl key b
  · next c hget =>
    have hput : Minds key b (b.put key { c with inner := (env.quiche.retiredScids c.inner).1 }) :=
      .put hget rfl
    exact hput.trans (Minds.of_eq rfl rfl rfl)

theorem markVerified_minds (b : QuicheBackend Conn Cfg G T) (key : ConnectionKey) :
    Minds key b { b with connections := b.connections.markVerified env.quiche key } := by
  unfold Connections.markVerified
  split
  · exact .refl key b
  · next c hget =>
    split
    · have hput : Minds key b (b.put key { c with peerAddressVerified := true }) := .put hget rfl
      exact hput.trans (Minds.of_eq rfl rfl rfl)
    · exact .refl key b

/-- Marking a connection. -/
theorem getMarkActive_minds {connections : Connections Conn}
    (h : b.connections.getMarkActive key = some (connections, c)) :
    connections.get key = some c ∧ Minds key b { b with connections } ∧
      { b with connections }.Queued key := by
  obtain ⟨c₁, hget, heq⟩ := Option.map_eq_some_iff.mp h
  obtain ⟨rfl, rfl⟩ := Prod.mk.inj heq
  exact ⟨hget, .mark b key rfl, fun _ => LinkedHashSet.mem_replace.mpr (.inr rfl)⟩

theorem allocateScids_minds (b : QuicheBackend Conn Cfg G T) (key : ConnectionKey) :
    Minds key b (b.allocateScids env key) := by
  unfold allocateScids
  split
  · exact .refl key b
  · split
    · next server connections c _ hmark =>
      obtain ⟨hget, hactive, -⟩ := getMarkActive_minds hmark
      simp only
      split
      · have hconfig (config : Config Cfg G T) :
            Minds key { b with connections } { b with connections, config } := .of_eq rfl rfl rfl
        refine .trans ?_ (updateScidsDict_minds _ key)
        exact hactive.trans ((hconfig _).trans (Minds.put hget rfl))
      · exact hactive
    · exact .refl key b

theorem handlePathEvents_minds (b : QuicheBackend Conn Cfg G T) (key : ConnectionKey) :
    Minds key b (b.handlePathEvents env key) := by
  unfold handlePathEvents
  split
  · exact .refl key b
  · next c hget =>
    generalize env.quiche.pathEvents c.inner = result
    obtain ⟨inner, events⟩ := result
    have hput : Minds key b (b.put key { c with inner }) := .put hget rfl
    refine hput.trans ?_
    simp only
    generalize b.put key { c with inner } = b₁
    generalize hb₂ : (if events.contains .validated then
      { b₁ with connections := b₁.connections.markVerified env.quiche key } else b₁) = b₂
    have hverified : Minds key b₁ b₂ := by
      rw [← hb₂]
      split
      · apply markVerified_minds
      · exact .refl key b₁
    refine hverified.trans ?_
    split
    · apply allocateScids_minds
    · exact .refl key b₂

/-- A timer is cancelled that is not the timeout of quiche. -/
theorem Minds.unschedule (hget : b.connections.get key = some c) (kind : TimerKind)
    (hkind : kind ≠ .quicheTimeout)
    (hconnections : b'.connections = b.connections.put key (c.setTimerKey kind none))
    (htimer : b'.time.timer = (c.timerKey kind).toList.foldl WheelTimer.cancel b.time.timer)
    (hfired : b'.time.firedEvents = b.time.firedEvents) : Minds key b b' := by
  have hentries : b'.ledger.entries = (b.put key (c.setTimerKey kind none)).ledger.entries := by
    unfold ledger
    rw [hconnections]
    rfl
  rw [ledger_put hget, c.entry_setTimerKey] at hentries
  refine .of_timers (fun k hk => ?_) (fun k _ hmem => ?_) (fun hqueued _ => ?_) hfired fun hsound => ?_
  · rw [hconnections]
    exact Slots.get_set_of_ne hk
  · rw [hconnections]
    exact hmem
  · show key ∈ b'.connections.active.toList
    rw [hconnections]
    exact hqueued (Option.isSome_of_eq_some hget)
  · have hstep := hsound.step (.unschedule b.ledger (entries_ledger hget) kind)
    have hcancel := b.ledger.foldl_cancel (c.timerKey kind)
    refine ⟨hstep.of_eq (htimer.trans (congrArg Ledger.timer hcancel)) hentries, fun k hk harmed => ?_⟩
    have harmed := hsound.armed_cancel (entries_ledger hget) (c.timerKey kind).toList
      (fun timerKey hmem => ⟨kind, Option.mem_toList.mp hmem, fun hown => hkind hown.2⟩) harmed
    unfold Ledger.Armed
    show b'.time.timer.Pending _
    rw [htimer]
    exact harmed

theorem checkConnectionHandshakeProgress_minds (b : QuicheBackend Conn Cfg G T)
    (key : ConnectionKey) : Minds key b (b.checkConnectionHandshakeProgress env key) := by
  unfold checkConnectionHandshakeProgress
  split
  · exact .refl key b
  · next c hget =>
    split
    · refine .trans (Minds.unschedule hget .establishTimeout (by decide) ?_ ?_ ?_)
        (allocateScids_minds _ key)
      · cases c.timerEstablishTimeoutKey <;> rfl
      · show _ = c.timerEstablishTimeoutKey.toList.foldl _ _
        cases c.timerEstablishTimeoutKey <;> rfl
      · cases c.timerEstablishTimeoutKey <;> rfl
    · exact .refl key b

/-! ### Packets -/

theorem sendPackets_minds {out out' : List Message} {result : SendResult}
    (h : b.sendPackets env key out = some (b', out', result)) :
    Minds key b b' ∧ (b.ledger.Sound → b'.Attended env key) := by
  unfold sendPackets at h
  split at h
  · next hget =>
    cases h
    exact ⟨.refl key b, fun _ => Attendance.attended_of_dead hget⟩
  · next c hget =>
    split at h
    · cases h
    · next written hwritten =>
      obtain ⟨inner, hinner⟩ := Io.writePending_connection hwritten
      have hio : Minds key b { b with io := written.io } := .of_eq rfl rfl rfl
      have hput : Minds key { b with io := written.io }
          ({ b with io := written.io }.put key written.connection) :=
        .put hget (by rw [hinner]; rfl)
      have hwrite := ((hio.trans hput).trans (log_minds _ key (.writePending key))).trans
        (writeStreamDgramEvents_minds env _ key)
      simp only at h
      generalize ((({ b with io := written.io }.put key written.connection).log
        (.writePending key)).writeStreamDgramEvents env key) = b₁ at h hwrite
      have hschedule := hwrite.trans (scheduleQuicheTimeout_minds env b₁ key)
      have hattended (hsound : b.ledger.Sound) : (b₁.scheduleQuicheTimeout env key).Attended env key :=
        scheduleQuicheTimeout_attended (hwrite.awaited hsound).1 key
      split at h <;> cases h
      · exact ⟨hschedule, hattended⟩
      · refine ⟨hschedule.trans (scheduleTimer_minds ..), fun hsound => ?_⟩
        exact scheduleTimer_attended (hschedule.awaited hsound).1 (hattended hsound) _ _
      · exact ⟨hschedule, hattended⟩
      · exact ⟨hschedule, hattended⟩
      · exact ⟨hschedule, hattended⟩

end QuicheBackend

end Aquic.Backend.Quiche

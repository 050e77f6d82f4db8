import Aquic.Backend.Quiche.Follows
import Aquic.Backend.Quinn.Follows
import Aquic.Backend.Terminated
import Mathlib.Data.List.Palindrome

/-!
# The order in which events are consumed

The owner of a backend learns about a connection from its events, so the `New` event should be the
first it sees of it. Backends push events in that order: an event is about a live connection, and a
connection is live after its `New` event. But `BackendEvents::consume` pops the events from the back,

    while let Some(event) = self.events.pop() {
        func(event);
    }

so that every drain turns the order around. It goes unnoticed exactly when the events that wait are a
palindrome, as they are when there is at most one.

A `Notifier` is what both backends have in common here, so that this is proved once.
-/

namespace Aquic.Backend

open Aquic.Run

/-! ## Announced before anything else -/

section

variable {Id : Type} [DecidableEq Id]

/-- **The first event that mentions a connection is its `New` event.** -/
def NewFirst (events : List (Event Id)) : Prop :=
  ∀ id e, events.find? (fun e => e.connectionId = id) = some e → e.introduces = some id

theorem NewFirst.of_prefix {events events' : List (Event Id)} (h : NewFirst events')
    (hpre : events <+: events') : NewFirst events := by
  obtain ⟨rest, rfl⟩ := hpre
  intro id e hfind
  refine h id e ?_
  rw [List.find?_append, hfind, Option.some_or]

/-- Events are added that introduce a connection, or are about one that was introduced. -/
theorem NewFirst.append {events events' : List (Event Id)} (h : NewFirst events)
    (hadded : ∀ e ∈ events', e.introduces = some e.connectionId ∨
      ∃ e' ∈ events, e'.introduces = some e.connectionId) : NewFirst (events ++ events') := by
  intro id e hfind
  rw [List.find?_append, Option.or_eq_some_iff] at hfind
  rcases hfind with hfind | ⟨hnone, hfind⟩
  · exact h id e hfind
  · have hid := of_decide_eq_true (List.find?_some hfind :)
    rcases hadded e (List.mem_of_find?_eq_some hfind) with hnew | ⟨e', he', hnew⟩
    · rw [hnew, hid]
    · -- then it would have been found before
      have hother := List.find?_eq_none.mp hnone e' he'
      rw [Event.connectionId_of_introduces hnew, hid] at hother
      exact absurd (decide_eq_true rfl) hother

namespace Roster

theorem live_of_update {r : Roster Id} {id id' : Id} {flag : Option Bool}
    (h : (Function.update r.sent id flag id').isSome) : (id' = id ∧ flag.isSome) ∨ r.Live id' := by
  by_cases hid : id' = id
  · subst hid
    rw [Function.update_self] at h
    exact .inl ⟨rfl, h⟩
  · rw [Function.update_of_ne hid] at h
    exact .inr h

/-- Live connections were introduced, and nothing was said about a connection before that. -/
structure Introduced (r : Roster Id) : Prop where
  live : ∀ id, r.Live id → ∃ e ∈ r.events, e.introduces = some id
  first : NewFirst r.events

theorem Step.events_prefix {r r' : Roster Id} (hstep : Step r r') : r.events <+: r'.events := by
  cases hstep with
  | push hordinary => exact List.prefix_append ..
  | register hfree isServer => exact List.prefix_append ..
  | report hunsent hterminates => exact List.prefix_append ..
  | forget hsent => exact List.prefix_rfl
  | replace id => exact List.prefix_rfl

theorem Step.introduced {r r' : Roster Id} (hstep : Step r r') (h : r.Introduced) :
    r'.Introduced := by
  -- a connection that was live before is introduced by the events before
  have hold {events : List (Event Id)} {id : Id} (hlive : r.Live id) :
      ∃ e ∈ r.events ++ events, e.introduces = some id := by
    obtain ⟨e, he, hnew⟩ := h.live id hlive
    exact ⟨e, List.mem_append_left _ he, hnew⟩
  cases hstep with
  | push hordinary =>
    exact ⟨fun id hlive => hold hlive,
      h.first.append fun e he => .inr (h.live _ (hordinary e he).live)⟩
  | @register id hfree isServer =>
    refine ⟨fun id' hlive => ?_, h.first.append fun e he => .inl ?_⟩
    · rcases live_of_update hlive with ⟨rfl, -⟩ | hlive
      · exact ⟨_, List.mem_append_right _ (List.mem_singleton_self _), rfl⟩
      · exact hold hlive
    · obtain rfl := List.mem_singleton.mp he
      rfl
  | @report id hunsent e hterminates =>
    have hid : r.Live id := Option.isSome_of_eq_some hunsent
    refine ⟨fun id' hlive => hold ?_, h.first.append fun e' he' => .inr ?_⟩
    · rcases live_of_update hlive with ⟨rfl, -⟩ | hlive
      · exact hid
      · exact hlive
    · obtain rfl := List.mem_singleton.mp he'
      rw [Event.connectionId_of_terminates hterminates]
      exact h.live id hid
  | forget hsent =>
    refine ⟨fun id' hlive => h.live id' ?_, h.first⟩
    exact (live_of_update hlive).resolve_left fun hnone => absurd hnone.2 Bool.false_ne_true
  | replace id =>
    refine ⟨fun id' hlive => h.live id' ?_, h.first⟩
    exact (live_of_update hlive).resolve_left fun hnone => absurd hnone.2 Bool.false_ne_true

/-- Whatever a run of steps adds, it adds at the end. -/
theorem events_prefix_of_steps {r r' : Roster Id} (hsteps : Relation.ReflTransGen Step r r') :
    r.events <+: r'.events := by
  induction hsteps with
  | refl => exact List.prefix_rfl
  | tail _ hstep ih => exact ih.trans hstep.events_prefix

/-- Connections stay introduced, also by events that came earlier. -/
theorem Introduced.steps {r r' : Roster Id} {earlier : List (Event Id)}
    (h : (r.after earlier).Introduced) (hsteps : Relation.ReflTransGen Step r r') :
    (r'.after earlier).Introduced := by
  induction hsteps with
  | refl => exact h
  | tail _ hstep ih => exact (hstep.after earlier).introduced ih

end Roster

end

/-! ## Notifiers -/

/-- A system that announces connections to its owner: its steps are `exec`, and those for which `drains`
holds hand the events of its roster over. -/
structure Notifier (σ ι Id : Type) where
  init : σ → Prop
  exec : σ → ι → Option σ
  drains : ι → Bool
  /-- The live connections, and the events that wait. -/
  roster : σ → Roster Id
  /-- The events that were handed over. -/
  consumed : σ → List (Event Id)

/-- A state of a run, with the history of the events that were pushed. -/
structure Recorded (σ Id : Type) where
  state : σ
  pushed : List (Event Id)

namespace Notifier

variable {σ ι Id : Type} [DecidableEq Id] (N : Notifier σ ι Id)

/-- The events that wait. -/
def events (s : σ) : List (Event Id) := (N.roster s).events

structure Lawful : Prop where
  init s : N.init s → N.roster s = ⟨fun _ => none, [], []⟩ ∧ N.consumed s = []
  step s i s' : N.drains i = false → N.exec s i = some s' →
    Relation.ReflTransGen Roster.Step (N.roster s) (N.roster s') ∧ N.consumed s' = N.consumed s
  drain s i s' : N.drains i = true → N.exec s i = some s' →
    N.roster s' = { N.roster s with events := [] } ∧
      N.consumed s' = N.consumed s ++ consume (N.events s)

/-- Nothing was pushed at the beginning. -/
def Init (s : Recorded σ Id) : Prop := N.init s.state ∧ s.pushed = []

/-- One step. Events are pushed at the end, so that the new ones are those behind the old ones. -/
def record (s : Recorded σ Id) (i : ι) : Option (Recorded σ Id) :=
  (N.exec s.state i).map fun state =>
    { state, pushed := s.pushed ++ (N.events state).drop (N.events s.state).length }

/-- Events are consumed in the order in which they were pushed. -/
def InOrder (s : Recorded σ Id) : Prop := N.consumed s.state <+: s.pushed

/-- When the events are drained, they read the same in both directions. -/
def DrainsPalindromes (s : Recorded σ Id) (i : ι) : Prop :=
  N.drains i = true → (N.events s.state).Palindrome

instance : DecidableRel N.DrainsPalindromes := fun s i =>
  inferInstanceAs (Decidable (N.drains i = true → (N.events s.state).Palindrome))

variable {N}

/-- What the run keeps while all drains are of palindromes: what was pushed is what was consumed and
what waits, and connections were introduced by it. -/
structure Told (s : Recorded σ Id) : Prop where
  pushed : s.pushed = N.consumed s.state ++ N.events s.state
  introduced : ((N.roster s.state).after (N.consumed s.state)).Introduced

theorem Lawful.told (h : N.Lawful) {s : Recorded σ Id}
    (hs : Reachable N.Init N.DrainsPalindromes N.record s) : Told (N := N) s := by
  refine hs.invariant (fun s hs => ?_) fun s i s' hinv hok hexec => ?_
  · obtain ⟨hinit, hpushed⟩ := hs
    obtain ⟨hroster, hconsumed⟩ := h.init s.state hinit
    refine ⟨?_, ?_⟩
    · rw [hpushed, hconsumed, events, hroster]
      rfl
    · rw [hroster, hconsumed]
      exact ⟨fun id hlive => absurd hlive Bool.false_ne_true, fun id e hfind => by cases hfind⟩
  · obtain ⟨state, hstep, rfl⟩ := Option.map_eq_some_iff.mp hexec
    cases hdrains : N.drains i with
    | false =>
      obtain ⟨hsteps, hconsumed⟩ := h.step s.state i state hdrains hstep
      obtain ⟨added, hadded⟩ := Roster.events_prefix_of_steps hsteps
      replace hadded : N.events s.state ++ added = N.events state := hadded
      refine ⟨?_, ?_⟩
      · show s.pushed ++ (N.events state).drop (N.events s.state).length =
          N.consumed state ++ N.events state
        rw [← hadded, List.drop_left, hinv.pushed, hconsumed, List.append_assoc]
      · show ((N.roster state).after (N.consumed state)).Introduced
        rw [hconsumed]
        exact hinv.introduced.steps hsteps
    | true =>
      obtain ⟨hroster, hconsumed⟩ := h.drain s.state i state hdrains hstep
      rw [consume_eq_reverse, (hok hdrains).reverse_eq] at hconsumed
      have hevents : N.events state = [] := congrArg Roster.events hroster
      refine ⟨?_, ?_⟩
      · show s.pushed ++ (N.events state).drop (N.events s.state).length =
          N.consumed state ++ N.events state
        rw [hevents, hconsumed, hinv.pushed, List.drop_nil]
      · -- the events have moved from the roster to the owner
        show ((N.roster state).after (N.consumed state)).Introduced
        have hmoved : (N.roster state).after (N.consumed state) =
            (N.roster s.state).after (N.consumed s.state) := by
          rw [hroster, hconsumed]
          exact congrArg (Roster.mk _ · _) (List.append_nil _)
        rw [hmoved]
        exact hinv.introduced

/-- **Events are consumed in order, `New` first**, in every run that drains palindromes only; and the
first drain of anything else turns the order around. -/
theorem Lawful.in_order (h : N.Lawful) {s : Recorded σ Id}
    (hs : Reachable N.Init N.DrainsPalindromes N.record s) :
    N.InOrder s ∧ NewFirst (N.consumed s.state) ∧
      ∀ i s', N.drains i = true → N.record s i = some s' →
        (N.InOrder s' ↔ (N.events s.state).Palindrome) := by
  have htold := h.told hs
  have horder : N.InOrder s := ⟨N.events s.state, htold.pushed.symm⟩
  refine ⟨horder, ?_, fun i s' hdrains hexec => ?_⟩
  · exact htold.introduced.first.of_prefix (List.prefix_append ..)
  · obtain ⟨state, hstep, rfl⟩ := Option.map_eq_some_iff.mp hexec
    obtain ⟨hroster, hconsumed⟩ := h.drain s.state i state hdrains hstep
    have hevents : N.events state = [] := congrArg Roster.events hroster
    show N.consumed state <+: s.pushed ++ (N.events state).drop _ ↔ _
    rw [hevents, List.drop_nil, List.append_nil, hconsumed, htold.pushed, consume_eq_reverse,
      List.prefix_append_right_inj, List.Palindrome.iff_reverse_eq]
    constructor
    · exact fun hpre => hpre.eq_of_length (List.length_reverse ..)
    · exact fun heq => ⟨[], (List.append_nil _).trans heq⟩

end Notifier

/-! ## The backends -/

/-- The quiche backend announces its connections. -/
def Quiche.notifier {Conn Cfg G T : Type} (env : Quiche.Env Conn Cfg G T) :
    Notifier (Quiche.Running Conn Cfg G T) Quiche.Operation Quiche.ConnectionKey where
  init := Quiche.Running.Init
  exec := Quiche.Running.exec env
  drains op := op matches .consumeEvents
  roster s := s.backend.ledger.roster
  consumed := Quiche.Running.consumed

theorem Quiche.notifier_lawful {Conn Cfg G T : Type} (env : Quiche.Env Conn Cfg G T) :
    (Quiche.notifier env).Lawful where
  init s hs := by
    obtain ⟨hconsumed, config, listenAddr, clock, clockSys, rng, hnew⟩ := hs
    obtain ⟨io, -, hnew⟩ := Option.map_eq_some_iff.mp hnew
    refine ⟨?_, hconsumed⟩
    show s.backend.ledger.roster = _
    rw [← hnew]
    rfl
  step s op s' hdrains hexec := by
    obtain ⟨b, hcall, rfl⟩ := Option.map_eq_some_iff.mp hexec
    have hsteps {g g' : Quiche.Ledger} (hfollows : Relation.ReflTransGen Quiche.Ledger.Step g g') :
        Relation.ReflTransGen Roster.Step g.roster g'.roster := by
      induction hfollows with
      | refl => exact .refl
      | tail _ hlast ih => exact ih.trans hlast.roster
    cases op with
    | consumeEvents => exact absurd hdrains.symm Bool.false_ne_true
    | tick =>
      cases hcall
      exact ⟨.refl, rfl⟩
    | _ => exact ⟨hsteps (Quiche.Running.call_follows env (by simp) (by simp) hcall), rfl⟩
  drain s op s' hdrains hexec := by
    obtain ⟨b, hcall, rfl⟩ := Option.map_eq_some_iff.mp hexec
    cases op with
    | consumeEvents =>
      cases hcall
      exact ⟨rfl, congrArg (s.consumed ++ ·) (consume_eq_reverse _).symm⟩
    | _ => exact absurd hdrains Bool.false_ne_true

/-- The quinn backend announces its connections. -/
def Quinn.notifier {Conn End Cfg Incoming Signal Report : Type}
    (env : Quinn.Env Conn End Cfg Incoming Signal Report) :
    Notifier (Quinn.Running Conn End Cfg) Quinn.Operation Quinn.QuinnConnectionId where
  init := Quinn.Running.Init
  exec := Quinn.Running.exec env
  drains op := op matches .consumeEvents
  roster s := s.backend.ledger.roster
  consumed := Quinn.Running.consumed

theorem Quinn.notifier_lawful {Conn End Cfg Incoming Signal Report : Type}
    (env : Quinn.Env Conn End Cfg Incoming Signal Report) : (Quinn.notifier env).Lawful where
  init s hs := by
    obtain ⟨b, consumed⟩ := s
    obtain ⟨rfl, config, endpoint, primaryBuffers, reservedBuffers, listenAddr, clock, rfl⟩ := hs
    exact ⟨rfl, rfl⟩
  step s op s' hdrains hexec := by
    obtain ⟨b, hcall, rfl⟩ := Option.map_eq_some_iff.mp hexec
    cases op with
    | consumeEvents => exact absurd hdrains.symm Bool.false_ne_true
    | _ =>
      exact ⟨(Quinn.Running.call_follows env (by simp) hcall).lift _ fun _ _ hstep => hstep.roster, rfl⟩
  drain s op s' hdrains hexec := by
    obtain ⟨b, hcall, rfl⟩ := Option.map_eq_some_iff.mp hexec
    cases op with
    | consumeEvents =>
      cases hcall
      exact ⟨rfl, congrArg (s.consumed ++ ·) (consume_eq_reverse _).symm⟩
    | _ => exact absurd hdrains Bool.false_ne_true

/-- **Consumers see events in order**, and the `New` event of each connection first, in every run of a
backend in which the events that wait at a drain are a palindrome, and in no other. -/
theorem consumed_in_order {Conn Cfg G T Conn' End Cfg' Incoming Signal Report : Type}
    (env : Quiche.Env Conn Cfg G T) (env' : Quinn.Env Conn' End Cfg' Incoming Signal Report) :
    (∀ s : Recorded (Quiche.Running Conn Cfg G T) Quiche.ConnectionKey,
      Reachable (Quiche.notifier env).Init (Quiche.notifier env).DrainsPalindromes
        (Quiche.notifier env).record s →
      s.state.consumed <+: s.pushed ∧ NewFirst s.state.consumed ∧
        ∀ s', (Quiche.notifier env).record s .consumeEvents = some s' →
          (s'.state.consumed <+: s'.pushed ↔ s.state.backend.events.Palindrome)) ∧
    ∀ s : Recorded (Quinn.Running Conn' End Cfg') Quinn.QuinnConnectionId,
      Reachable (Quinn.notifier env').Init (Quinn.notifier env').DrainsPalindromes
        (Quinn.notifier env').record s →
      s.state.consumed <+: s.pushed ∧ NewFirst s.state.consumed ∧
        ∀ s', (Quinn.notifier env').record s .consumeEvents = some s' →
          (s'.state.consumed <+: s'.pushed ↔ s.state.backend.events.Palindrome) := by
  constructor
  · intro s hs
    obtain ⟨horder, hfirst, hdrain⟩ := (Quiche.notifier_lawful env).in_order hs
    exact ⟨horder, hfirst, fun s' hexec => hdrain .consumeEvents s' rfl hexec⟩
  · intro s hs
    obtain ⟨horder, hfirst, hdrain⟩ := (Quinn.notifier_lawful env').in_order hs
    exact ⟨horder, hfirst, fun s' hexec => hdrain .consumeEvents s' rfl hexec⟩

/-- Connections of both backends, with a drain after each operation. -/
theorem consumed_in_order_one_by_one :
    (∃ s : Recorded (Quiche.Running Quiche.IdleConnection Unit Cid.RandomIdGenerator Unit)
        Quiche.ConnectionKey,
      s.state.consumed.length = 2 ∧ s.state.consumed <+: s.pushed ∧ NewFirst s.state.consumed) ∧
    ∃ s : Recorded (Quinn.Running Quinn.Fragile Unit Unit) Quinn.QuinnConnectionId,
      s.state.consumed.length = 2 ∧ s.state.consumed <+: s.pushed ∧ NewFirst s.state.consumed := by
  constructor
  · have hrun : ∃ s : Recorded (Quiche.Running Quiche.IdleConnection Unit Cid.RandomIdGenerator Unit)
          Quiche.ConnectionKey,
        Reachable (Quiche.notifier Quiche.QuicheBackend.idleEnv).Init
          (Quiche.notifier Quiche.QuicheBackend.idleEnv).DrainsPalindromes
          (Quiche.notifier Quiche.QuicheBackend.idleEnv).record s ∧
          decide (s.state.consumed.length = 2) = true :=
      exists_reachable (Quiche.Running.idleClient.map (⟨⟨·, []⟩, []⟩)) (fun s hs => by
          obtain ⟨b, hb, rfl⟩ := Option.map_eq_some_iff.mp hs
          exact ⟨Quiche.Running.idleClient_init hb, rfl⟩)
        [.connect "" Quiche.QuicheBackend.peerAddr none, .consumeEvents, .connectionClose 0 0 [],
          .consumeEvents]
        (by decide +kernel)
    obtain ⟨s, hs, hlength⟩ := hrun
    obtain ⟨horder, hfirst, -⟩ := (consumed_in_order Quiche.QuicheBackend.idleEnv Quinn.fragileEnv).1 s hs
    exact ⟨s, of_decide_eq_true hlength, horder, hfirst⟩
  · have hrun : ∃ s : Recorded (Quinn.Running Quinn.Fragile Unit Unit) Quinn.QuinnConnectionId,
        Reachable (Quinn.notifier Quinn.fragileEnv).Init
          (Quinn.notifier Quinn.fragileEnv).DrainsPalindromes
          (Quinn.notifier Quinn.fragileEnv).record s ∧
          decide (s.state.consumed.length = 2) = true :=
      exists_reachable (some ⟨Quinn.Running.fragileClient 0 [] [] [], []⟩) (fun s hs => by
          obtain rfl := Option.some.inj hs
          exact ⟨⟨rfl, { client := some (), server := none }, (), [], [1500], .localhost, .zero, rfl⟩,
            rfl⟩)
        [.connect "" Quinn.fragilePeer, .consumeEvents, .connectionClose ⟨0, 0⟩ 0 [],
          .consumeEvents]
        (by decide +kernel)
    obtain ⟨s, hs, hlength⟩ := hrun
    obtain ⟨horder, hfirst, -⟩ := (consumed_in_order Quiche.QuicheBackend.idleEnv Quinn.fragileEnv).2 s hs
    exact ⟨s, of_decide_eq_true hlength, horder, hfirst⟩

/-- **A connection that is closed before its events are drained**: the owner sees `Closed` before
`New`. -/
theorem closed_before_new :
    ∃ s : Recorded (Quiche.Running Quiche.IdleConnection Unit Cid.RandomIdGenerator Unit)
        Quiche.ConnectionKey,
      Reachable (Quiche.notifier Quiche.QuicheBackend.idleEnv).Init anyStep
        (Quiche.notifier Quiche.QuicheBackend.idleEnv).record s ∧
      s.pushed.length = 2 ∧ ¬ s.state.consumed <+: s.pushed ∧ ¬ NewFirst s.state.consumed := by
  have hrun : ∃ s : Recorded (Quiche.Running Quiche.IdleConnection Unit Cid.RandomIdGenerator Unit)
        Quiche.ConnectionKey,
      Reachable (Quiche.notifier Quiche.QuicheBackend.idleEnv).Init anyStep
        (Quiche.notifier Quiche.QuicheBackend.idleEnv).record s ∧
        decide (s.pushed.length = 2 ∧ ¬ s.state.consumed <+: s.pushed ∧
          (s.state.consumed.find? fun e => e.connectionId = 0).map Event.introduces =
            some none) = true :=
    exists_reachable (Quiche.Running.idleClient.map (⟨⟨·, []⟩, []⟩)) (fun s hs => by
        obtain ⟨b, hb, rfl⟩ := Option.map_eq_some_iff.mp hs
        exact ⟨Quiche.Running.idleClient_init hb, rfl⟩)
      [.connect "" Quiche.QuicheBackend.peerAddr none, .connectionClose 0 0 [], .consumeEvents]
      (by decide +kernel)
  obtain ⟨s, hs, hstate⟩ := hrun
  obtain ⟨hlength, hdisorder, hmention⟩ := of_decide_eq_true hstate
  refine ⟨s, hs, hlength, hdisorder, fun hfirst => ?_⟩
  obtain ⟨e, hfind, hnew⟩ := Option.map_eq_some_iff.mp hmention
  rw [hfirst 0 e hfind] at hnew
  cases hnew

end Aquic.Backend

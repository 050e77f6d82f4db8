import Aquic.Backend.Quinn.Backend
import Aquic.Lib.Polling

/-!
# Wake-ups of the quinn backend

The loop of `send` is a polling loop that never marks a connection again, so that the length of the
queue bounds the number of its iterations (`sendLoop_of_le`), and that stops when the pool of buffers
is empty.
-/

namespace Aquic.Backend.Quinn

open Aquic.Collections Aquic.Polling Aquic.Timer

variable {Conn : Type}

namespace QuinnBackend

/-! ## What the steps touch -/

/-- Nothing but the connection `key`, its timer and the events. -/
structure Touches (key : ConnectionKey) (b b' : QuinnBackend Conn) : Prop where
  active : b'.connections.active = b.connections.active
  others : ∀ k ≠ key, b'.connections.all.get k = b.connections.all.get k
  io : b'.io = b.io
  clock : b'.time.clock = b.time.clock
  calls : b'.calls = b.calls

theorem Touches.refl (key : ConnectionKey) (b : QuinnBackend Conn) : Touches key b b :=
  ⟨rfl, fun _ _ => rfl, rfl, rfl, rfl⟩

theorem Touches.put (b : QuinnBackend Conn) (key : ConnectionKey) (c : Connection Conn) :
    Touches key b (b.put key c) :=
  ⟨rfl, fun _ hk => Slots.get_set_of_ne hk, rfl, rfl, rfl⟩

variable (lib : Library Conn)

theorem scheduleQuinnTimeout_touches (b : QuinnBackend Conn) (id : QuinnConnectionId) :
    Touches id.key b (b.scheduleQuinnTimeout lib id) := by
  unfold scheduleQuinnTimeout
  split
  · exact .refl _ b
  · split
    · exact .put b _ _
    · exact ⟨rfl, fun _ hk => Slots.get_set_of_ne hk, rfl, EventTimer.reschedule_clock .., rfl⟩

/-- `forget_connection` on a registered connection. -/
structure Forgets (key : ConnectionKey) (b b' : QuinnBackend Conn) : Prop where
  active : b'.connections.active = b.connections.active.remove key
  get : ∀ k, b'.connections.all.get k = if k = key then none else b.connections.all.get k
  io : b'.io = b.io
  clock : b'.time.clock = b.time.clock
  calls : b'.calls = b.calls ++ [.forget key]

theorem forgetConnection_forgets {b : QuinnBackend Conn} {key : ConnectionKey}
    {c : Connection Conn} (h : b.connections.all.get key = some c) :
    Forgets key b (b.forgetConnection (c.id key)) := by
  unfold forgetConnection
  rw [Connections.remove_spec h]
  refine ⟨rfl, Slots.get_remove _ key, rfl, ?_, rfl⟩
  simp only [push, log]
  split <;> rfl

/-! ## The loop of `send` is a polling loop -/

/-- The keys of the connections that were polled or forgotten. -/
def handledKeys (calls : List Call) : List ConnectionKey :=
  calls.map fun
    | .writePending key => key
    | .forget key => key

/-- Where the packets go: the pool of buffers, the messages and the time of the call. -/
structure Output where
  io : Io
  out : List Message
  clock : Instant

/-- The iteration of the loop on an open connection, up to the decision to go on. -/
def sendPackets (b : QuinnBackend Conn) (key : ConnectionKey) (c : Connection Conn)
    (out : List Message) : Option ((QuinnBackend Conn × List Message) × Outcome) :=
  (b.io.writePending .release lib c out b.time.clock).map fun (io, c, out, complete) =>
    ((({ b with io }.put key c).log (.writePending key), out), if complete then .done else .stop)

def poller : Poller (QuinnBackend Conn × List Message) Output (Connection Conn) ConnectionKey where
  queue s := s.1.connections.active.toList
  conn s key := s.1.connections.all.get key
  output s := { io := s.1.io, out := s.2, clock := s.1.time.clock }
  handled s := handledKeys s.1.calls
  ready o := o.io.hasPrimaryBuffer
  closed c := lib.isDrained c.inner
  write o c := (o.io.writePending .release lib c o.out o.clock).map fun (io, _, out, complete) =>
    ({ o with io, out }, if complete then .done else .stop)
  pop s := (s.1.nextActive, s.2)
  skip s := (s.1.peekActive, s.2)
  mark s _ := s
  forget s key :=
    match s.1.connections.all.get key with
    | none => s
    | some c => (s.1.forgetConnection (c.id key), s.2)
  poll s key :=
    match s.1.connections.all.get key with
    | none => some (s, .done)
    | some c => s.1.sendPackets lib key c s.2
  settle s key :=
    match s.1.connections.all.get key with
    | none => s
    | some c => (s.1.scheduleQuinnTimeout lib (c.id key), s.2)

theorem sendLoop_eq_run (fuel : Nat) (b : QuinnBackend Conn) (out : List Message) :
    sendLoop lib fuel b out = (poller lib).run fuel (b, out) := by
  induction fuel generalizing b out with
  | zero => rfl
  | succ fuel ih =>
    rw [sendLoop, Poller.run]
    cases hq : b.peekActive.connections.active.toList with
    | nil =>
      have hq' : (poller lib).queue ((poller lib).skip (b, out)) = [] := hq
      simp only [LinkedHashSet.front, hq, hq']
      rfl
    | cons key keys =>
      have hq' : (poller lib).queue ((poller lib).skip (b, out)) = key :: keys := hq
      simp only [LinkedHashSet.front, hq, hq', List.head?_cons]
      cases hc : b.peekActive.connections.all.get key with
      | none =>
        have hc' : (poller lib).conn ((poller lib).skip (b, out)) key = none := hc
        simp only [hc']
        rfl
      | some c =>
        have hc' : (poller lib).conn ((poller lib).skip (b, out)) key = some c := hc
        simp only [hc']
        cases hready : b.peekActive.io.hasPrimaryBuffer with
        | false =>
          have hready' : (poller lib).ready ((poller lib).output ((poller lib).skip (b, out))) =
            false := hready
          simp only [hready', if_true]
          rfl
        | true =>
          have hready' : (poller lib).ready ((poller lib).output ((poller lib).skip (b, out))) =
            true := hready
          simp only [hready', Bool.true_eq_false, if_false]
          cases hclosed : lib.isDrained c.inner with
          | true =>
            have hclosed' : (poller lib).closed c = true := hclosed
            have hforget : (poller lib).forget ((poller lib).skip (b, out)) key =
                (b.peekActive.forgetConnection (c.id key), out) := by
              show (match b.peekActive.connections.all.get key with | none => _ | some c => _) = _
              rw [hc]
              rfl
            simp only [hclosed', if_true, hforget]
            exact ih _ _
          | false =>
            have hclosed' : (poller lib).closed c = false := hclosed
            have hpoll : (poller lib).poll ((poller lib).skip (b, out)) key =
                b.peekActive.sendPackets lib key c out := by
              show (match b.peekActive.connections.all.get key with | none => _ | some c => _) = _
              rw [hc]
              rfl
            simp only [hclosed', Bool.false_eq_true, if_false, hpoll, sendPackets]
            cases hwrite : b.peekActive.io.writePending .release lib c out b.peekActive.time.clock with
            | none => rfl
            | some r =>
              obtain ⟨io, c', out', complete⟩ := r
              cases complete with
              | false => rfl
              | true =>
                have hget : (({ b.peekActive with io }.put key c').log
                    (.writePending key)).nextActive.connections.all.get key = some c' := by
                  have := Slots.get_set (Option.isSome_iff_exists.mpr ⟨c, hc⟩) c' key
                  rwa [if_pos rfl] at this
                have hsettle : (poller lib).settle ((poller lib).pop
                    (({ b.peekActive with io }.put key c').log (.writePending key), out')) key =
                    ((({ b.peekActive with io }.put key c').log
                      (.writePending key)).nextActive.scheduleQuinnTimeout lib (c'.id key), out') := by
                  simp only [poller, hget]
                simp only [Option.map_some, if_true, hsettle]
                exact ih _ _

theorem handledKeys_append (calls calls' : List Call) :
    handledKeys (calls ++ calls') = handledKeys calls ++ handledKeys calls' :=
  List.map_append

/-- Polling writes what `write_pending` writes, and touches one connection alone. -/
theorem poll_spec {s s' : QuinnBackend Conn × List Message} {key : ConnectionKey}
    {c : Connection Conn} {o : Outcome} (hc : s.1.connections.all.get key = some c)
    (h : (poller lib).poll s key = some (s', o)) :
    ∃ io c' complete, s.1.io.writePending .release lib c s.2 s.1.time.clock =
        some (io, c', s'.2, complete) ∧
      o = (if complete then .done else .stop) ∧
      s'.1 = ({ s.1 with io }.put key c').log (.writePending key) := by
  have h : s.1.sendPackets lib key c s.2 = some (s', o) := by
    simpa only [poller, hc] using h
  obtain ⟨⟨io, c', out', complete⟩, hwrite, heq⟩ := Option.map_eq_some_iff.mp h
  obtain ⟨rfl, rfl⟩ := Prod.mk.inj heq
  exact ⟨io, c', complete, hwrite, rfl, rfl⟩

theorem poll_none {s s' : QuinnBackend Conn × List Message} {key : ConnectionKey} {o : Outcome}
    (hc : s.1.connections.all.get key = none) (h : (poller lib).poll s key = some (s', o)) :
    s' = s := by
  simp only [poller, hc] at h
  cases h
  rfl

theorem settle_touches (s : QuinnBackend Conn × List Message) (key : ConnectionKey) :
    Touches key s.1 ((poller lib).settle s key).1 ∧ ((poller lib).settle s key).2 = s.2 := by
  simp only [poller]
  split
  · exact ⟨.refl key _, rfl⟩
  · next c hc => exact ⟨scheduleQuinnTimeout_touches lib s.1 (c.id key), rfl⟩

theorem forget_live {s : QuinnBackend Conn × List Message} {key : ConnectionKey}
    (h : (s.1.connections.all.get key).isSome) :
    Forgets key s.1 ((poller lib).forget s key).1 ∧ ((poller lib).forget s key).2 = s.2 := by
  obtain ⟨c, hc⟩ := Option.isSome_iff_exists.mp h
  simp only [poller, hc]
  exact ⟨forgetConnection_forgets hc, trivial⟩

theorem forget_dead {s : QuinnBackend Conn × List Message} {key : ConnectionKey}
    (h : s.1.connections.all.get key = none) : (poller lib).forget s key = s := by
  simp only [poller, h]

theorem output_congr {s s' : QuinnBackend Conn × List Message} (hio : s'.1.io = s.1.io)
    (hclock : s'.1.time.clock = s.1.time.clock) (hout : s'.2 = s.2) :
    (poller lib).output s' = (poller lib).output s := by
  show Output.mk s'.1.io s'.2 s'.1.time.clock = Output.mk s.1.io s.2 s.1.time.clock
  rw [hio, hclock, hout]

theorem poller_lawful : (poller lib).Lawful where
  queue_pop _ := rfl
  conn_pop _ := rfl
  output_pop _ := rfl
  handled_pop _ := rfl
  skip_live s key keys hq hlive := by
    show (s.1.peekActive, s.2) = s
    rw [peekActive, Connections.peekActive, LinkedHashSet.popUntil_of_pos hq hlive]
  skip_dead s key keys hq hdead := by
    have hdead : s.1.connections.all.contains key = false := Option.isSome_eq_false_iff.mpr
      (Option.isNone_iff_eq_none.mpr hdead)
    show (s.1.peekActive, s.2) = (s.1.nextActive.peekActive, s.2)
    rw [peekActive, Connections.peekActive, LinkedHashSet.popUntil_of_neg hq hdead]
    rfl
  skip_nil s hq := by
    show (s.1.peekActive, s.2) = s
    rw [peekActive, Connections.peekActive, LinkedHashSet.popUntil_nil hq]
  queue_mark _ _ := .inl rfl
  conn_mark _ _ := rfl
  output_mark _ _ := rfl
  handled_mark _ _ := rfl
  queue_forget s key hlive := congrArg LinkedHashSet.toList (forget_live lib hlive).1.active
  conn_forget s key key' hne := by
    by_cases hlive : (s.1.connections.all.get key).isSome
    · exact ((forget_live lib hlive).1.get key').trans (if_neg hne)
    · rw [forget_dead lib (by simpa using hlive)]
  output_forget s key := by
    by_cases hlive : (s.1.connections.all.get key).isSome
    · obtain ⟨hforgets, hout⟩ := forget_live lib hlive
      exact output_congr lib hforgets.io hforgets.clock hout
    · rw [forget_dead lib (by simpa using hlive)]
  handled_forget s key hlive := by
    show handledKeys ((poller lib).forget s key).1.calls = handledKeys s.1.calls ++ [key]
    rw [(forget_live lib hlive).1.calls, handledKeys_append]
    rfl
  queue_poll s key s' o hpoll := by
    cases hc : s.1.connections.all.get key with
    | some c =>
      obtain ⟨io, c', complete, -, -, hs'⟩ := poll_spec lib hc hpoll
      show s'.1.connections.active.toList = _
      rw [hs']
      rfl
    | none => rw [poll_none lib hc hpoll]
  conn_poll s key s' o key' hpoll hne := by
    cases hc : s.1.connections.all.get key with
    | some c =>
      obtain ⟨io, c', complete, -, -, hs'⟩ := poll_spec lib hc hpoll
      show s'.1.connections.all.get key' = _
      rw [hs']
      exact Slots.get_set_of_ne hne
    | none => rw [poll_none lib hc hpoll]
  output_poll s key c s' o hpoll hc := by
    obtain ⟨io, c', complete, hwrite, ho, hs'⟩ := poll_spec lib hc hpoll
    show (s.1.io.writePending .release lib c s.2 s.1.time.clock).map _ =
      some (Output.mk s'.1.io s'.2 s'.1.time.clock, o)
    rw [hwrite, hs', ho]
    rfl
  handled_poll s key c s' o hpoll hc := by
    obtain ⟨io, c', complete, -, -, hs'⟩ := poll_spec lib hc hpoll
    show handledKeys s'.1.calls = handledKeys s.1.calls ++ [key]
    rw [hs']
    exact handledKeys_append ..
  queue_settle s key := congrArg LinkedHashSet.toList (settle_touches lib s key).1.active
  conn_settle s key key' hne := (settle_touches lib s key).1.others key' hne
  output_settle s key := by
    obtain ⟨htouches, hout⟩ := settle_touches lib s key
    exact output_congr lib htouches.io htouches.clock hout
  handled_settle s key := congrArg handledKeys (settle_touches lib s key).1.calls

/-- The length of the queue is enough fuel. -/
theorem sendLoop_of_le {fuel : Nat} {b : QuinnBackend Conn} {out : List Message}
    (h : b.connections.active.length ≤ fuel) :
    sendLoop lib fuel b out = sendLoop lib b.connections.active.length b out := by
  have hpoll (s : QuinnBackend Conn × List Message) (key : ConnectionKey) (s') :
      (poller lib).poll s key ≠ some (s', .reactivate) := by
    intro hpoll
    cases hc : s.1.connections.all.get key with
    | none =>
      simp only [poller, hc] at hpoll
      cases hpoll
    | some c =>
      obtain ⟨io, c', complete, -, ho, -⟩ := poll_spec lib hc hpoll
      cases complete <;> cases ho
  induction fuel, h using Nat.le_induction with
  | base => rfl
  | succ fuel hfuel ih =>
    rw [← ih, sendLoop_eq_run, sendLoop_eq_run]
    exact (poller_lawful lib).run_succ hpoll hfuel

theorem mem_handledKeys {key : ConnectionKey} {calls : List Call} :
    key ∈ handledKeys calls ↔ .writePending key ∈ calls ∨ .forget key ∈ calls := by
  rw [handledKeys, List.mem_map]
  constructor
  · rintro ⟨call, hmem, hcall⟩
    split at hcall <;> cases hcall
    · exact .inl hmem
    · exact .inr hmem
  · rintro (hmem | hmem)
    · exact ⟨_, hmem, rfl⟩
    · exact ⟨_, hmem, rfl⟩

/-! ## Wake-ups -/

/-- Every connection that is marked active in `b` is still marked in `b'`, or was polled for packets,
or was forgotten. -/
def NoLostWakeUp (b b' : QuinnBackend Conn) : Prop :=
  ∀ key ∈ b.connections.active.toList, (b.connections.all.get key).isSome →
    key ∈ b'.connections.active.toList ∨ .writePending key ∈ b'.calls ∨ .forget key ∈ b'.calls

/-- A drained connection is directly followed by another one in the queue of active connections, and
the pool is not empty before the loop gets there. -/
def StrandsActive (b : QuinnBackend Conn) (out : List Message) : Prop :=
  (poller lib).Strands b.connections.all.get { io := b.io, out, clock := b.time.clock }
    b.connections.active.toList

/-- Nothing is stranded unless a connection with one behind it is drained. -/
theorem not_strandsActive_of_open {b : QuinnBackend Conn} {out : List Message}
    (h : ∀ key ∈ b.connections.active.toList.dropLast,
      (b.connections.all.get key).any (lib.isDrained ·.inner) = false) : ¬ b.StrandsActive lib out :=
  Poller.not_strands_of_open h

theorem noLostWakeUp_iff {b b' : QuinnBackend Conn} {out out' : List Message}
    (h : b.send lib out = some (b', out')) :
    NoLostWakeUp (b.handleScheduledEvents lib) b' ↔
      ¬ StrandsActive lib (b.handleScheduledEvents lib) out := by
  unfold send at h
  rw [sendLoop_eq_run] at h
  have hkept := (poller_lawful lib).run_keeps_marks
    (s := ({ b.handleScheduledEvents lib with calls := [] }, out))
    (b.handleScheduledEvents lib).connections.active.nodup rfl (Nat.le_refl _) h
  refine Iff.trans ?_ hkept
  unfold NoLostWakeUp Poller.Kept
  refine forall_congr' fun key => imp_congr_right fun _ => imp_congr_right fun _ => ?_
  rw [← mem_handledKeys]
  rfl

end QuinnBackend

end Aquic.Backend.Quinn

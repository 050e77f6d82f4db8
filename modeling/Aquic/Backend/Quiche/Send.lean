import Aquic.Backend.Quiche.Backend
import Aquic.Lib.Polling

/-!
# Wake-ups of the quiche backend

The loop of `send` is a polling loop over the queue of active connections. Writing the packets of a
connection touches that connection alone, so the loop is lawful, and the general characterization of
the marks it keeps applies.
-/

namespace Aquic.Backend.Quiche

open Aquic.Collections Aquic.Polling Aquic.Timer

variable {Conn Cfg G T : Type}

def SendResult.outcome : SendResult → Outcome
  | .done => .done
  | .reactivate => .reactivate
  | .stopAndRetry => .stop

/-- The outcome that the result of `write_pending` stands for. -/
def writeOutcome : Except QuicheError Write → Outcome
  | .ok .complete => .done
  | .ok (.pacer _) => .done
  | .ok .quantum => .reactivate
  | .ok .bufferTooShort => .stop
  | .error _ => .done

namespace QuicheBackend

/-! ## What the steps touch -/

variable (env : Env Conn Cfg G T)

theorem cancelAll_clock (time : EventTimer TimerEvent) (c : Connection Conn) :
    (cancelAll time c).clock = time.clock := by
  unfold cancelAll
  generalize [c.timerPacerKey, c.timerQuicheTimeoutKey, c.timerEstablishTimeoutKey].reduceOption
    = keys
  induction keys generalizing time with
  | nil => rfl
  | cons key keys ih => exact (ih _).trans (EventTimer.cancel_clock time key)

/-- `forget_connection` on a registered connection. -/
structure Forgets (key : ConnectionKey) (b b' : QuicheBackend Conn Cfg G T) : Prop where
  active : b'.connections.active = b.connections.active.remove key
  get : ∀ k, b'.connections.get k = if k = key then none else b.connections.get k
  io : b'.io = b.io
  clock : b'.time.clock = b.time.clock
  calls : b'.calls = b.calls ++ [.forget key]

theorem forgetConnection_forgets {b : QuicheBackend Conn Cfg G T} {key : ConnectionKey}
    (h : (b.connections.get key).isSome) : Forgets key b (b.forgetConnection env key) := by
  obtain ⟨c, hc⟩ := Option.isSome_iff_exists.mp h
  obtain ⟨cs', c', hremove, hactive, hget⟩ := Connections.remove_spec env.quiche hc
  unfold forgetConnection
  rw [hremove]
  exact ⟨hactive, hget, rfl, cancelAll_clock .., rfl⟩

theorem forgetConnection_dead {b : QuicheBackend Conn Cfg G T} {key : ConnectionKey}
    (h : b.connections.get key = none) : b.forgetConnection env key = b := by
  simp [forgetConnection, Connections.remove, h]

/-- **`send_packets`** on a registered connection: it writes what `write_pending` writes, and touches
that connection alone. -/
theorem sendPackets_spec {b b' : QuicheBackend Conn Cfg G T} {key : ConnectionKey}
    {c : Connection Conn} {out out' : List Message} {result : SendResult}
    (hc : b.connections.get key = some c)
    (h : b.sendPackets env key out = some (b', out', result)) :
    ∃ written, b.io.writePending .release env.quiche c out b.time.clock = some written ∧
      out' = written.out ∧ result.outcome = writeOutcome written.result ∧
      Touches key ({ b with io := written.io }.log (.writePending key)) b' := by
  unfold sendPackets at h
  rw [hc] at h
  simp only at h
  split at h
  · cases h
  · next written hwritten =>
    refine ⟨written, hwritten, ?_⟩
    have hput := (Touches.put ({ b with io := written.io }.log (.writePending key)) key
      written.connection)
    have htouches := (hput.trans (writeStreamDgramEvents_touches env _ key)).trans
      (scheduleTimer_touches _ key .quicheTimeout fun c => env.quiche.timeoutInstant c.inner)
    split at h <;> cases h
    · next hresult => exact ⟨rfl, by rw [hresult]; rfl, htouches⟩
    · next releaseTime hresult =>
      exact ⟨rfl, by rw [hresult]; rfl, htouches.trans (scheduleTimer_touches ..)⟩
    · next hresult => exact ⟨rfl, by rw [hresult]; rfl, htouches⟩
    · next hresult => exact ⟨rfl, by rw [hresult]; rfl, htouches⟩
    · next hresult => exact ⟨rfl, by rw [hresult]; rfl, htouches⟩

/-! ## The loop of `send` is a polling loop -/

/-- The keys of the connections that were polled or forgotten. -/
def handledKeys (calls : List Call) : List ConnectionKey :=
  calls.filterMap fun
    | .writePending key => some key
    | .forget key => some key
    | _ => none

/-- Where the packets go: the shared buffer, the messages and the time of the call. -/
structure Output where
  io : Io
  out : List Message
  clock : Instant

def poller : Poller (QuicheBackend Conn Cfg G T × List Message) Output (Connection Conn)
    ConnectionKey where
  queue s := s.1.connections.active.toList
  conn s key := s.1.connections.get key
  output s := { io := s.1.io, out := s.2, clock := s.1.time.clock }
  handled s := handledKeys s.1.calls
  ready _ := true
  closed c := env.quiche.isClosed c.inner
  write o c := (o.io.writePending .release env.quiche c o.out o.clock).map fun written =>
    ({ o with io := written.io, out := written.out }, writeOutcome written.result)
  pop s := (s.1.nextActive, s.2)
  skip s := (s.1.peekActive, s.2)
  mark s key := (s.1.markActive key, s.2)
  forget s key := (s.1.forgetConnection env key, s.2)
  poll s key := (s.1.sendPackets env key s.2).map fun (b, out, result) => ((b, out), result.outcome)
  settle s _ := s

theorem sendLoop_eq_run (count : Nat) (b : QuicheBackend Conn Cfg G T) (out : List Message) :
    sendLoop env count b out = (poller env).run count (b, out) := by
  induction count generalizing b out with
  | zero => rfl
  | succ count ih =>
    have hready (o : Output) : (poller env).ready o = true := rfl
    rw [sendLoop, Poller.run]
    cases hq : b.peekActive.connections.active.toList with
    | nil =>
      have hq' : (poller env).queue ((poller env).skip (b, out)) = [] := hq
      simp only [LinkedHashSet.front, hq, hq']
      rfl
    | cons key keys =>
      have hq' : (poller env).queue ((poller env).skip (b, out)) = key :: keys := hq
      simp only [LinkedHashSet.front, hq, hq', List.head?_cons, hready, Bool.true_eq_false, if_false]
      cases hc : b.peekActive.connections.get key with
      | none =>
        have hc' : (poller env).conn ((poller env).skip (b, out)) key = none := hc
        simp only [hc']
        rfl
      | some c =>
        have hc' : (poller env).conn ((poller env).skip (b, out)) key = some c := hc
        simp only [hc']
        cases hclosed : env.quiche.isClosed c.inner with
        | true =>
          have hclosed' : (poller env).closed c = true := hclosed
          simp only [hclosed', if_true]
          exact ih _ _
        | false =>
          have hclosed' : (poller env).closed c = false := hclosed
          simp only [hclosed', Bool.false_eq_true, if_false]
          cases hsend : b.peekActive.sendPackets env key out with
          | none =>
            have hpoll : (poller env).poll ((poller env).skip (b, out)) key = none :=
              congrArg (Option.map _) hsend
            simp only [hpoll]
          | some r =>
            obtain ⟨b', out', result⟩ := r
            have hpoll : (poller env).poll ((poller env).skip (b, out)) key =
              some ((b', out'), result.outcome) := congrArg (Option.map _) hsend
            cases result with
            | done =>
              simp only [hpoll, SendResult.outcome]
              exact ih _ _
            | reactivate =>
              simp only [hpoll, SendResult.outcome]
              exact ih _ _
            | stopAndRetry => simp only [hpoll, SendResult.outcome]

theorem handledKeys_append (calls calls' : List Call) :
    handledKeys (calls ++ calls') = handledKeys calls ++ handledKeys calls' :=
  List.filterMap_append

/-- `sendPackets_spec`, for the poller. -/
theorem poll_spec {s s' : QuicheBackend Conn Cfg G T × List Message} {key : ConnectionKey}
    {c : Connection Conn} {o : Outcome} (hc : s.1.connections.get key = some c)
    (h : (poller env).poll s key = some (s', o)) :
    ∃ written, s.1.io.writePending .release env.quiche c s.2 s.1.time.clock = some written ∧
      s'.2 = written.out ∧ o = writeOutcome written.result ∧
      Touches key ({ s.1 with io := written.io }.log (.writePending key)) s'.1 := by
  obtain ⟨⟨b', out', result⟩, hsend, heq⟩ := Option.map_eq_some_iff.mp h
  obtain ⟨rfl, rfl⟩ := Prod.mk.inj heq
  exact sendPackets_spec env hc hsend

/-- Without a connection there is nothing to poll. -/
theorem poll_none {s s' : QuicheBackend Conn Cfg G T × List Message} {key : ConnectionKey}
    {o : Outcome} (hc : s.1.connections.get key = none)
    (h : (poller env).poll s key = some (s', o)) : s' = s := by
  obtain ⟨⟨b', out', result⟩, hsend, heq⟩ := Option.map_eq_some_iff.mp h
  obtain ⟨rfl, rfl⟩ := Prod.mk.inj heq
  unfold sendPackets at hsend
  rw [hc] at hsend
  cases hsend
  rfl

theorem poller_lawful : (poller env).Lawful where
  queue_pop _ := rfl
  conn_pop _ := rfl
  output_pop _ := rfl
  handled_pop _ := rfl
  skip_live s key keys hq hlive := by
    show (s.1.peekActive, s.2) = s
    rw [peekActive, Connections.peekActive, LinkedHashSet.popUntil_of_pos hq hlive]
  skip_dead s key keys hq hdead := by
    have hdead : s.1.connections.all.contains key = false := Option.isSome_eq_false_iff.mpr
      (Option.isNone_iff_eq_none.mpr hdead)
    show (s.1.peekActive, s.2) = (s.1.nextActive.peekActive, s.2)
    rw [peekActive, Connections.peekActive, LinkedHashSet.popUntil_of_neg hq hdead]
    rfl
  skip_nil s hq := by
    show (s.1.peekActive, s.2) = s
    rw [peekActive, Connections.peekActive, LinkedHashSet.popUntil_nil hq]
  queue_mark s key := by
    show (s.1.connections.markActive key).active.toList = s.1.connections.active.toList ∨
      (s.1.connections.markActive key).active.toList = s.1.connections.active.toList ++ [key]
    unfold Connections.markActive
    split
    · simp only [LinkedHashSet.toList_replace]
      split
      · exact .inl rfl
      · exact .inr rfl
    · exact .inl rfl
  conn_mark s key := by
    show (s.1.connections.markActive key).get = s.1.connections.get
    unfold Connections.markActive
    split <;> rfl
  output_mark _ _ := rfl
  handled_mark _ _ := rfl
  queue_forget s key hlive := congrArg LinkedHashSet.toList (forgetConnection_forgets env hlive).active
  conn_forget s key key' hne := by
    by_cases hlive : (s.1.connections.get key).isSome
    · exact ((forgetConnection_forgets env hlive).get key').trans (if_neg hne)
    · exact congrArg (·.connections.get key') (forgetConnection_dead env (by simpa using hlive))
  output_forget s key := by
    by_cases hlive : (s.1.connections.get key).isSome
    · have hforgets := forgetConnection_forgets env hlive
      show Output.mk (s.1.forgetConnection env key).io s.2
        (s.1.forgetConnection env key).time.clock = Output.mk s.1.io s.2 s.1.time.clock
      rw [hforgets.io, hforgets.clock]
    · exact congrArg (fun b : QuicheBackend Conn Cfg G T => Output.mk b.io s.2 b.time.clock)
        (forgetConnection_dead env (by simpa using hlive))
  handled_forget s key hlive := by
    have := (forgetConnection_forgets env hlive).calls
    show handledKeys (s.1.forgetConnection env key).calls = handledKeys s.1.calls ++ [key]
    rw [this, handledKeys_append]
    rfl
  queue_poll s key s' o hpoll := by
    cases hc : s.1.connections.get key with
    | some c =>
      obtain ⟨written, -, -, -, htouches⟩ := poll_spec env hc hpoll
      exact congrArg LinkedHashSet.toList htouches.active
    | none => rw [poll_none env hc hpoll]
  conn_poll s key s' o key' hpoll hne := by
    cases hc : s.1.connections.get key with
    | some c =>
      obtain ⟨written, -, -, -, htouches⟩ := poll_spec env hc hpoll
      exact htouches.others key' hne
    | none => rw [poll_none env hc hpoll]
  output_poll s key c s' o hpoll hc := by
    obtain ⟨written, hwritten, hout, ho, htouches⟩ := poll_spec env hc hpoll
    show (s.1.io.writePending .release env.quiche c s.2 s.1.time.clock).map _ = _
    rw [hwritten, ho]
    show some (Output.mk written.io written.out s.1.time.clock, _) =
      some (Output.mk s'.1.io s'.2 s'.1.time.clock, _)
    rw [htouches.io, hout, htouches.clock]
    rfl
  handled_poll s key c s' o hpoll hc := by
    obtain ⟨written, -, -, -, htouches⟩ := poll_spec env hc hpoll
    show handledKeys s'.1.calls = handledKeys s.1.calls ++ [key]
    rw [htouches.calls]
    exact handledKeys_append ..
  queue_settle _ _ := rfl
  conn_settle _ _ _ _ := rfl
  output_settle _ _ := rfl
  handled_settle _ _ := rfl

theorem mem_handledKeys {key : ConnectionKey} {calls : List Call} :
    key ∈ handledKeys calls ↔ .writePending key ∈ calls ∨ .forget key ∈ calls := by
  rw [handledKeys, List.mem_filterMap]
  constructor
  · rintro ⟨call, hmem, hcall⟩
    split at hcall <;> cases hcall
    · exact .inl hmem
    · exact .inr hmem
  · rintro (hmem | hmem)
    · exact ⟨_, hmem, rfl⟩
    · exact ⟨_, hmem, rfl⟩

/-! ## Wake-ups -/

/-- Every connection that is marked active in `b` is still marked in `b'`, or was polled for packets,
or was forgotten. -/
def NoLostWakeUp (b b' : QuicheBackend Conn Cfg G T) : Prop :=
  ∀ key ∈ b.connections.active.toList, (b.connections.get key).isSome →
    key ∈ b'.connections.active.toList ∨ .writePending key ∈ b'.calls ∨ .forget key ∈ b'.calls

/-- A closed connection is directly followed by another one in the queue of active connections, and
the buffer is not full before the loop gets there. -/
def StrandsActive (b : QuicheBackend Conn Cfg G T) (out : List Message) : Prop :=
  (poller env).Strands b.connections.get { io := b.io, out, clock := b.time.clock }
    b.connections.active.toList

/-- Nothing is stranded unless a connection with one behind it is closed. -/
theorem not_strandsActive_of_open {b : QuicheBackend Conn Cfg G T} {out : List Message}
    (h : ∀ key ∈ b.connections.active.toList.dropLast,
      (b.connections.get key).any (env.quiche.isClosed ·.inner) = false) : ¬ b.StrandsActive env out :=
  Poller.not_strands_of_open h

theorem noLostWakeUp_iff {b b' : QuicheBackend Conn Cfg G T} {out out' : List Message}
    (h : b.send env out = some (b', out')) :
    NoLostWakeUp (b.handleScheduledEvents env) b' ↔
      ¬ StrandsActive env (b.handleScheduledEvents env) out := by
  have hrun := h
  unfold send at hrun
  rw [sendLoop_eq_run] at hrun
  have hkept := (poller_lawful env).run_keeps_marks
    (s := ({ b.handleScheduledEvents env with calls := [] }, out))
    (b.handleScheduledEvents env).connections.active.nodup rfl (Nat.le_refl _) hrun
  refine Iff.trans ?_ hkept
  unfold NoLostWakeUp Poller.Kept
  refine forall_congr' fun key => imp_congr_right fun _ => imp_congr_right fun _ => ?_
  rw [← mem_handledKeys]
  rfl

end QuicheBackend

end Aquic.Backend.Quiche

import Aquic.Lib.Listening
import Aquic.Sync.Watch

/-!
# The multi-threaded watch channel under interference

`Aquic.Sync.Watch` compares whole calls. Here the calls of any number of senders and receivers of
`sync/mpmc/watch/mt.rs` interleave: a `send` overwrites the item under the lock and notifies after it
has released it, and so does the drop of the last sender; a `recv` tries, listens, tries again and
parks.

What a receiver gets is a part of what was sent, in order (`Seen`), for fewer than `2 ^ 64` values: the
version after that is the one a receiver starts with. `try_recv_any`, which takes a value again, is no
step of these runs.
-/

namespace Aquic.Sync.Watch.Mt

open Collections
open Listening
open Run
open Word

structure Shared (α : Type) where
  state : State α
  /-- The number of senders that exist. -/
  senders : Nat
  /-- How many calls of `send` have stored a value and notify next. -/
  sending : Nat
  /-- How many drops of a sender notify next. -/
  closing : Nat
  /-- History: the values that were stored, the oldest first. -/
  sent : List α
  deriving DecidableEq

/-- The steps of the senders. -/
inductive Op (α : Type) where
  | send (value : α)
  | notify
  | cloneSender
  | dropSender
  | close
  deriving DecidableEq, Repr

variable {α : Type}

namespace Shared

/-- `channel()`. -/
def new : Shared α := { state := .new, senders := 1, sending := 0, closing := 0, sent := [] }

def exec (s : Shared α) : Op α → Option (Shared α × Bool)
  | .send value =>
    if s.senders = 0 then none
    else
      match impl.send s.state value with
      | (state, .ok ()) =>
        some ({ s with state, sending := s.sending + 1, sent := s.sent ++ [value] }, false)
      | (state, .error _) => some ({ s with state }, false)
  | .notify => if s.sending = 0 then none else some ({ s with sending := s.sending - 1 }, true)
  | .cloneSender =>
    if s.senders = 0 then none
    else some ({ s with state := impl.cloneSender s.state, senders := s.senders + 1 }, false)
  -- a `send` borrows a sender, so the last one stays as long as there is one
  | .dropSender =>
    if s.senders = 0 ∨ (s.senders = 1 ∧ s.sending ≠ 0) then none
    else
      let state := impl.dropSender s.state
      some ({ s with
        state
        senders := s.senders - 1
        closing := if state.senderCount = 0 then s.closing + 1 else s.closing }, false)
  | .close => if s.closing = 0 then none else some ({ s with closing := s.closing - 1 }, true)

/-- `try_recv`, under the lock. -/
def attempt (s : Shared α) (lastSeen : Nat) : Try Nat Unit (Option α) :=
  match impl.tryRecvInner s.state lastSeen false with
  | (version, .ok value) => .got version (some value)
  | (version, .error .closed) => .got version none
  | (_, .error .empty) => .nothing

end Shared

/-- A receiver remembers the version it has seen, and gets a value, or `none` for a closed channel. -/
def protocol : Protocol (Shared α) (Op α) Nat Unit (Option α) where
  other := Shared.exec
  clone s := { s with state := impl.cloneReceiver s.state }
  drop s := { s with state := impl.dropReceiver s.state }
  start := ()
  attempt s lastSeen _ := s.attempt lastSeen

abbrev Concurrent (α : Type) := Listening.State (Shared α) Nat Unit (Option α)

def Reachable : Concurrent α → Prop := Listening.Reachable protocol .new initialReceiverVersion

/-! ## What a step of a sender changes -/

namespace Shared

variable {s s' : Shared α}

/-- A step of a sender stores a value, or leaves the item as it is. -/
inductive Stepped (s s' : Shared α) (notifies : Bool) : Prop
  | sent {value : α} : s'.state = (s.state.send value).1 → s.state.receiverCount ≠ 0 →
      s'.sent = s.sent ++ [value] → s'.sending ≠ 0 → Stepped s s' notifies
  | kept : s'.state.item = s.state.item → s'.state.receiverCount = s.state.receiverCount →
      s'.sent = s.sent →
      (notifies = false → s'.sending + s'.closing = 0 → s.sending + s.closing = 0) →
      Stepped s s' notifies

theorem stepped {op : Op α} {notifies : Bool} (hexec : s.exec op = some (s', notifies)) :
    Stepped s s' notifies := by
  cases op with
  | send value =>
    simp only [Shared.exec, Option.ite_none_left_eq_some, impl] at hexec
    obtain ⟨-, hexec⟩ := hexec
    by_cases hreceivers : s.state.receiverCount = 0
    · simp only [State.send, hreceivers, if_true, Option.some.injEq, Prod.mk.injEq] at hexec
      obtain ⟨rfl, -⟩ := hexec
      exact .kept rfl rfl rfl fun _ h => h
    · simp only [State.send, hreceivers, if_false, Option.some.injEq, Prod.mk.injEq] at hexec
      obtain ⟨rfl, -⟩ := hexec
      refine .sent ?_ hreceivers rfl (Nat.succ_ne_zero _)
      simp only [State.send, hreceivers, if_false]
  | notify | close =>
    simp only [Shared.exec, Option.ite_none_left_eq_some, Option.some.injEq, Prod.mk.injEq] at hexec
    obtain ⟨-, rfl, rfl⟩ := hexec
    exact .kept rfl rfl rfl (by simp)
  | cloneSender =>
    simp only [Shared.exec, Option.ite_none_left_eq_some, Option.some.injEq, Prod.mk.injEq] at hexec
    obtain ⟨-, rfl, -⟩ := hexec
    exact .kept rfl rfl rfl fun _ h => h
  | dropSender =>
    simp only [Shared.exec, Option.ite_none_left_eq_some, Option.some.injEq, Prod.mk.injEq] at hexec
    obtain ⟨-, rfl, -⟩ := hexec
    refine .kept rfl rfl rfl fun _ h => ?_
    simp only at h
    split at h <;> omega

/-- A notification that is due is the next step of somebody. -/
theorem exists_notifying (h : s.sending + s.closing ≠ 0) :
    ∃ op s', s.exec op = some (s', true) := by
  by_cases hsending : s.sending = 0
  · have hclosing : s.closing ≠ 0 := by omega
    refine ⟨.close, { s with closing := s.closing - 1 }, ?_⟩
    simp only [Shared.exec, hclosing, if_false]
  · refine ⟨.notify, { s with sending := s.sending - 1 }, ?_⟩
    simp only [Shared.exec, hsending, if_false]

/-- The item is the last value that was sent, under the number of values before it. -/
def Sound (s : Shared α) : Prop :=
  s.state.item = s.sent.getLast?.map fun value => ⟨value, (s.sent.length - 1) % 2 ^ 64⟩

theorem item_send (h : s.Sound) (hreceivers : s.state.receiverCount ≠ 0) (value : α) :
    (s.state.send value).1.item = some ⟨value, s.sent.length % 2 ^ 64⟩ := by
  unfold Sound at h
  simp only [State.send, hreceivers, if_false]
  rcases List.eq_nil_or_concat s.sent with hnil | ⟨sent, last, hsent⟩
  · simp [hnil] at h
    simp [h, hnil, initialSenderVersion]
  · rw [hsent] at h
    simp only [List.concat_eq_append, List.getLast?_append, List.getLast?_singleton, Option.some_or,
      Option.map_some, List.length_append, List.length_singleton, Nat.add_sub_cancel] at h
    simp only [h, hsent, List.concat_eq_append, List.length_append, List.length_singleton]
    simp [wrappingAdd]

theorem Sound.exec (h : s.Sound) {op : Op α} {notifies : Bool}
    (hexec : s.exec op = some (s', notifies)) : s'.Sound := by
  cases stepped hexec with
  | @sent value hstate hreceivers hsent _ =>
    unfold Sound
    rw [hstate, hsent, item_send h hreceivers value]
    simp
  | kept hitem _ hsent _ =>
    unfold Sound at h ⊢
    rw [hitem, hsent]
    exact h

end Shared

/-! ## The receivers -/

theorem counts : Counts (protocol (α := α)) (·.state.receiverCount) where
  other s op s' notifies hexec := by
    cases Shared.stepped hexec with
    | @sent value hstate hreceivers _ _ =>
      show s'.state.receiverCount = s.state.receiverCount
      rw [hstate]
      simp [State.send, hreceivers]
    | kept _ hcount _ _ => exact hcount
  clone _ := rfl
  drop s hpos := by
    show wrappingSub 64 s.state.receiverCount 1 + 1 = s.state.receiverCount
    rw [wrappingSub_of_le hpos]
    exact Nat.sub_add_cancel hpos

namespace Shared

variable {s : Shared α} {lastSeen : Nat}

/-- What the outcome of an attempt tells. -/
theorem attempt_eq (hcount : s.state.receiverCount ≠ 0) : s.attempt lastSeen =
    match s.state.item with
    | some item => if lastSeen ≠ item.version then .got item.version (some item.value) else .nothing
    | none => .nothing := by
  cases hitem : s.state.item with
  | none => simp [attempt, impl, State.tryRecvInner, hitem, hcount]
  | some item =>
    by_cases hseen : lastSeen = item.version
    · simp [attempt, impl, State.tryRecvInner, hitem, hcount, hseen]
    · simp [attempt, impl, State.tryRecvInner, hitem, hseen]

/-- There is nothing to get for a receiver. -/
theorem hasValue_of_nothing (h : s.attempt lastSeen = .nothing) :
    s.state.hasValue lastSeen false = false := by
  by_contra hvalue
  rw [Bool.not_eq_false] at hvalue
  unfold State.hasValue at hvalue
  obtain ⟨item, hitem, hne⟩ := (Option.any_eq_true ..).mp hvalue
  simp only [Bool.false_or] at hne
  simp [attempt, impl, State.tryRecvInner, hitem, hne] at h

end Shared

/-- The receiver has seen the first `n` values, all but some of them in passing. -/
def Seen (s : Shared α) (lastSeen : Nat) (results : List (Option α)) : Prop :=
  s.Sound ∧ (s.sent.length < 2 ^ 64 → ∃ (n : Nat) (values : List α), n ≤ s.sent.length ∧
    lastSeen = (if n = 0 then initialReceiverVersion else n - 1) ∧
    results = values.map some ∧ values.Sublist (s.sent.take n))

theorem seen_new : Seen (Shared.new : Shared α) initialReceiverVersion [] :=
  ⟨rfl, fun _ => ⟨0, [], Nat.le_refl _, rfl, rfl, .slnil⟩⟩

theorem keeps : Keeps (protocol (α := α)) (·.state.receiverCount ≠ 0) Seen where
  other s op s' notifies lastSeen results hexec h := by
    refine ⟨h.1.exec hexec, fun hlt => ?_⟩
    have hbegins : s.sent <+: s'.sent := by
      cases Shared.stepped hexec with
      | sent _ _ hsent _ => exact hsent ▸ List.prefix_append _ _
      | kept _ _ hsent _ => exact hsent ▸ List.prefix_rfl
    have hle := hbegins.length_le
    obtain ⟨n, values, hn, hseen, hresults, hvalues⟩ := h.2 (by omega)
    refine ⟨n, values, by omega, hseen, hresults, ?_⟩
    obtain ⟨rest, hrest⟩ := hbegins
    rw [← hrest, List.take_append_of_le_length hn]
    exact hvalues
  clone s lastSeen results h := by
    refine ⟨h, h.1, fun hlt => ?_⟩
    obtain ⟨n, values, hn, hseen, -, -⟩ := h.2 hlt
    exact ⟨n, [], hn, hseen, rfl, List.nil_sublist _⟩
  drop s lastSeen results h := h
  got s lastSeen phase lastSeen' result results hattempt hcount h := by
    refine ⟨h.1, fun hlt => ?_⟩
    obtain ⟨n, values, hn, hseen, hresults, hvalues⟩ := h.2 hlt
    have hsound := h.1
    replace hattempt := (Shared.attempt_eq hcount).symm.trans hattempt
    rw [hsound] at hattempt
    rcases List.eq_nil_or_concat s.sent with hnil | ⟨sent, last, hsent⟩
    · simp [hnil] at hattempt
    · have hlength : s.sent.length = sent.length + 1 := by simp [hsent]
      have hmod : (s.sent.length - 1) % 2 ^ 64 = s.sent.length - 1 := Nat.mod_eq_of_lt (by omega)
      have hlast : s.sent.getLast? = some last := by simp [hsent]
      simp only [hlast, Option.map_some, hmod] at hattempt
      split at hattempt
      · next hne =>
        cases hattempt
        -- what the receiver had seen ends before the last value
        have hlt : n < s.sent.length := by
          refine Nat.lt_of_le_of_ne hn fun heq => hne ?_
          rw [hseen, if_neg (by omega), heq]
        refine ⟨s.sent.length, values ++ [last], Nat.le_refl _, (if_neg (by omega)).symm, ?_, ?_⟩
        · rw [hresults, List.map_append, List.map_singleton]
        · rw [List.take_length, hsent, List.concat_eq_append]
          rw [hsent, List.concat_eq_append, List.take_append_of_le_length (by omega)] at hvalues
          exact (hvalues.trans (List.take_sublist n sent)).append_right [last]
      · cases hattempt

/-- A call that finds nothing has seen the current version. -/
def condition : Condition (protocol (α := α)) where
  due s := s.sending + s.closing ≠ 0
  finds _ _ _ := True
  waits s lastSeen := s.state.hasValue lastSeen false = false

theorem lawful : (condition (α := α)).Lawful where
  start _ _ := trivial
  next _ _ _ _ _ _ := trivial
  nothing s lastSeen _ hattempt _ := Shared.hasValue_of_nothing hattempt
  got s lastSeen _ lastSeen' result hattempt := by
    refine ⟨fun _ _ => trivial, fun hwaits => ?_⟩
    -- another call of the receiver has got what this one found missing
    have hattempt : s.attempt lastSeen = .got lastSeen' result := hattempt
    unfold Shared.attempt impl at hattempt
    simp only [State.tryRecvInner_of_not_hasValue hwaits] at hattempt
    split at hattempt
    · next heq => simp at heq
    · next heq =>
      cases hattempt
      simp only [Prod.mk.injEq] at heq
      exact heq.1 ▸ hwaits
    · cases hattempt
  other s op s' hexec hquiet := by
    cases Shared.stepped hexec with
    | sent _ _ _ hsending => exact absurd (not_not.mp hquiet) (by omega)
    | kept hitem _ _ hdue =>
      refine ⟨not_not.mpr (hdue rfl (not_not.mp hquiet)), fun _ _ _ => trivial, fun _ hwaits => ?_⟩
      show s'.state.hasValue _ false = false
      unfold State.hasValue
      rw [hitem]
      exact hwaits
  clone _ hquiet := ⟨hquiet, fun _ _ _ => trivial, fun _ h => h⟩
  drop _ hquiet := ⟨hquiet, fun _ _ _ => trivial, fun _ h => h⟩

/-- **Values arrive in order, and nobody sleeps through one**, however the calls of any number of
senders and receivers interleave. What a receiver gets is a part of what was sent, in order, and it is
never told that the channel is closed. A `recv` that is parked and has not been notified has seen the
last value that was sent, unless somebody's next step notifies it. -/
theorem arrives_in_order {s : Concurrent α} (h : Reachable s) (hlt : s.shared.sent.length < 2 ^ 64) :
    (∀ key r, s.receivers.get key = some r →
      ∃ values : List α, r.results = values.map some ∧ values.Sublist s.shared.sent) ∧
    ∀ key c r, s.calls.get key = some c → s.receivers.get c.receiver = some r →
      c.pc = .parked false →
        (∀ value ∈ s.shared.sent.getLast?,
          s.shared.state.item = some ⟨value, s.shared.sent.length - 1⟩ ∧
            r.seen = s.shared.sent.length - 1) ∨
        ∃ op shared, s.shared.exec op = some (shared, true) := by
  have hcount : ∀ s : Concurrent α, Reachable s → s.receivers.length ≠ 0 →
      s.shared.state.receiverCount ≠ 0 := by
    intro s hs hne
    rwa [Listening.Reachable.counts counts rfl hs]
  have hseen := Listening.Reachable.keeps keeps seen_new hcount h
  refine ⟨fun key r hr => ?_, fun key c r hget hr hparked => ?_⟩
  · obtain ⟨n, values, -, -, hresults, hvalues⟩ := (hseen key r hr).2 hlt
    exact ⟨values, hresults, hvalues.trans (List.take_sublist ..)⟩
  · by_cases hdue : s.shared.sending + s.shared.closing = 0
    · obtain ⟨r', hr', hwaits⟩ := no_lost_wake_up lawful h hget hparked (not_not.mpr hdue)
      cases hr.symm.trans hr'
      refine .inl fun value hvalue => ?_
      have hitem : s.shared.state.item = some ⟨value, s.shared.sent.length - 1⟩ := by
        rw [(hseen _ r hr).1, hvalue, Option.map_some, Nat.mod_eq_of_lt (by omega)]
      refine ⟨hitem, ?_⟩
      replace hwaits : s.shared.state.hasValue r.seen false = false := hwaits
      simpa [State.hasValue, hitem] using hwaits
    · exact .inr (Shared.exists_notifying hdue)

/-- The first value is overwritten before the receiver comes to it. -/
theorem arrives_in_order_overwritten : ∃ (s : Concurrent Nat) (r : Receiver Nat (Option Nat)), Reachable s ∧
    s.receivers.get 0 = some r ∧ r.results = [some 2] ∧ s.shared.sent = [1, 2] ∧
    ((∀ value ∈ s.shared.sent.getLast?,
        s.shared.state.item = some ⟨value, s.shared.sent.length - 1⟩ ∧
          r.seen = s.shared.sent.length - 1) ∨
      ∃ op shared, s.shared.exec op = some (shared, true)) := by
  have hrun : ∃ s : Concurrent Nat, Reachable s ∧
      decide (s.receivers.get 0 = some ⟨1, [some 2]⟩ ∧ s.calls.get 1 = some ⟨0, .parked false⟩ ∧
        s.shared.sent = [1, 2]) = true :=
    exists_reachable (some (Listening.State.new Shared.new initialReceiverVersion))
      (fun _ h => (Option.some.inj h).symm)
      [.recv 0, .call 0, .call 0, .call 0, .other (.send 1), .other (.send 2), .other .notify,
        .other .notify, .call 0, .call 0, .recv 0, .call 1, .call 1, .call 1] (by decide +kernel)
  obtain ⟨s, hs, hp⟩ := hrun
  obtain ⟨hr, hget, hsent⟩ := of_decide_eq_true hp
  have horder := arrives_in_order hs (by rw [hsent]; decide)
  exact ⟨s, _, hs, hr, rfl, hsent, horder.2 1 _ _ hget hr rfl⟩

end Aquic.Sync.Watch.Mt

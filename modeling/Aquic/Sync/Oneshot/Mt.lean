import Aquic.Lib.Listening
import Aquic.Sync.Oneshot

/-!
# The multi-threaded oneshot

`sync/mpmc/oneshot/mt.rs`, with any number of senders and receivers. A `send` looks at the number of
receivers, stores the value and notifies; the drop of the last sender counts it off and notifies. A
`try_recv` looks into the cell, and then at the number of senders. Each of these is one access to the
shared state, and between any two of them everybody else may go on.

`Oneshot.send` and `Oneshot.tryRecv` are what the calls come to when nobody interferes
(`send_alone`, `tryRecv_alone`).
-/

namespace Aquic.Sync.Oneshot.Mt

open Collections
open Listening
open Run

/-- How far a `send` is. -/
inductive SendPc where
  | checking
  | storing
  | notifying
  deriving DecidableEq, Repr

structure Send (α : Type) where
  value : α
  pc : SendPc
  deriving DecidableEq, Repr

structure Shared (α : Type) where
  oneshot : Oneshot α
  /-- The calls of `send`. -/
  sends : Slots (Send α)
  /-- How many drops have counted off the last sender, and notify next. -/
  closing : Nat
  /-- History: what the calls of `send` have returned. -/
  returned : List (α × Except (SendError α) Unit)
  deriving DecidableEq

/-- The steps of the senders. -/
inductive Op (α : Type) where
  | send (value : α)
  /-- The `send` with this key goes on. -/
  | call (key : Nat)
  | cloneSender
  | dropSender
  /-- The drop of the last sender notifies. -/
  | close
  deriving DecidableEq, Repr

/-- What a `try_recv` looks at next. -/
inductive Phase where
  | container
  | senderCount
  deriving DecidableEq, Repr

variable {α : Type}

namespace Shared

/-- `channel()`. -/
def new : Shared α where
  oneshot := { container := none, senderCount := 1, receiverCount := 1 }
  sends := .empty
  closing := 0
  returned := []

def finish (s : Shared α) (key : Nat) (value : α) (result : Except (SendError α) Unit) : Shared α :=
  { s with sends := s.sends.remove key, returned := s.returned ++ [(value, result)] }

/-- `Sender::send`, one access at a time. -/
def step (s : Shared α) (key : Nat) (c : Send α) : Shared α × Bool :=
  match c.pc with
  | .checking =>
    if s.oneshot.receiverCount = 0 then (s.finish key c.value (.error .closed), false)
    else ({ s with sends := s.sends.set key { c with pc := .storing } }, false)
  | .storing =>
    match s.oneshot.container with
    | none =>
      ({ s with
        oneshot := { s.oneshot with container := some c.value }
        sends := s.sends.set key { c with pc := .notifying } }, false)
    | some result => (s.finish key c.value (.error (.full result)), false)
  | .notifying => (s.finish key c.value (.ok ()), true)

def exec (s : Shared α) : Op α → Option (Shared α × Bool)
  | .send value =>
    if s.oneshot.senderCount = 0 then none
    else some ({ s with sends := (s.sends.push ⟨value, .checking⟩).1 }, false)
  | .call key => do
    let c ← s.sends.get key
    some (s.step key c)
  | .cloneSender =>
    if s.oneshot.senderCount = 0 then none
    else some ({ s with
      oneshot := { s.oneshot with senderCount := s.oneshot.senderCount + 1 } }, false)
  -- a `send` borrows a sender, so the last one stays as long as there is one
  | .dropSender =>
    match s.oneshot.senderCount with
    | 0 => none
    | 1 =>
      if s.sends.length = 0 then
        some ({ s with
          oneshot := { s.oneshot with senderCount := 0 }, closing := s.closing + 1 }, false)
      else
        none
    | n + 2 => some ({ s with oneshot := { s.oneshot with senderCount := n + 1 } }, false)
  | .close => if s.closing = 0 then none else some ({ s with closing := s.closing - 1 }, true)

/-- `Receiver::try_recv`, one access at a time. -/
def attempt (s : Shared α) : Phase → Try Unit Phase (Option α)
  | .container =>
    match s.oneshot.container with
    | some value => .got () (some value)
    | none => .next .senderCount
  | .senderCount => if s.oneshot.senderCount = 0 then .got () none else .nothing

end Shared

/-- A receiver gets a value, or `none` for a closed channel. -/
def protocol : Protocol (Shared α) (Op α) Unit Phase (Option α) where
  other := Shared.exec
  clone s := { s with oneshot := { s.oneshot with receiverCount := s.oneshot.receiverCount + 1 } }
  drop s := { s with oneshot := { s.oneshot with receiverCount := s.oneshot.receiverCount - 1 } }
  start := .container
  attempt s _ := s.attempt

abbrev Channel (α : Type) := State (Shared α) Unit Phase (Option α)

def Reachable : Channel α → Prop := Listening.Reachable protocol .new ()

/-! ## Without interference -/

/-- One `send` is all there is. -/
def Shared.alone (o : Oneshot α) (value : α) : Shared α :=
  { Shared.new with oneshot := o, sends := ⟨[some ⟨value, .checking⟩]⟩ }

/-- A `send` that is not interfered with is `Oneshot.send`. -/
theorem send_alone (o : Oneshot α) (value : α) : ∃ n s,
    runAll anyStep (fun s op => (Shared.exec s op).map Prod.fst) (.alone o value)
      (List.replicate n (.call 0)) = some s ∧
    s.oneshot = (o.send value).1 ∧ s.returned = [(value, (o.send value).2)] := by
  obtain ⟨container, senders, receivers⟩ := o
  cases receivers with
  | zero => exact ⟨1, _, rfl, rfl, rfl⟩
  | succ receivers =>
    cases container with
    | none => exact ⟨3, _, rfl, rfl, rfl⟩
    | some result => exact ⟨2, _, rfl, rfl, rfl⟩

/-- So is a `try_recv`. -/
theorem tryRecv_alone (s : Shared α) :
    (match s.attempt .container with
      | .next phase => s.attempt phase
      | outcome => outcome) =
    match s.oneshot.tryRecv with
    | .ok value => .got () (some value)
    | .error .closed => .got () none
    | .error .empty => .nothing := by
  unfold Shared.attempt Oneshot.tryRecv
  cases s.oneshot.container with
  | some value => rfl
  | none =>
    by_cases hcount : s.oneshot.senderCount = 0
    · simp [hcount]
    · simp [hcount]

/-! ## One value -/

/-- The value a call has stored, as long as it has not returned. -/
def Send.stored (c : Send α) : Option α := if c.pc = .notifying then some c.value else none

/-- The value a call has stored that has returned. -/
def stored : α × Except (SendError α) Unit → Option α
  | (value, .ok ()) => some value
  | (_, .error _) => none

namespace Shared

variable {s s' : Shared α} {key : Nat} {c : Send α}

/-- The values of all calls that found the cell empty. -/
def accepted (s : Shared α) : List α :=
  s.returned.filterMap stored ++ s.sends.collect Send.stored

/-- There is one value, and whoever was refused was told the truth. -/
structure Sound (s : Shared α) : Prop where
  accepted : s.accepted.Perm s.oneshot.container.toList
  full : ∀ value result, (value, .error (.full result)) ∈ s.returned →
    s.oneshot.container = some result
  closed : ∀ value, (value, .error .closed) ∈ s.returned → s.oneshot.receiverCount = 0

theorem sound_new : (new : Shared α).Sound where
  accepted := .refl _
  full value result h := by cases h
  closed value h := by cases h

theorem accepted_finish_error (hget : s.sends.get key = some c) (hpc : c.pc ≠ .notifying)
    (value : α) (e : SendError α) : (s.finish key value (.error e)).accepted.Perm s.accepted := by
  have hremove := Slots.collect_remove hget Send.stored
  simp only [Send.stored, hpc, if_false, Option.toList_none, List.nil_append] at hremove
  simp only [accepted, finish, List.filterMap_append, List.filterMap_cons, stored,
    List.filterMap_nil, List.append_nil]
  exact hremove.append_left _

theorem accepted_finish_ok (hget : s.sends.get key = some c) (hpc : c.pc = .notifying) :
    (s.finish key c.value (.ok ())).accepted.Perm s.accepted := by
  have hremove := Slots.collect_remove hget Send.stored
  simp only [Send.stored, hpc, if_true, Option.toList_some] at hremove
  simp only [accepted, finish, List.filterMap_append, List.filterMap_cons, stored,
    List.filterMap_nil, List.append_assoc]
  exact hremove.append_left _

/-- A call that is refused. -/
theorem Sound.refuse (h : s.Sound) (hget : s.sends.get key = some c) (hpc : c.pc ≠ .notifying)
    {e : SendError α} (hfull : ∀ result, e = .full result → s.oneshot.container = some result)
    (hclosed : e = .closed → s.oneshot.receiverCount = 0) :
    (s.finish key c.value (.error e)).Sound where
  accepted := (accepted_finish_error hget hpc c.value e).trans h.accepted
  full value result hmem := by
    rcases List.mem_append.mp hmem with hmem | hmem
    · exact h.full value result hmem
    · simp only [List.mem_singleton, Prod.mk.injEq, Except.error.injEq] at hmem
      exact hfull result hmem.2.symm
  closed value hmem := by
    rcases List.mem_append.mp hmem with hmem | hmem
    · exact h.closed value hmem
    · simp only [List.mem_singleton, Prod.mk.injEq, Except.error.injEq] at hmem
      exact hclosed hmem.2.symm

/-- The first call that finds the cell empty. -/
theorem Sound.store (h : s.Sound) (hget : s.sends.get key = some c) (hpc : c.pc = .storing)
    (hnone : s.oneshot.container = none) :
    Sound { s with
      oneshot := { s.oneshot with container := some c.value }
      sends := s.sends.set key { c with pc := .notifying } } where
  accepted := by
    have hset := Slots.collect_set hget { c with pc := .notifying } Send.stored
    simp only [Send.stored, hpc, if_true, reduceCtorEq, if_false, Option.toList_none,
      Option.toList_some, List.nil_append] at hset
    have hempty := h.accepted
    rw [hnone, Option.toList_none, List.perm_nil] at hempty
    obtain ⟨hreturned, hsends⟩ := List.append_eq_nil_iff.mp hempty
    simp only [Shared.accepted, hreturned, List.nil_append]
    rw [hsends] at hset
    exact hset
  full value result hmem := by
    rw [h.full value result hmem] at hnone
    cases hnone
  closed := h.closed

theorem Sound.step (h : s.Sound) (hget : s.sends.get key = some c) : (s.step key c).1.Sound := by
  unfold Shared.step
  cases hpc : c.pc with
  | checking =>
    simp only
    split
    · next hreceivers => exact h.refuse hget (by simp [hpc]) (by simp) fun _ => hreceivers
    · have hset := Slots.collect_set hget { c with pc := .storing } Send.stored
      simp only [Send.stored, hpc, reduceCtorEq, if_false, Option.toList_none,
        List.nil_append] at hset
      exact { h with accepted := (hset.append_left _).trans h.accepted }
  | storing =>
    simp only
    cases hcontainer : s.oneshot.container with
    | none => exact h.store hget hpc hcontainer
    | some result =>
      refine h.refuse hget (by simp [hpc]) (fun result' heq => ?_) (by simp)
      cases heq
      exact hcontainer
  | notifying =>
    refine { h with
      accepted := (accepted_finish_ok hget hpc).trans h.accepted
      full := fun value result hmem => ?_
      closed := fun value hmem => ?_ }
    · rcases List.mem_append.mp hmem with hmem | hmem
      · exact h.full value result hmem
      · simp at hmem
    · rcases List.mem_append.mp hmem with hmem | hmem
      · exact h.closed value hmem
      · simp at hmem

theorem Sound.exec (h : s.Sound) {op : Op α} {notifies : Bool}
    (hexec : s.exec op = some (s', notifies)) : s'.Sound := by
  cases op with
  | send value =>
    simp only [Shared.exec, Option.ite_none_left_eq_some, Option.some.injEq, Prod.mk.injEq] at hexec
    obtain ⟨-, rfl, -⟩ := hexec
    have hpush := Slots.collect_push s.sends ⟨value, .checking⟩ Send.stored
    simp only [Send.stored, reduceCtorEq, if_false, Option.toList_none, List.append_nil] at hpush
    refine { h with accepted := ?_ }
    unfold Shared.accepted
    rw [hpush]
    exact h.accepted
  | call key =>
    simp only [Shared.exec, Option.bind_eq_bind, Option.bind_eq_some_iff, Option.some.injEq] at hexec
    obtain ⟨c, hget, hstep⟩ := hexec
    have hsound := h.step hget
    rwa [hstep] at hsound
  | cloneSender =>
    simp only [Shared.exec, Option.ite_none_left_eq_some, Option.some.injEq, Prod.mk.injEq] at hexec
    obtain ⟨-, rfl, -⟩ := hexec
    exact { h with }
  | dropSender =>
    simp only [Shared.exec] at hexec
    split at hexec
    · cases hexec
    · split at hexec
      · cases hexec
        exact { h with }
      · cases hexec
    · cases hexec
      exact { h with }
  | close =>
    simp only [Shared.exec, Option.ite_none_left_eq_some, Option.some.injEq, Prod.mk.injEq] at hexec
    obtain ⟨-, rfl, -⟩ := hexec
    exact { h with }

end Shared

/-! ## What a step of a sender changes -/

/-- The notifications that are due: of values that have been stored, and of the last sender's drop. -/
def Shared.notifications (s : Shared α) : Nat :=
  s.closing + s.sends.countP fun c => c.pc = .notifying

/-- What a step of a sender leaves of the state, and what it changes without a notification. -/
structure Moved (s s' : Shared α) (notifies : Bool) : Prop where
  receiverCount : s'.oneshot.receiverCount = s.oneshot.receiverCount
  container : ∀ value, s.oneshot.container = some value → s'.oneshot.container = some value
  senderCount : s.oneshot.senderCount = 0 → s'.oneshot.senderCount = 0
  quiet : notifies = false → s'.notifications = 0 → s.notifications = 0 ∧
    s'.oneshot.container = s.oneshot.container ∧
    (s.oneshot.senderCount ≠ 0 → s'.oneshot.senderCount ≠ 0)

namespace Shared

variable {s s' : Shared α} {key : Nat} {c : Send α}

theorem moved_refuse (hget : s.sends.get key = some c) (hpc : c.pc ≠ .notifying) (e : SendError α) :
    Moved s (s.finish key c.value (.error e)) false where
  receiverCount := rfl
  container _ h := h
  senderCount h := h
  quiet _ hquiet := by
    have hcount := Slots.countP_remove hget fun c => decide (c.pc = .notifying)
    simp only [hpc, decide_false, Bool.false_eq_true, if_false, Nat.add_zero] at hcount
    simp only [notifications, finish, hcount] at hquiet
    exact ⟨hquiet, rfl, id⟩

theorem moved_step (hget : s.sends.get key = some c) :
    Moved s (s.step key c).1 (s.step key c).2 := by
  unfold Shared.step
  cases hpc : c.pc with
  | checking =>
    simp only
    split
    · exact moved_refuse hget (by simp [hpc]) _
    · refine ⟨rfl, fun _ h => h, fun h => h, fun _ hquiet => ?_⟩
      have hcount := Slots.countP_set hget { c with pc := .storing }
        fun c => decide (c.pc = .notifying)
      simp only [hpc, reduceCtorEq, decide_false, Bool.false_eq_true, if_false,
        Nat.add_zero] at hcount
      simp only [notifications, hcount] at hquiet
      exact ⟨hquiet, rfl, id⟩
  | storing =>
    simp only
    cases hcontainer : s.oneshot.container with
    | some result => exact moved_refuse hget (by simp [hpc]) _
    | none =>
      refine ⟨rfl, fun value h => ?_, fun h => h, fun _ hquiet => ?_⟩
      · cases hcontainer.symm.trans h
      · have hcount := Slots.countP_set hget { c with pc := .notifying }
          fun c => decide (c.pc = .notifying)
        simp only [hpc, reduceCtorEq, decide_false, Bool.false_eq_true, if_false, Nat.add_zero,
          decide_true, if_true] at hcount
        simp only [notifications, hcount] at hquiet
        omega
  | notifying => exact ⟨rfl, fun _ h => h, fun h => h, by simp⟩

theorem moved_exec {op : Op α} {notifies : Bool} (hexec : s.exec op = some (s', notifies)) :
    Moved s s' notifies := by
  cases op with
  | send value =>
    simp only [Shared.exec, Option.ite_none_left_eq_some, Option.some.injEq, Prod.mk.injEq] at hexec
    obtain ⟨-, rfl, -⟩ := hexec
    refine ⟨rfl, fun _ h => h, fun h => h, fun _ hquiet => ?_⟩
    simp only [notifications, Slots.countP_push, reduceCtorEq, decide_false, Bool.false_eq_true,
      if_false, Nat.add_zero] at hquiet
    exact ⟨hquiet, rfl, id⟩
  | call key =>
    simp only [Shared.exec, Option.bind_eq_bind, Option.bind_eq_some_iff, Option.some.injEq] at hexec
    obtain ⟨c, hget, hstep⟩ := hexec
    have hmoved := moved_step hget
    rwa [hstep] at hmoved
  | cloneSender =>
    simp only [Shared.exec, Option.ite_none_left_eq_some, Option.some.injEq, Prod.mk.injEq] at hexec
    obtain ⟨hcount, rfl, -⟩ := hexec
    exact ⟨rfl, fun _ h => h, fun h => absurd h hcount,
      fun _ hquiet => ⟨hquiet, rfl, fun _ => Nat.succ_ne_zero _⟩⟩
  | dropSender =>
    simp only [Shared.exec] at hexec
    split at hexec
    · cases hexec
    · next hone =>
      split at hexec
      · cases hexec
        refine ⟨rfl, fun _ h => h, fun _ => rfl, fun _ hquiet => ?_⟩
        simp only [notifications] at hquiet
        omega
      · cases hexec
    · next n hcount =>
      cases hexec
      refine ⟨rfl, fun _ h => h, fun h => ?_, fun _ hquiet => ?_⟩
      · rw [hcount] at h
        cases h
      · exact ⟨hquiet, rfl, fun _ => Nat.succ_ne_zero n⟩
  | close =>
    simp only [Shared.exec, Option.ite_none_left_eq_some, Option.some.injEq, Prod.mk.injEq] at hexec
    obtain ⟨-, rfl, rfl⟩ := hexec
    exact ⟨rfl, fun _ h => h, fun h => h, by simp⟩

/-- A notification that is due is the next step of somebody. -/
theorem exists_notifying (h : s.notifications ≠ 0) :
    ∃ op s', s.exec op = some (s', true) := by
  by_cases hclosing : s.closing = 0
  · have hpos : 0 < s.sends.countP fun c => c.pc = .notifying := by
      unfold notifications at h
      omega
    obtain ⟨slot, hmem, hslot⟩ := List.countP_pos_iff.mp hpos
    obtain ⟨key, hlt, helem⟩ := List.mem_iff_getElem.mp hmem
    cases slot with
    | none => cases hslot
    | some c =>
      have hget : s.sends.get key = some c := by simp [Slots.get, hlt, helem]
      have hpc : c.pc = .notifying := of_decide_eq_true hslot
      refine ⟨.call key, s.finish key c.value (.ok ()), ?_⟩
      simp [Shared.exec, hget, Shared.step, hpc]
  · refine ⟨.close, { s with closing := s.closing - 1 }, ?_⟩
    simp only [Shared.exec, hclosing, if_false]

/-- What each outcome of a phase tells. -/
inductive Attempted (s : Shared α) : Phase → Try Unit Phase (Option α) → Prop
  | value {value : α} : s.oneshot.container = some value →
      Attempted s .container (.got () (some value))
  | empty : s.oneshot.container = none → Attempted s .container (.next .senderCount)
  | closed : s.oneshot.senderCount = 0 → Attempted s .senderCount (.got () none)
  | nothing : s.oneshot.senderCount ≠ 0 → Attempted s .senderCount .nothing

theorem attempted (s : Shared α) (phase : Phase) : s.Attempted phase (s.attempt phase) := by
  cases phase with
  | container =>
    cases hcontainer : s.oneshot.container with
    | some value =>
      simp only [Shared.attempt, hcontainer]
      exact .value hcontainer
    | none =>
      simp only [Shared.attempt, hcontainer]
      exact .empty hcontainer
  | senderCount =>
    by_cases hcount : s.oneshot.senderCount = 0
    · simp only [Shared.attempt, hcount, if_true]
      exact .closed hcount
    · simp only [Shared.attempt, hcount, if_false]
      exact .nothing hcount

theorem attempted_of_eq {phase : Phase} {outcome : Try Unit Phase (Option α)}
    (h : (protocol (α := α)).attempt s () phase = outcome) : s.Attempted phase outcome :=
  h ▸ s.attempted phase

end Shared

/-! ## The receivers -/

theorem counts : Counts (protocol (α := α)) (·.oneshot.receiverCount) where
  other _ _ _ _ hexec := (Shared.moved_exec hexec).receiverCount
  clone _ := rfl
  drop _ hpos := Nat.sub_add_cancel hpos

/-- A receiver has got the value, or has found the senders gone. -/
def Got (s : Shared α) (_ : Unit) (results : List (Option α)) : Prop :=
  ∀ result ∈ results, match result with
    | some value => s.oneshot.container = some value
    | none => s.oneshot.senderCount = 0

theorem keeps : Keeps (protocol (α := α)) (fun _ => True) Got where
  other s op s' notifies seen results hexec h := by
    have hmoved := Shared.moved_exec hexec
    intro result hmem
    have hold := h result hmem
    cases result with
    | some value => exact hmoved.container value hold
    | none => exact hmoved.senderCount hold
  clone s seen results h := ⟨h, by simp [Got]⟩
  drop s seen results h := h
  got s seen phase seen' result results hattempt _ h := by
    intro result' hmem
    rcases List.mem_append.mp hmem with hmem | hmem
    · exact h result' hmem
    · cases List.mem_singleton.mp hmem
      cases Shared.attempted_of_eq hattempt with
      | value hcontainer => exact hcontainer
      | closed hcount => exact hcount

/-- A call that comes to the number of senders has found the cell empty. -/
def condition : Condition (protocol (α := α)) where
  due s := s.notifications ≠ 0
  finds s _ phase := phase = .senderCount → s.oneshot.container = none
  waits s _ := s.oneshot.container = none ∧ s.oneshot.senderCount ≠ 0

theorem lawful : (condition (α := α)).Lawful where
  start _ _ h := by cases h
  next s _ phase phase' hattempt _ := by
    cases Shared.attempted_of_eq hattempt with
    | empty hcontainer => exact fun _ => hcontainer
  nothing s _ phase hattempt hfinds := by
    cases Shared.attempted_of_eq hattempt with
    | nothing hcount => exact ⟨hfinds rfl, hcount⟩
  got _ _ _ _ _ _ := ⟨fun _ h => h, fun h => h⟩
  other s op s' hexec hquiet := by
    obtain ⟨hdue, hcontainer, hcount⟩ :=
      (Shared.moved_exec hexec).quiet rfl (not_not.mp hquiet)
    refine ⟨not_not.mpr hdue, fun _ _ hfinds heq => ?_, fun _ hwaits => ?_⟩
    · exact hcontainer.trans (hfinds heq)
    · exact ⟨hcontainer.trans hwaits.1, hcount hwaits.2⟩
  clone _ hquiet := ⟨hquiet, fun _ _ h => h, fun _ h => h⟩
  drop _ hquiet := ⟨hquiet, fun _ _ h => h, fun _ h => h⟩

theorem sound {s : Channel α} (h : Reachable s) : s.shared.Sound := by
  have hinv : s.shared.Sound ∧ s.shared.oneshot.receiverCount = s.receivers.length := by
    apply Listening.Reachable.rule h
    · exact ⟨Shared.sound_new, rfl⟩
    · rintro s s' ⟨hsound, hcount⟩ hstep
      refine ⟨?_, counts.step hcount hstep⟩
      cases hstep with
      | other hother | notify hother => exact hsound.exec hother
      | begin | leave | goto | finish => exact hsound
      | clone hreceiver =>
        refine { hsound with closed := fun value hmem => ?_ }
        have hpos := length_ne_zero hreceiver
        have hzero := hsound.closed value hmem
        omega
      | drop hreceiver hfree =>
        refine { hsound with closed := fun value hmem => ?_ }
        have hzero := hsound.closed value hmem
        show s.shared.oneshot.receiverCount - 1 = 0
        omega
  exact hinv.1

/-- At most one call of `send` succeeds. -/
theorem Shared.Sound.countP_isOk_le {s : Shared α} (h : s.Sound) :
    s.returned.countP (·.2.isOk) ≤ 1 := by
  have hok : s.returned.countP (·.2.isOk) = (s.returned.filterMap stored).length := by
    rw [List.length_filterMap_eq_countP]
    apply List.countP_congr
    rintro ⟨value, _ | ⟨⟨⟩⟩⟩ _ <;> simp [stored, Except.isOk, Except.toBool]
  have hlength := h.accepted.length_eq
  have hone : s.oneshot.container.toList.length ≤ 1 := by
    cases s.oneshot.container <;> simp
  simp only [Shared.accepted, List.length_append] at hlength
  omega

theorem Shared.Sound.container_of_ok {s : Shared α} (h : s.Sound) {value : α}
    (hmem : (value, .ok ()) ∈ s.returned) : s.oneshot.container = some value := by
  have hvalue : value ∈ s.accepted := by
    apply List.mem_append_left
    exact List.mem_filterMap.mpr ⟨_, hmem, rfl⟩
  exact Option.mem_toList.mp (h.accepted.mem_iff.mp hvalue)

/-- **One value for all, and nobody sleeps through it**, however the accesses of any number of senders
and receivers interleave. At most one `send` succeeds; its value is the one that the others are told
when they are refused, and the only one that a receiver ever gets. A receiver is told that the channel
is closed only after the last sender is gone. And a `recv` that is parked and has not been notified
has nothing to get, unless somebody's next step notifies it. -/
theorem one_value_for_all {s : Channel α} (h : Reachable s) :
    s.shared.returned.countP (·.2.isOk) ≤ 1 ∧
    (∀ value result, (value, result) ∈ s.shared.returned → match result with
      | .ok () => s.shared.oneshot.container = some value
      | .error (.full actual) => s.shared.oneshot.container = some actual
      | .error .closed => s.receivers.length = 0) ∧
    (∀ key r, s.receivers.get key = some r → ∀ result ∈ r.results, match result with
      | some value => s.shared.oneshot.container = some value
      | none => s.shared.oneshot.senderCount = 0) ∧
    ∀ key c, s.calls.get key = some c → c.pc = .parked false →
      (s.shared.oneshot.container = none ∧ s.shared.oneshot.senderCount ≠ 0) ∨
        ∃ op shared, s.shared.exec op = some (shared, true) := by
  have hsound := sound h
  refine ⟨hsound.countP_isOk_le, ?_, ?_, ?_⟩
  · intro value result hmem
    match result, hmem with
    | .ok (), hmem => exact hsound.container_of_ok hmem
    | .error (.full actual), hmem => exact hsound.full value actual hmem
    | .error .closed, hmem =>
      rw [← Listening.Reachable.counts counts rfl h]
      exact hsound.closed value hmem
  · intro key r hr
    have hnew : Got (Shared.new : Shared α) () [] := by simp [Got]
    exact Listening.Reachable.keeps keeps hnew (fun _ _ _ => trivial) h key r hr
  · intro key c hget hparked
    by_cases hdue : s.shared.notifications = 0
    · obtain ⟨r, -, hwaits⟩ := no_lost_wake_up lawful h hget hparked (not_not.mpr hdue)
      exact .inl hwaits
    · exact .inr (Shared.exists_notifying hdue)

/-- A value has been stored, and its notification is still to come. -/
theorem one_value_for_all_stored : ∃ s : Channel Nat, Reachable s ∧
    s.shared.returned.countP (·.2.isOk) ≤ 1 ∧
    ∃ op shared, s.shared.exec op = some (shared, true) := by
  have hrun : ∃ s : Channel Nat, Reachable s ∧
      decide (s.calls.get 0 = some ⟨0, .parked false⟩ ∧
        s.shared.oneshot.container = some 7) = true :=
    exists_reachable (some (State.new Shared.new ())) (fun _ h => (Option.some.inj h).symm)
      [.recv 0, .call 0, .call 0, .call 0, .call 0, .call 0,
        .other (.send 7), .other (.call 0), .other (.call 0)] (by decide +kernel)
  obtain ⟨s, hs, hp⟩ := hrun
  obtain ⟨hget, hcontainer⟩ := of_decide_eq_true hp
  obtain ⟨hone, -, -, hawake⟩ := one_value_for_all hs
  refine ⟨s, hs, hone, (hawake 0 _ hget rfl).resolve_left ?_⟩
  rw [hcontainer]
  simp

/-- Being told that the channel is closed does not mean that it was empty: between the two accesses of
`try_recv` the value is sent and the last sender dropped. -/
example : ∃ s : Channel Nat, Reachable s ∧ decide (s.shared.oneshot.container = some 7 ∧
    s.receivers.get 0 = some ⟨(), [none]⟩) = true :=
  exists_reachable (some (State.new Shared.new ())) (fun _ h => (Option.some.inj h).symm)
    [.tryRecv 0, .call 0, .other (.send 7), .other (.call 0), .other (.call 0), .other (.call 0),
      .other .dropSender, .call 0] (by decide +kernel)

end Aquic.Sync.Oneshot.Mt

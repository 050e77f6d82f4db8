import Aquic.Sync.Weighted.Mt

/-!
# Dropping the multi-threaded weighted receiver

The body of `Drop` resets the occupation and notifies; the queue becomes disconnected only when the
unbounded receiver is dropped afterwards. In between the channel looks empty and open. A call that
registers its listener then is not reached by the notification any more, and relies on its second look
at the channel: it must find capacity there, or find the channel closed.

It may find neither (`sender_parks_forever`): another call takes the capacity first. As long as this
does not happen nobody is left parked (`drop_releases`), and whenever it does happen somebody is.
-/

namespace Aquic.Sync.Weighted.Mt

open Collections
open Run
open Word

variable {α : Type}

/-- The drop of the receiver has notified for the last time. -/
def ReceiverPc.hasNotified : ReceiverPc α → Bool
  | .dropInner => true
  | .gone => true
  | _ => false

/-- The call has registered its listener after the last notification of the receiver, and is about to
find that there is no capacity for it. -/
def Channel.Misses (s : Channel α) (c : Call α) : Prop :=
  s.receiver.hasNotified = true ∧ c.pc = .reloading false ∧
    hasCapacity s.occupation c.weight s.bound = false

/-- The step is not taken by a call that misses the notification. -/
def FindsCapacity (s : Channel α) : Op α → Prop
  | .call key _ => ∀ c ∈ s.calls.get key, ¬ s.Misses c
  | _ => True

instance (s : Channel α) (c : Call α) : Decidable (s.Misses c) :=
  inferInstanceAs (Decidable (_ ∧ _ ∧ _))

instance : DecidableRel (FindsCapacity (α := α)) := fun s op =>
  match op with
  | .call key _ => inferInstanceAs (Decidable (∀ c ∈ s.calls.get key, ¬ s.Misses c))
  | .send .. | .trySend .. | .cancel _ | .wake _ | .recv | .tryRecv | .receiver | .dropReceiver =>
    .isTrue trivial

theorem Pc.notify_ne_parked (pc : Pc) : pc.notify ≠ .parked false := by
  cases pc <;> simp [Pc.notify]

namespace Channel

variable {s s' : Channel α} {key : Nat} {c : Call α}

/-- After the last notification nobody is parked who has not been notified. -/
def Released (s : Channel α) : Prop :=
  s.receiver.hasNotified = true → ∀ key c, s.calls.get key = some c → c.pc ≠ .parked false

theorem released_of_not_hasNotified (h : s.receiver.hasNotified = false) : s.Released :=
  fun hnotified => absurd hnotified (by simp [h])

theorem released_notifyAll (s : Channel α) {key : Nat} (h : s.notifyAll.calls.get key = some c) :
    c.pc ≠ .parked false := by
  simp only [notifyAll, Slots.get_map, Option.map_eq_some_iff] at h
  obtain ⟨c, -, rfl⟩ := h
  exact Pc.notify_ne_parked c.pc

/-- One call goes on, the others stay where they are. -/
theorem Released.set (h : s.Released) (hget : s.calls.get key = some c) (c₁ : Call α)
    (hpc : s.receiver.hasNotified = true → c₁.pc ≠ .parked false)
    (hcalls : s'.calls = s.calls.set key c₁) (hreceiver : s'.receiver = s.receiver) :
    s'.Released := by
  intro hnotified k c' hk
  rw [hreceiver] at hnotified
  rw [hcalls, Slots.get_set (by simp [hget])] at hk
  split at hk
  · exact Option.some.inj hk ▸ hpc hnotified
  · exact h hnotified k c' hk

theorem Released.callStep (h : s.Released) (hget : s.calls.get key = some c) (hok : ¬ s.Misses c)
    (hstep : CallStep s key c s') : s'.Released := by
  cases hstep with
  | goto pc _ _ _ _ _ hparked =>
    refine h.set hget { c with pc } (fun hnotified heq => ?_) rfl rfl
    exact hok ⟨hnotified, hparked heq⟩
  | reserve _ => exact h.set hget { c with pc := .enqueuing } (by simp) rfl rfl
  | enqueue _ _ => exact h.set hget { c with pc := .returned .ok } (by simp) rfl rfl
  | clear _ => exact h.set hget { c with pc := .notifying } (by simp) rfl rfl
  | notify _ => exact fun _ _ _ hk => released_notifyAll _ hk

theorem Released.receiverStep (h : s.Released) (hstep : s.receiverStep = some s') :
    s'.Released := by
  cases hpc : s.receiver with
  | idle | gone => simp [Channel.receiverStep, hpc] at hstep
  | releasing value weight =>
    simp only [Channel.receiverStep, hpc] at hstep
    split at hstep <;> cases hstep <;> exact released_of_not_hasNotified rfl
  | notifying value | dropping =>
    simp only [Channel.receiverStep, hpc, Option.some.injEq] at hstep
    subst hstep
    exact released_of_not_hasNotified rfl
  | dropNotifying =>
    simp only [Channel.receiverStep, hpc, Option.some.injEq] at hstep
    subst hstep
    exact fun _ _ _ hk => released_notifyAll s hk
  | dropInner =>
    simp only [Channel.receiverStep, hpc, Option.some.injEq] at hstep
    subst hstep
    exact fun _ => h (by simp [hpc, ReceiverPc.hasNotified])

/-- A call begins. -/
theorem Released.push (h : s.Released) {c₁ : Call α} (hpc : c₁.pc ≠ .parked false) :
    Released { s with calls := (s.calls.push c₁).1 } := by
  intro hnotified k c' hk
  rw [Slots.get_push] at hk
  split at hk
  · exact Option.some.inj hk ▸ hpc
  · exact h hnotified k c' hk

theorem Released.step (h : s.Released) {op : Op α} (hok : FindsCapacity s op)
    (hexec : s.exec op = some s') : s'.Released := by
  cases op with
  | send value weight | trySend value weight =>
    simp only [exec, Option.ite_none_right_eq_some, Option.some.injEq] at hexec
    exact hexec.2 ▸ h.push (by simp)
  | call key weak =>
    simp only [exec, Option.bind_eq_bind, Option.bind_eq_some_iff] at hexec
    obtain ⟨c, hget, hstep⟩ := hexec
    exact h.callStep hget (hok c hget) (callStep_sound hstep)
  | cancel key =>
    simp only [exec, Option.bind_eq_bind, Option.bind_eq_some_iff] at hexec
    obtain ⟨c, hget, hstep⟩ := hexec
    split at hstep
    · cases hstep
      intro hnotified k c' hk
      simp only [Slots.get_remove] at hk
      split at hk
      · cases hk
      · exact h hnotified k c' hk
    · cases hstep
  | wake key =>
    simp only [exec, Option.bind_eq_bind, Option.bind_eq_some_iff, Option.some.injEq] at hexec
    obtain ⟨c, hget, rfl⟩ := hexec
    exact h.set hget c.notify (fun _ => Pc.notify_ne_parked c.pc) rfl rfl
  | recv | tryRecv =>
    simp only [exec] at hexec
    split at hexec
    · next hidle =>
      cases hexec
      unfold take
      split
      · exact h
      · exact released_of_not_hasNotified rfl
    · cases hexec
  | receiver => exact h.receiverStep hexec
  | dropReceiver =>
    simp only [exec] at hexec
    split at hexec
    · cases hexec
      exact released_of_not_hasNotified rfl
    · cases hexec

/-- A call that misses the notification parks, and the receiver goes away without another word. -/
theorem Misses.parks {bound : Nat} (hs : Reachable bound s) (hget : s.calls.get key = some c)
    (h : s.Misses c) : ∃ s' : Channel α, Reachable bound s' ∧ s'.receiver = .gone ∧
      ∃ c', s'.calls.get key = some c' ∧ c'.pc = .parked false := by
  obtain ⟨hnotified, hpc, hcap⟩ := h
  have hpark : s.exec (.call key false) = some (s.goto key c (.parked false)) := by
    simp [exec, hget, callStep, hpc, hcap]
  have hparked : (s.goto key c (.parked false)).calls.get key =
      some { c with pc := .parked false } := by
    simp only [goto]
    rw [Slots.get_set (by simp [hget]), if_pos rfl]
  have hs₁ : Reachable bound (s.goto key c (.parked false)) := Run.Reachable.step hs trivial hpark
  cases hreceiver : s.receiver with
  | gone => exact ⟨_, hs₁, hreceiver, _, hparked, rfl⟩
  | dropInner =>
    have hdrop : (s.goto key c (.parked false)).exec .receiver =
        some { s.goto key c (.parked false) with queue := [], receiver := .gone } := by
      simp [exec, receiverStep, goto, hreceiver]
    exact ⟨_, Run.Reachable.step hs₁ trivial hdrop, rfl, _, hparked, rfl⟩
  | _ => simp [hreceiver, ReceiverPc.hasNotified] at hnotified

end Channel

/-- **The drop of the receiver releases every sender that finds capacity.** In every run in which no
call misses the last notification, a receiver that is gone leaves nobody parked; and every state in
which a call does miss it leads to one in which the receiver is gone and the call is parked. -/
theorem drop_releases (bound : Nat) :
    (∀ s : Channel α, Run.Reachable (· = channel bound) FindsCapacity Channel.exec s →
      s.receiver = .gone → ∀ key c, s.calls.get key = some c → c.pc ≠ .parked false) ∧
    ∀ (s : Channel α) (key : Nat) (c : Call α), Reachable bound s → s.calls.get key = some c →
      s.Misses c → ∃ s' : Channel α, Reachable bound s' ∧ s'.receiver = .gone ∧
        ∃ c', s'.calls.get key = some c' ∧ c'.pc = .parked false := by
  refine ⟨fun s hs hgone => ?_, fun s key c hs hget hmisses => hmisses.parks hs hget⟩
  have hreleased : s.Released := by
    refine Run.Reachable.invariant ?_ (fun _ _ _ hinv hok hexec => hinv.step hok hexec) hs
    rintro s rfl hnotified
    cases hnotified
  exact hreleased (by simp [hgone, ReceiverPc.hasNotified])

/-- A sender that was parked in time is woken. -/
theorem drop_releases_parked : ∃ (s : Channel Nat) (c : Call Nat),
    Run.Reachable (· = channel 1) FindsCapacity Channel.exec s ∧ s.receiver = .gone ∧
    s.calls.get 1 = some c ∧ c.pc = .parked true ∧ c.pc ≠ .parked false := by
  have hrun : ∃ s : Channel Nat, Run.Reachable (· = channel 1) FindsCapacity Channel.exec s ∧
      decide (s.receiver = .gone ∧ s.calls.get 1 = some ⟨1, 1, false, .parked true⟩) = true :=
    exists_reachable (some (channel 1)) (fun _ h => (Option.some.inj h).symm)
      [.send 0 5, .call 0 false, .call 0 false, .call 0 false, .call 0 false,
        .send 1 1, .call 1 false, .call 1 false, .call 1 false, .call 1 false, .call 1 false,
        .dropReceiver, .receiver, .receiver, .receiver] (by decide +kernel)
  obtain ⟨s, hs, hp⟩ := hrun
  obtain ⟨hgone, hget⟩ := of_decide_eq_true hp
  exact ⟨s, _, hs, hgone, hget, rfl, (drop_releases 1).1 s hs hgone 1 _ hget⟩

/-- **A sender parks forever.** The second sender has seen a full channel; the receiver resets the
occupation and notifies; a third sender takes the capacity and is done; the second sender registers
its listener, finds the channel open and full, and parks; the unbounded receiver is dropped. -/
theorem sender_parks_forever : ∃ s : Channel Nat, Reachable 1 s ∧ s.receiver = .gone ∧
    s.calls.get 0 = some ⟨0, 5, false, .returned .ok⟩ ∧
    s.calls.get 1 = some ⟨1, 1, false, .parked false⟩ ∧
    s.calls.get 2 = some ⟨2, 5, false, .returned .ok⟩ := by
  have hrun : ∃ s : Channel Nat, Reachable 1 s ∧
      decide (s.receiver = .gone ∧ s.calls.get 0 = some ⟨0, 5, false, .returned .ok⟩ ∧
        s.calls.get 1 = some ⟨1, 1, false, .parked false⟩ ∧
        s.calls.get 2 = some ⟨2, 5, false, .returned .ok⟩) = true :=
    exists_reachable (some (channel 1)) (fun _ h => (Option.some.inj h).symm)
      [.send 0 5, .call 0 false, .call 0 false, .call 0 false, .call 0 false,
        .send 1 1, .call 1 false, .call 1 false,
        .dropReceiver, .receiver, .receiver,
        .send 2 5, .call 2 false, .call 2 false, .call 2 false, .call 2 false,
        .call 1 false, .call 1 false, .call 1 false,
        .receiver] (by decide +kernel)
  obtain ⟨s, hs, hp⟩ := hrun
  exact ⟨s, hs, of_decide_eq_true hp⟩

end Aquic.Sync.Weighted.Mt

import Aquic.Sync.Weighted.Closing
import Aquic.Sync.Weighted.Exact

/-!
# Waking the senders of the multi-threaded weighted channel

A sender that finds no capacity registers its listener, looks once more and parks. The receiver
notifies after it has released a weight, and only if an item of that weight would fit again; it does
not know what the parked senders wait for. Between the release and the notification other senders
come and go.

The invariant is `Asleep`: whoever is parked and has not been notified would still find no capacity,
or the receiver is between a release and its notification. The one case in which the receiver stays
silent is that of `Budget.Exact.eq_zero_of_give`: it has removed an item of weight zero from a channel
that is over its bound.
-/

namespace Aquic.Sync.Weighted.Mt

open Collections
open Run
open Word

variable {α : Type}

/-- A weight was released that would fit again, and everybody who listens is notified next. -/
def ReceiverPc.isNotifying : ReceiverPc α → Bool
  | .notifying _ => true
  | _ => false

namespace Channel

variable {s s' : Channel α} {key bound : Nat} {c : Call α}

/-- The call does not fit, or is about to be notified. -/
def Sleeps (s : Channel α) (c : Call α) : Prop :=
  s.receiver.isNotifying = true ∨ hasCapacity s.occupation c.weight s.bound = false

/-- As long as the receiver is alive nobody is parked who could go on. -/
def Asleep (s : Channel α) : Prop :=
  s.receiver.isAlive = true →
    ∀ key c, s.calls.get key = some c → c.pc = .parked false → s.Sleeps c

theorem asleep_channel (bound : Nat) : (channel bound : Channel α).Asleep := by
  intro _ key c hget
  simp [channel, Slots.empty, Slots.get] at hget

theorem Sleeps.mono (h : s.Sleeps c) (hreceiver : s'.receiver = s.receiver)
    (hbound : s'.bound = s.bound) (hle : s.occupation ≤ s'.occupation) : s'.Sleeps c := by
  unfold Sleeps at h ⊢
  rw [hreceiver, hbound]
  exact h.imp_right (St.Channel.hasCapacity_eq_false_of_le · hle)

/-- One call goes on, and nothing is released. -/
theorem Asleep.set (h : s.Asleep) (hget : s.calls.get key = some c) (c₁ : Call α)
    (hparked : c₁.pc = .parked false → hasCapacity s'.occupation c₁.weight s'.bound = false)
    (hcalls : s'.calls = s.calls.set key c₁) (hreceiver : s'.receiver = s.receiver)
    (hbound : s'.bound = s.bound) (hle : s.occupation ≤ s'.occupation) : s'.Asleep := by
  intro halive k c' hk hpc
  rw [hcalls, Slots.get_set (by simp [hget])] at hk
  split at hk
  · obtain rfl := Option.some.inj hk
    exact .inr (hparked hpc)
  · rw [hreceiver] at halive
    exact (h halive k c' hk hpc).mono hreceiver hbound hle

theorem Asleep.callStep (h : s.Asleep) (haccount : Accounted bound s)
    (hget : s.calls.get key = some c) (hstep : CallStep s key c s') : s'.Asleep := by
  have hok := haccount.calls key c hget
  cases hstep with
  | goto pc _ _ _ _ _ hparked =>
    exact h.set hget { c with pc } (fun heq => (hparked heq).2) rfl rfl rfl (Nat.le_refl _)
  | reserve hpc =>
    have hcap := hok.reserving _ hpc
    have hadd := wrappingAdd_of_lt (add_lt_of_hasCapacity hok.weight hcap)
    refine h.set hget { c with pc := .enqueuing } (fun heq => nomatch heq) rfl rfl rfl ?_
    show s.occupation ≤ wrappingAdd 64 s.occupation c.weight
    omega
  | enqueue _ _ =>
    exact h.set hget { c with pc := .returned .ok } (fun heq => nomatch heq) rfl rfl rfl
      (Nat.le_refl _)
  | clear hpc => exact fun halive => absurd halive (not_isAlive_of_isClosed (hok.closed (.inl hpc)))
  | notify hpc => exact fun halive => absurd halive (not_isAlive_of_isClosed (hok.closed (.inr hpc)))

/-- After a notification nobody is parked who was not notified. -/
theorem asleep_notifyAll (hcalls : s'.calls = s.notifyAll.calls) : s'.Asleep := by
  intro _ k c' hk hpc
  rw [hcalls] at hk
  exact absurd hpc (released_notifyAll s hk)

/-- **The receiver notifies when it matters.** When it stays silent nothing was released. -/
theorem Asleep.release (h : s.Asleep) (haccount : Accounted bound s) {value : α} {weight : Nat}
    (hpc : s.receiver = .releasing value weight) (hstep : s.receiverStep = some s') :
    s'.Asleep := by
  have halive : s.receiver.isAlive = true := by
    rw [hpc]
    rfl
  have hsound := haccount.books halive
  have htaken : s.books.taken = some (value, weight) := by
    simp [books, hpc, ReceiverPc.taken]
  have hle : weight ≤ s.occupation := hsound.le_of_taken htaken
  have hsub : wrappingSub 64 s.occupation weight = s.occupation - weight := wrappingSub_of_le hle
  simp only [Channel.receiverStep, hpc, hsub] at hstep
  split at hstep
  · cases hstep
    exact fun _ _ _ _ _ => .inl rfl
  · next hsilent =>
    cases hstep
    have hlt : s.occupation < 2 ^ 64 := hsound.lt
    simp only [hasCapacity_iff, not_or] at hsilent
    have hzero : weight = 0 :=
      (hsound.exact_of_taken htaken).eq_zero_of_give (by simp only [books]; omega) hsilent.1
    have hsame : s.occupation - weight = s.occupation := by omega
    intro _ k c' hk hparked
    rcases h halive k c' hk hparked with hnotifying | hfull
    · simp [hpc, ReceiverPc.isNotifying] at hnotifying
    · refine .inr ?_
      show hasCapacity (s.occupation - weight) c'.weight s.bound = false
      rw [hsame]
      exact hfull

theorem Asleep.receiverStep (h : s.Asleep) (haccount : Accounted bound s)
    (hstep : s.receiverStep = some s') : s'.Asleep := by
  cases hpc : s.receiver with
  | idle | gone => simp [Channel.receiverStep, hpc] at hstep
  | releasing value weight => exact h.release haccount hpc hstep
  | notifying value =>
    simp only [Channel.receiverStep, hpc, Option.some.injEq] at hstep
    subst hstep
    exact asleep_notifyAll (s := s) rfl
  | dropping | dropNotifying | dropInner =>
    simp only [Channel.receiverStep, hpc, Option.some.injEq] at hstep
    subst hstep
    exact fun halive => absurd halive Bool.false_ne_true

/-- A call begins. -/
theorem Asleep.push (h : s.Asleep) {c₁ : Call α} (hpc : c₁.pc ≠ .parked false) :
    Asleep { s with calls := (s.calls.push c₁).1 } := by
  intro halive k c' hk hparked
  rw [Slots.get_push] at hk
  split at hk
  · obtain rfl := Option.some.inj hk
    exact absurd hparked hpc
  · exact h halive k c' hk hparked

theorem Asleep.step (h : s.Asleep) (haccount : Accounted bound s) {op : Op α}
    (hexec : s.exec op = some s') : s'.Asleep := by
  cases op with
  | send value weight | trySend value weight =>
    simp only [exec, Option.ite_none_right_eq_some, Option.some.injEq] at hexec
    exact hexec.2 ▸ h.push (by simp)
  | call key weak =>
    simp only [exec, Option.bind_eq_bind, Option.bind_eq_some_iff] at hexec
    obtain ⟨c, hget, hstep⟩ := hexec
    exact h.callStep haccount hget (callStep_sound hstep)
  | cancel key =>
    simp only [exec, Option.bind_eq_bind, Option.bind_eq_some_iff] at hexec
    obtain ⟨c, hget, hstep⟩ := hexec
    split at hstep
    · cases hstep
      intro halive k c' hk hparked
      rw [Slots.get_remove] at hk
      split at hk
      · cases hk
      · exact h halive k c' hk hparked
    · cases hstep
  | wake key =>
    simp only [exec, Option.bind_eq_bind, Option.bind_eq_some_iff, Option.some.injEq] at hexec
    obtain ⟨c, hget, rfl⟩ := hexec
    refine h.set hget c.notify (fun heq => ?_) rfl rfl rfl (Nat.le_refl _)
    exact absurd heq (Pc.notify_ne_parked c.pc)
  | recv | tryRecv =>
    simp only [exec] at hexec
    split at hexec
    · next hidle =>
      cases hexec
      intro _ k c' hk hparked
      have hcalls : s.take.calls = s.calls ∧ s.take.occupation = s.occupation ∧
          s.take.bound = s.bound := by
        unfold Channel.take
        split <;> exact ⟨rfl, rfl, rfl⟩
      rw [hcalls.1] at hk
      rcases h (by rw [hidle]; rfl) k c' hk hparked with hnotifying | hfull
      · simp [hidle, ReceiverPc.isNotifying] at hnotifying
      · refine .inr ?_
        rw [hcalls.2.1, hcalls.2.2]
        exact hfull
    · cases hexec
  | receiver => exact h.receiverStep haccount hexec
  | dropReceiver =>
    simp only [exec] at hexec
    split at hexec
    · cases hexec
      exact fun halive => absurd halive Bool.false_ne_true
    · cases hexec

theorem asleep (h : Reachable bound s) : s.Asleep := by
  unfold Reachable at h
  induction h with
  | init heq => exact heq ▸ asleep_channel bound
  | step hreach _ hexec ih => exact ih.step (accounted hreach) hexec

end Channel

/-- **No sender sleeps while it could proceed**, whatever the senders and the receiver do between the
release of a weight and its notification. A sender that is parked and has not been notified, while the
receiver is alive and not about to notify, does not fit into the channel; and what fills the channel
is an item of the books: it is queued, a sender is about to enqueue it, or the receiver is about to
release it. -/
theorem no_parked_sender_fits {bound : Nat} {s : Channel α} (h : Reachable bound s)
    (halive : s.receiver.isAlive = true) (hquiet : s.receiver.isNotifying = false) {key : Nat}
    {c : Call α} (hget : s.calls.get key = some c) (hparked : c.pc = .parked false) :
    hasCapacity s.occupation c.weight s.bound = false ∧ ∃ item ∈ s.books.charged, 0 < item.2 := by
  have hfull : hasCapacity s.occupation c.weight s.bound = false := by
    refine (Channel.asleep h halive key c hget hparked).resolve_left ?_
    rw [hquiet]
    exact Bool.false_ne_true
  refine ⟨hfull, ?_⟩
  have hexact := ((Channel.accounted h).books halive).exact
  have hoccupied : s.books.occupation ≠ 0 := by
    intro hzero
    have hcap : hasCapacity s.occupation c.weight s.bound = true := hasCapacity_iff.mpr (.inl hzero)
    rw [hfull] at hcap
    cases hcap
  by_contra hnone
  refine hoccupied ?_
  rw [hexact.total_eq, List.sum_eq_zero_iff_forall_eq_nat]
  intro weight hweight
  obtain ⟨item, hitem, rfl⟩ := List.mem_map.mp hweight
  by_contra hne
  exact hnone ⟨item, hitem, Nat.pos_of_ne_zero hne⟩

/-- The second sender has been overtaken: it waits behind an item that a third one has reserved. -/
theorem no_parked_sender_fits_overtaken : ∃ (s : Channel Nat) (c : Call Nat), Reachable 4 s ∧
    s.calls.get 1 = some c ∧ c.pc = .parked false ∧ s.queue = [] ∧
    hasCapacity s.occupation c.weight s.bound = false ∧ ∃ item ∈ s.books.charged, 0 < item.2 := by
  have hrun : ∃ s : Channel Nat, Reachable 4 s ∧
      decide (s.receiver.isAlive = true ∧ s.receiver.isNotifying = false ∧
        s.calls.get 1 = some ⟨1, 2, false, .parked false⟩ ∧ s.queue = []) = true :=
    exists_reachable (some (channel 4)) (fun _ h => (Option.some.inj h).symm)
      [.send 0 3, .call 0 false, .call 0 false, .call 0 false, .call 0 false,
        .send 1 2, .call 1 false, .call 1 false,
        .recv, .receiver, .receiver,
        .send 2 3, .call 2 false, .call 2 false, .call 2 false,
        .call 1 false, .call 1 false, .call 1 false] (by decide +kernel)
  obtain ⟨s, hs, hp⟩ := hrun
  obtain ⟨halive, hquiet, hget, hqueue⟩ := of_decide_eq_true hp
  exact ⟨s, _, hs, hget, rfl, hqueue, no_parked_sender_fits hs halive hquiet hget rfl⟩

end Aquic.Sync.Weighted.Mt

import Aquic.Sync.Weighted.Mt
import Aquic.Sync.Weighted.St

/-!
# The accounting of the weighted channels is exact

Both channels keep sound books (`St.Channel.accounted`, `Mt.Channel.accounted`). Here this is read
off for the channels themselves: the occupation is the weight of the items that are charged, more than
the bound only for a single item, no word overflows or underflows, the items are received in the order
in which they were enqueued, and a suspended `send` that is dropped leaves nothing behind.

In the multi-threaded channel the receiver dequeues an item before it releases its weight, so that the
charged items are those in the queue, those a sender has reserved and has not enqueued yet, and the
one the receiver has dequeued and not released yet.
-/

namespace Aquic.Sync.Weighted

open Collections
open Run

variable {α : Type}

/-- A suspended call is dropped: nothing else changes. -/
theorem St.Channel.cancel_frame {s : St.Channel α} {key : Nat} {c : St.Suspended α}
    (h : s.sends.get key = some c) : ∃ event sends,
      s.exec (.cancel key) = some { s with event, sends } ∧
      (∀ k, k ≠ c.listener → event.listeners.get k = s.event.listeners.get k) ∧
      ∀ k, k ≠ key → sends.get k = s.sends.get k := by
  refine ⟨s.event.drop c.listener, s.sends.remove key, ?_, fun k hk => ?_, fun k hk => ?_⟩
  · simp only [exec, h, cancel, Option.bind_eq_bind, Option.bind_some]
  · rw [Event.drop, Slots.get_remove, if_neg hk]
  · rw [Slots.get_remove, if_neg hk]

theorem Mt.Channel.cancel_frame {s : Mt.Channel α} {key : Nat} {c : Mt.Call α} {notified : Bool}
    (h : s.calls.get key = some c) (hpc : c.pc = .parked notified) : ∃ calls,
      s.exec (.cancel key) = some { s with calls } ∧
      ∀ k, k ≠ key → calls.get k = s.calls.get k := by
  refine ⟨s.calls.remove key, ?_, fun k hk => ?_⟩
  · simp only [exec, h, hpc, Option.bind_eq_bind, Option.bind_some]
  · rw [Slots.get_remove, if_neg hk]

/-- The weights the multi-threaded channel has charged. -/
def Mt.Channel.charged (s : Mt.Channel α) : List Nat :=
  (s.queue ++ s.calls.collect Mt.Call.reserved ++ s.receiver.taken.toList).map Prod.snd

/-- **The accounting is exact.** For every bound and every run, as long as the receiver is alive. -/
theorem accounting_exact (bound : Nat) :
    (∀ s : St.Channel α, St.Reachable bound s → s.receiverExists = true →
      (s.occupation = (s.queue.map Prod.snd).sum ∧
        (s.occupation ≤ max bound 1 ∨ (s.queue.map Prod.snd).countP (0 < ·) = 1)) ∧
      s.enqueued = s.received ++ s.queue.map Prod.fst ∧
      (∀ weight, weight < 2 ^ 64 → hasCapacity s.occupation weight s.bound = true →
        s.occupation + weight < 2 ^ 64) ∧
      (∀ item ∈ s.queue.head?, item.2 ≤ s.occupation) ∧
      ∀ key c, s.sends.get key = some c → ∃ event sends,
        s.exec (.cancel key) = some { s with event, sends } ∧
        (∀ k, k ≠ c.listener → event.listeners.get k = s.event.listeners.get k) ∧
        ∀ k, k ≠ key → sends.get k = s.sends.get k) ∧
    ∀ s : Mt.Channel α, Mt.Reachable bound s → s.receiver.isAlive = true →
      (s.occupation = s.charged.sum ∧
        (s.occupation ≤ max bound 1 ∨ s.charged.countP (0 < ·) = 1)) ∧
      s.enqueued = s.received ++ s.receiver.inHand ++ s.queue.map Prod.fst ∧
      (∀ key c current, s.calls.get key = some c → c.pc = .reserving current →
        current + c.weight < 2 ^ 64) ∧
      (∀ value weight, s.receiver = .releasing value weight → weight ≤ s.occupation) ∧
      ∀ key c notified, s.calls.get key = some c → c.pc = .parked notified → ∃ calls,
        s.exec (.cancel key) = some { s with calls } ∧
        ∀ k, k ≠ key → calls.get k = s.calls.get k := by
  refine ⟨fun s hs halive => ?_, fun s hs halive => ?_⟩
  · have haccount := St.Channel.accounted hs
    have hsound := haccount.books halive
    have hcharged : s.books.charged = s.queue := by simp [Books.charged, St.Channel.books]
    have hexact : Budget.Exact (max bound 1) s.occupation (s.queue.map Prod.snd) :=
      haccount.bound_eq ▸ hcharged ▸ hsound.exact
    refine ⟨⟨hexact.total_eq, hexact.bounded⟩, hsound.in_order, fun weight hweight hcap => ?_,
      fun item hitem => ?_, fun key c hget => St.Channel.cancel_frame hget⟩
    · exact add_lt_of_hasCapacity hweight hcap
    · obtain ⟨rest, hqueue⟩ := List.head?_eq_some_iff.mp hitem
      rw [hqueue, List.map_cons] at hexact
      exact hexact.le
  · have haccount := Mt.Channel.accounted hs
    have hsound := haccount.books halive
    have hexact : Budget.Exact (max bound 1) s.occupation s.charged :=
      haccount.bound_eq ▸ hsound.exact
    refine ⟨⟨hexact.total_eq, hexact.bounded⟩, hsound.in_order, fun key c current hget hpc => ?_,
      fun value weight hpc => ?_, fun key c notified hget hpc => Mt.Channel.cancel_frame hget hpc⟩
    · have hok := haccount.calls key c hget
      exact add_lt_of_hasCapacity hok.weight (hok.reserving current hpc)
    · have htaken : s.books.taken = some (value, weight) := by
        simp [Mt.Channel.books, hpc, Mt.ReceiverPc.taken]
      exact hsound.le_of_taken htaken

/-- Two calls have reserved, and one of them has enqueued. -/
theorem accounting_exact_reserved : ∃ s : Mt.Channel Nat, Mt.Reachable 10 s ∧
    s.charged = [5, 3] ∧ s.occupation = s.charged.sum := by
  have hrun : ∃ s : Mt.Channel Nat, Mt.Reachable 10 s ∧
      decide (s.receiver.isAlive = true ∧ s.charged = [5, 3]) = true :=
    exists_reachable (some (Mt.channel 10)) (fun _ h => (Option.some.inj h).symm)
      [.send 0 5, .trySend 1 3, .call 0 false, .call 0 false, .call 0 false, .call 1 false,
        .call 1 false, .call 1 false, .call 0 false] (by decide +kernel)
  obtain ⟨s, hs, hp⟩ := hrun
  obtain ⟨halive, hcharged⟩ := of_decide_eq_true hp
  exact ⟨s, hs, hcharged, ((accounting_exact 10).2 s hs halive).1.1⟩

/-- **The receiver holds an item for a moment.** It has dequeued an item and has not released its
weight yet: the occupation is not the weight of the items that are queued or reserved, and is above
the bound although there are none. -/
theorem dequeued_item_is_charged : ∃ s : Mt.Channel Nat, Mt.Reachable 1 s ∧
    s.receiver.isAlive = true ∧
    s.occupation ≠ ((s.queue ++ s.calls.collect Mt.Call.reserved).map Prod.snd).sum ∧
    ¬ (s.occupation ≤ max 1 1 ∨
      ((s.queue ++ s.calls.collect Mt.Call.reserved).map Prod.snd).countP (0 < ·) = 1) := by
  have hrun : ∃ s : Mt.Channel Nat, Mt.Reachable 1 s ∧
      decide (s.receiver.isAlive = true ∧ s.occupation = 5 ∧
        s.queue ++ s.calls.collect Mt.Call.reserved = []) = true :=
    exists_reachable (some (Mt.channel 1)) (fun _ h => (Option.some.inj h).symm)
      [.send 0 5, .call 0 false, .call 0 false, .call 0 false, .call 0 false, .recv]
      (by decide +kernel)
  obtain ⟨s, hs, hp⟩ := hrun
  obtain ⟨halive, hoccupation, hitems⟩ := of_decide_eq_true hp
  refine ⟨s, hs, halive, ?_, ?_⟩ <;> rw [hoccupation, hitems] <;> decide

end Aquic.Sync.Weighted

import Aquic.Sync.Finish
import Aquic.Sync.Terminal

/-!
# What a stream channel delivers

`Aquic.Sync.Graceful` is about streams that nobody terminates. In every other run payloads may be lost,
when the channel is terminated, a half is dropped or `try_recv` gives up. But what the receiver gets is a
prefix of what was enqueued (`delivers_in_order`): whatever is lost is lost at the end, and a final payload
that is returned is the last of all.

Should another error than `Finish` be recorded while a final payload is in hand, the call returns the error
in its place; from then on the error is all that the receiver gets (`Over`).
-/

namespace Aquic.Sync.Stream

open Aquic.Run

variable {α C D E : Type} {s s' : Channel α C D E}

/-! ## What a step does to the payloads -/

/-- The payloads that were enqueued and not returned. -/
def Channel.kept (s : Channel α C D E) : List (Payload α) := s.inHand ++ s.items.queue.map Prod.fst

inductive Moved (s s' : Channel α C D E) : Prop
  | stays : s'.enqueued = s.enqueued → s'.returned = s.returned → s'.kept = s.kept →
      (s.receiverGone = false → s'.receiverGone = false) → Moved s s'
  | enqueues {item : Payload α} : s'.sender ≠ s.sender → s'.receiver = s.receiver →
      s'.enqueued = s.enqueued ++ [item] → s'.returned = s.returned → s'.kept = s.kept ++ [item] →
      Moved s s'
  | returns {item : Payload α} : s'.receiver = .idle → s'.enqueued = s.enqueued →
      s'.returned = s.returned ++ [item] → s.kept = item :: s'.kept → Moved s s'
  /-- The final payload gives way to the error. -/
  | loses {item : Payload α} {e : Error C D E} : s'.receiver = .idle → s'.enqueued = s.enqueued →
      s'.returned = s.returned → s.kept = item :: s'.kept → s'.error = some e →
      e.isFinish = false → Moved s s'
  | drops : s'.receiver = .dropped → s'.enqueued = s.enqueued → s'.returned = s.returned →
      Moved s s'

theorem moved_senderStep (h : s.senderStep = some s') : Moved s s' := by
  unfold Channel.senderStep at h
  cases hs : s.sender with
  | enqueuing item weight =>
    simp only [hs, Channel.sendFailed, Channel.close_eq] at h
    split at h
    · cases h
      exact .stays rfl rfl rfl id
    · have hkept : s.inHand ++ (s.items.enqueue item weight).queue.map Prod.fst = s.kept ++ [item] := by
        simp [Channel.kept, Weighted.enqueue]
      split at h <;> cases h <;>
        exact .enqueues (by simp [hs, Channel.sent]) rfl rfl rfl hkept
  | _ =>
    simp only [hs, Channel.sendFailed, Channel.close_eq] at h
    repeat' split at h
    all_goals cases h
    all_goals exact .stays rfl rfl rfl id

/-- A payload in hand is returned, or the error that has been recorded before a final one. -/
theorem moved_returning {item : Payload α} (hr : s.receiver = .returning item)
    (h : s.receiverStep = some s') : Moved s s' := by
  have hkept : s.kept = item :: s.items.queue.map Prod.fst := by
    simp [Channel.kept, Channel.inHand, hr]
  have hreturned := s.returned_append (.ok item)
  unfold Channel.receiverStep at h
  simp only [hr, Channel.close_eq] at h
  split at h
  · split at h
    · cases h
      exact .returns rfl rfl hreturned hkept
    · next hfinish =>
      cases h
      refine .loses rfl rfl ?_ hkept rfl (by simpa using hfinish)
      simp [Channel.returned, Channel.received]
  · cases h
    exact .returns rfl rfl hreturned hkept

theorem moved_receiverStep (h : s.receiverStep = some s') : Moved s s' := by
  cases hr : s.receiver with
  | returning item => exact moved_returning hr h
  | dropping =>
    simp only [Channel.receiverStep, hr, Option.some.injEq] at h
    subst h
    exact .drops rfl rfl rfl
  | _ =>
    simp only [Channel.receiverStep, hr, Channel.recvFailed, Channel.close_eq] at h
    repeat' split at h
    all_goals cases h
    all_goals refine .stays rfl ?_ ?_ ?_
    all_goals simp_all [Channel.kept, Channel.inHand, Channel.returned, Channel.received,
      Channel.receiverGone, Weighted.release]

theorem moved_exec {l : Label α C D E} (h : s.exec l = some s') : Moved s s' := by
  cases l with
  | senderStep => exact moved_senderStep h
  | receiverStep => exact moved_receiverStep h
  | sendItem | senderCancel | senderTerminate | senderDrop =>
    simp only [Channel.exec, Channel.close_eq] at h
    split at h <;> cases h
    exact .stays rfl rfl rfl id
  | recv | tryRecv | receiverCancel | receiverTerminate | receiverDrop =>
    simp only [Channel.exec, Channel.close_eq] at h
    split at h <;> cases h <;> next hr =>
      refine .stays rfl rfl ?_ fun hgone => ?_
      all_goals simp_all [Channel.kept, Channel.inHand, Channel.receiverGone]

theorem error_exec {l : Label α C D E} {e : Error C D E} (herror : s.error = some e)
    (h : s.exec l = some s') : s'.error = some e := by
  rw [(Channel.exec_closes h).1, herror]
  rfl

/-! ## The payloads in order -/

/-- Everything that was enqueued was returned, is in hand or is queued. -/
def Intact (s : Channel α C D E) : Prop :=
  s.receiverGone = false ∧ s.enqueued = s.returned ++ s.kept

/-- The receiver does not look for a payload, or looks at the error first. -/
def ReceiverPc.isOutside : ReceiverPc α → Bool
  | .idle => true
  | .pollingError .pending => true
  | .checkingError => true
  | .dropping => true
  | .dropped => true
  | _ => false

/-- The receiver will not return any other payload. -/
def Over (s : Channel α C D E) : Prop :=
  s.returned <+: s.enqueued ∧ (s.receiverGone = true ∨
    s.receiver.isOutside = true ∧ ∃ e, s.error = some e ∧ e.isFinish = false)

theorem Intact.exec (h : Intact s) {l : Label α C D E} (hexec : s.exec l = some s') :
    Intact s' ∨ Over s' := by
  obtain ⟨hgone, hsplit⟩ := h
  cases moved_exec hexec with
  | stays henqueued hreturned hkept hgone' =>
    refine .inl ⟨hgone' hgone, ?_⟩
    rw [henqueued, hreturned, hkept, hsplit]
  | enqueues _ hreceiver henqueued hreturned hkept =>
    refine .inl ⟨?_, ?_⟩
    · unfold Channel.receiverGone
      rw [hreceiver]
      exact hgone
    · rw [henqueued, hreturned, hkept, hsplit, List.append_assoc]
  | returns hreceiver henqueued hreturned hkept =>
    refine .inl ⟨by simp [Channel.receiverGone, hreceiver], ?_⟩
    rw [henqueued, hreturned, hsplit, hkept, List.append_assoc]
    rfl
  | @loses item e hreceiver henqueued hreturned hkept herror hfinish =>
    refine .inr ⟨?_, .inr ⟨by simp [ReceiverPc.isOutside, hreceiver], e, herror, hfinish⟩⟩
    rw [henqueued, hreturned, hsplit]
    exact List.prefix_append _ _
  | drops hreceiver henqueued hreturned =>
    refine .inr ⟨?_, .inl (by simp [Channel.receiverGone, hreceiver])⟩
    rw [henqueued, hreturned, hsplit]
    exact List.prefix_append _ _

/-- Outside, with an error that is not `Finish`, the receiver stays outside. -/
theorem outside_receiverStep {e : Error C D E} (herror : s.error = some e)
    (hfinish : e.isFinish = false) (houtside : s.receiver.isOutside = true)
    (h : s.receiverStep = some s') : s'.receiver.isOutside = true ∧ s'.returned = s.returned := by
  cases hr : s.receiver with
  | pollingError future =>
    cases future with
    | completed => simp [hr, ReceiverPc.isOutside] at houtside
    | pending =>
      simp only [Channel.receiverStep, hr, herror, Channel.recvFailed, Channel.close_eq] at h
      cases e with
      | finish => cases hfinish
      | _ =>
        cases h
        exact ⟨rfl, by simp [Channel.returned, Channel.received]⟩
  | checkingError =>
    simp only [Channel.receiverStep, hr, herror, Channel.recvFailed, Channel.close_eq] at h
    cases h
    exact ⟨rfl, by simp [Channel.returned, Channel.received]⟩
  | dropping =>
    simp only [Channel.receiverStep, hr, Option.some.injEq] at h
    subst h
    exact ⟨rfl, rfl⟩
  | _ => simp_all [Channel.receiverStep, ReceiverPc.isOutside]

theorem enqueued_isPrefix {l : Label α C D E} (h : s.exec l = some s') : s.enqueued <+: s'.enqueued := by
  cases moved_exec h with
  | enqueues _ _ henqueued _ _ => exact henqueued ▸ List.prefix_append _ _
  | stays henqueued _ _ _ => exact henqueued ▸ List.prefix_rfl
  | returns _ henqueued _ _ => exact henqueued ▸ List.prefix_rfl
  | loses _ henqueued _ _ _ _ => exact henqueued ▸ List.prefix_rfl
  | drops _ henqueued _ => exact henqueued ▸ List.prefix_rfl

/-- A step of the receiver enqueues nothing. -/
theorem enqueued_byReceiver {l : Label α C D E} (hl : l.bySender = false) (h : s.exec l = some s') :
    s'.enqueued = s.enqueued := by
  cases moved_exec h with
  | enqueues hne _ _ _ _ => exact absurd (Channel.exec_byReceiver hl h) hne
  | stays henqueued _ _ _ => exact henqueued
  | returns _ henqueued _ _ => exact henqueued
  | loses _ henqueued _ _ _ _ => exact henqueued
  | drops _ henqueued _ => exact henqueued

theorem Over.exec (h : Over s) {l : Label α C D E} (hexec : s.exec l = some s') : Over s' := by
  obtain ⟨hbegins, hover⟩ := h
  have henqueued := enqueued_isPrefix hexec
  cases hl : l.bySender with
  | true =>
    obtain ⟨hreceiver, hresults⟩ := Channel.exec_bySender hl hexec
    have hreturned : s'.returned = s.returned := by
      unfold Channel.returned
      rw [hresults]
    refine ⟨hreturned ▸ hbegins.trans henqueued, ?_⟩
    rw [Channel.receiverGone, hreceiver]
    rcases hover with hgone | ⟨houtside, e, herror, hfinish⟩
    · exact .inl hgone
    · exact .inr ⟨houtside, e, error_exec herror hexec, hfinish⟩
  | false =>
    rcases hover with hgone | ⟨houtside, e, herror, hfinish⟩
    · -- nothing is left that could take a step
      cases hr : s.receiver with
      | dropped => cases l <;> simp [Channel.exec, Channel.receiverStep, hr] at hexec <;> cases hl
      | _ => simp [Channel.receiverGone, hr] at hgone
    · have herror' := error_exec herror hexec
      have hstep : s'.receiver.isOutside = true ∧ s'.returned = s.returned := by
        cases l with
        | receiverStep => exact outside_receiverStep herror hfinish houtside hexec
        | recv | tryRecv | receiverCancel | receiverTerminate | receiverDrop =>
          simp only [Channel.exec, Channel.close_eq] at hexec
          split at hexec <;> cases hexec <;> first
            | exact ⟨rfl, rfl⟩
            | exact ⟨houtside, rfl⟩
        | _ => cases hl
      exact ⟨hstep.2 ▸ hbegins.trans henqueued, .inr ⟨hstep.1, e, herror', hfinish⟩⟩

/-! ## The final payload -/

/-- Nothing is enqueued behind a final payload. -/
structure Ordered (s : Channel α C D E) : Prop where
  last : hasFin s.enqueued.dropLast = false
  closed : hasFin s.enqueued = true → s.sender = .closing ∨ s.error.isSome = true
  /-- While a payload is on its way, no final one has been enqueued. -/
  reserved : s.enqueues = true → hasFin s.enqueued = false

theorem ordered_channel (bound : Nat) : Ordered (channel bound : Channel α C D E) :=
  ⟨rfl, by simp [channel, hasFin], by simp [channel, Channel.enqueues]⟩

/-- A step that enqueues nothing. -/
theorem Ordered.quiet (h : Ordered s) (henqueued : s'.enqueued = s.enqueued)
    (herror : ∀ e, s.error = some e → s'.error = some e)
    (hclosing : s.sender = .closing → s'.sender = .closing ∨ s'.error.isSome = true)
    (hreserved : s'.enqueues = true → s.enqueues = true ∨ s.sender ≠ .closing ∧ s.error = none) :
    Ordered s' where
  last := henqueued ▸ h.last
  closed hfin := by
    rw [henqueued] at hfin
    rcases h.closed hfin with hpc | hsome
    · exact hclosing hpc
    · obtain ⟨e, he⟩ := Option.isSome_iff_exists.mp hsome
      exact .inr (by simp [herror e he])
  reserved henqueues := by
    rw [henqueued]
    rcases hreserved henqueues with hold | ⟨hpc, hnone⟩
    · exact h.reserved hold
    · by_contra hfin
      rcases h.closed (by simpa using hfin) with hclosed | hclosed
      · exact hpc hclosed
      · simp [hnone] at hclosed

/-- A payload is enqueued. -/
theorem Ordered.enqueuing (h : Ordered s) {item : Payload α} {weight : Nat}
    (hs : s.sender = .enqueuing item weight) (hstep : s.senderStep = some s') : Ordered s' := by
  have hexec : s.exec .senderStep = some s' := hstep
  have hnone := h.reserved (by simp [Channel.enqueues, hs])
  simp only [Channel.senderStep, hs, Channel.sendFailed, Channel.close_eq] at hstep
  split at hstep
  · cases hstep
    exact h.quiet rfl (fun _ he => error_exec he hexec) (by simp [hs])
      (by simp [Channel.enqueues, Channel.sent])
  · split at hstep
    · cases hstep
      exact ⟨by simpa using hnone, fun _ => .inl rfl, by simp [Channel.enqueues]⟩
    · next hitem =>
      cases hstep
      have hnone' : hasFin (s.enqueued ++ [item]) = false := by
        rw [hasFin_append, hnone]
        simp [hasFin, hitem]
      refine ⟨by simpa [Channel.sent] using hnone, fun hfin => ?_,
        by simp [Channel.enqueues, Channel.sent]⟩
      exact absurd (hnone'.symm.trans hfin) Bool.false_ne_true

theorem Ordered.senderStep (h : Ordered s) (hstep : s.senderStep = some s') : Ordered s' := by
  have hexec : s.exec .senderStep = some s' := hstep
  cases hs : s.sender with
  | enqueuing item weight => exact h.enqueuing hs hstep
  | _ =>
    simp only [Channel.senderStep, hs, Channel.sendFailed, Channel.close_eq] at hstep
    repeat' split at hstep
    all_goals cases hstep
    all_goals refine h.quiet rfl (fun _ he => error_exec he hexec) ?_ ?_
    all_goals simp_all [Channel.enqueues, Channel.sent]

theorem Ordered.exec (h : Ordered s) {l : Label α C D E} (hexec : s.exec l = some s') :
    Ordered s' := by
  cases hl : l.bySender with
  | true =>
    cases l with
    | senderStep => exact h.senderStep hexec
    | sendItem | senderCancel | senderTerminate | senderDrop =>
      have hexec' := hexec
      simp only [Channel.exec, Channel.close_eq] at hexec
      split at hexec
      · next hs =>
        cases hexec
        refine h.quiet rfl (fun _ he => error_exec he hexec') (by simp [hs]) ?_
        simp [Channel.enqueues, hs]
      · cases hexec
    | _ => cases hl
  | false =>
    have hsender := Channel.exec_byReceiver hl hexec
    have henqueued := enqueued_byReceiver hl hexec
    refine h.quiet henqueued (fun _ he => error_exec he hexec) (fun hs => .inl (hsender ▸ hs)) ?_
    intro henqueues
    unfold Channel.enqueues at henqueues
    rw [hsender] at henqueues
    exact .inl henqueues

theorem ordered (h : Reachable Channel.Init anyStep Channel.exec s) : Ordered s := by
  apply Run.Reachable.invariant _ _ h
  · rintro s ⟨bound, rfl⟩
    exact ordered_channel bound
  · intro s l s' hinv _ hexec
    exact hinv.exec hexec

theorem returned_isPrefix (h : Reachable Channel.Init anyStep Channel.exec s) :
    s.returned <+: s.enqueued := by
  have hinv : Intact s ∨ Over s := by
    apply Run.Reachable.invariant _ _ h
    · rintro s ⟨bound, rfl⟩
      exact .inl ⟨rfl, rfl⟩
    · rintro s l s' (hintact | hover) _ hexec
      · exact hintact.exec hexec
      · exact .inr (hover.exec hexec)
  rcases hinv with ⟨-, hsplit⟩ | ⟨hbegins, -⟩
  · exact hsplit ▸ List.prefix_append _ _
  · exact hbegins

/-- Nothing is behind a final payload, so whoever has got it has got everything. -/
theorem eq_enqueued_of_hasFin (h : Reachable Channel.Init anyStep Channel.exec s)
    {payloads : List (Payload α)} (hbegins : payloads <+: s.enqueued)
    (hfin : hasFin payloads = true) : payloads = s.enqueued := by
  obtain ⟨rest, hrest⟩ := hbegins
  rcases List.eq_nil_or_concat rest with rfl | ⟨rest', last, rfl⟩
  · rw [← hrest, List.append_nil]
  · have hlast := (ordered h).last
    rw [← hrest, List.concat_eq_append, ← List.append_assoc, List.dropLast_concat, hasFin_append,
      hfin] at hlast
    cases hlast

/-- **What the receiver gets is a prefix of what was sent**, in every run: whatever the two halves do, and
however their steps interleave, with calls that are cancelled, a channel that is terminated and halves that
are dropped. Nothing is enqueued behind a final payload, and a receiver that has got one has got
everything. -/
theorem delivers_in_order (h : Reachable Channel.Init anyStep Channel.exec s) :
    s.returned <+: s.enqueued ∧ hasFin s.enqueued.dropLast = false ∧
      (hasFin s.returned = true → s.returned = s.enqueued) :=
  ⟨returned_isPrefix h, (ordered h).last, eq_enqueued_of_hasFin h (returned_isPrefix h)⟩

/-- The sender enqueues two payloads and terminates the channel when the first one has been received. -/
theorem delivers_in_order_terminated : ∃ s : Channel Nat Unit Unit Unit,
    Reachable Channel.Init anyStep Channel.exec s ∧ s.recvResults = [.ok (.item 1), .err (.reset ())] ∧
      s.enqueued = [.item 1, .item 2] ∧ s.returned <+: s.enqueued := by
  have hrun : ∃ s : Channel Nat Unit Unit Unit, Reachable Channel.Init anyStep Channel.exec s ∧
      decide (s.recvResults = [.ok (.item 1), .err (.reset ())] ∧
        s.enqueued = [.item 1, .item 2]) = true :=
    exists_reachable (some (channel 8)) (fun _ h => ⟨8, (Option.some.inj h).symm⟩)
      [.sendItem (.item 1) 1, .senderStep, .senderStep, .senderStep,
        .sendItem (.item 2) 1, .senderStep, .senderStep, .senderStep,
        .recv, .receiverStep, .receiverStep, .receiverStep, .receiverStep,
        .senderTerminate (.reset ()), .recv, .receiverStep] (by decide +kernel)
  obtain ⟨s, hs, hp⟩ := hrun
  obtain ⟨hresults, henqueued⟩ := of_decide_eq_true hp
  exact ⟨s, hs, hresults, henqueued, (delivers_in_order hs).1⟩

end Aquic.Sync.Stream

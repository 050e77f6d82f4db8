import Aquic.Sync.Stream

/-!
# Gracefully finished streams

The sender enqueues payloads and ends with a final one; nobody terminates the channel. What the
receiver gets should then be what was enqueued, up to and including the final payload.

The sender records `Finish` right after it has enqueued the final payload, while payloads may still
be queued. `recv` ignores a recorded `Finish` and reads the queue. `try_recv` looks at the error first
and gives up: the rest of the queue is lost (`finish_overtakes_payloads`). In runs in which `try_recv`
is not called in this window nothing is lost (`graceful_payloads`).
-/

namespace Aquic.Sync.Stream

open Aquic.Run

variable {α C D E : Type}

def hasFin (payloads : List (Payload α)) : Bool := payloads.any Payload.isFin

/-- A payload or nothing at all. -/
def RecvResult.isOk : RecvResult α C D E → Bool
  | .ok _ => true
  | .empty => true
  | .err _ => false
  | .panic => false

/-- Nobody terminates the channel, the receiver stays, and the sender stays until it has enqueued a
final payload. -/
def graceful (s : Channel α C D E) : Label α C D E → Bool
  | .senderTerminate _ => false
  | .receiverTerminate _ => false
  | .receiverDrop _ => false
  | .senderDrop _ => hasFin s.enqueued
  | _ => true

/-- **The condition on a run**: `try_recv` does not look at the error while one is recorded and the
final payload has not been returned. -/
def patient (s : Channel α C D E) : Label α C D E → Bool
  | .receiverStep =>
    match s.receiver with
    | .checkingError => s.error.isNone || hasFin s.returned
    | _ => true
  | _ => true

/-! ## The invariant -/

/-- The payload the receiver has taken and not returned yet. -/
def Channel.inHand (s : Channel α C D E) : List (Payload α) :=
  match s.receiver with
  | .releasing item _ => [item]
  | .returning item => [item]
  | _ => []

/-- The sender enqueues nothing behind a final payload, and leaves only after it. -/
def SenderOk (s : Channel α C D E) : Prop :=
  match s.sender with
  | .reserving .. => hasFin s.enqueued = false
  | .enqueuing .. => hasFin s.enqueued = false
  | .closing => hasFin s.enqueued = true
  | .dropping => hasFin s.enqueued = true
  | .dropped => hasFin s.enqueued = true
  | _ => True

/-- `Finish` is hidden only when it is recorded, and `recv` is suspended with a hidden `Finish` only
after the final payload. -/
def ReceiverOk (s : Channel α C D E) : Prop :=
  match s.receiver with
  | .pollingItem .completed => hasFin s.enqueued = true
  | .suspended .completed => hasFin s.returned = true
  | .pollingError .completed => hasFin s.returned = true
  | .panicked => hasFin s.returned = true
  | .dropping => False
  | .dropped => False
  | _ => True

structure Inv (s : Channel α C D E) : Prop where
  /-- Nothing is lost and nothing overtakes. -/
  split : s.enqueued = s.returned ++ s.inHand ++ s.items.queue.map Prod.fst
  last : hasFin s.enqueued.dropLast = false
  error : ∀ e, s.error = some e → e = .finish ∧ hasFin s.enqueued = true
  closed : hasFin s.enqueued = true → s.sender = .closing ∨ s.error = some .finish
  senderOk : SenderOk s
  receiverOk : ReceiverOk s
  clean : hasFin s.returned = false → ∀ r ∈ s.recvResults, r.isOk = true

theorem Inv.init {s : Channel α C D E} (h : s.Init) : Inv s := by
  obtain ⟨bound, rfl⟩ := h
  exact ⟨rfl, rfl, by simp [channel], by simp [channel, hasFin], trivial, trivial,
    by simp [channel]⟩

section

variable {s s' : Channel α C D E}

theorem hasFin_append (xs ys : List (Payload α)) :
    hasFin (xs ++ ys) = (hasFin xs || hasFin ys) := by
  simp [hasFin]

/-- Once the receiver holds nothing and the queue is empty, everything was returned. -/
theorem Inv.returned_eq (h : Inv s) (hhand : s.inHand = []) (hqueue : s.items.queue = []) :
    s.returned = s.enqueued := by
  have := h.split
  rw [hhand, hqueue] at this
  simpa using this.symm

/-- A step of the sender that enqueues nothing and records nothing. -/
theorem Inv.sender (h : Inv s) (pc : SenderPc α) (items : Weighted (Payload α))
    (results : List (Option (Error C D E))) (hitems : items.queue = s.items.queue)
    (hclosing : s.sender ≠ .closing ∨ s.error = some .finish)
    (hok : SenderOk { s with sender := pc }) :
    Inv { s with items, sender := pc, sendResults := results } where
  split := by
    have := h.split
    simpa [Channel.inHand, Channel.returned, hitems] using this
  last := h.last
  error := h.error
  closed hfin := .inr ((h.closed hfin).elim (fun hc => hclosing.resolve_left (absurd hc)) id)
  senderOk := hok
  receiverOk := h.receiverOk
  clean := h.clean

theorem Inv.receiver_not_gone (h : Inv s) : s.receiverGone = false := by
  have hok := h.receiverOk
  unfold ReceiverOk at hok
  unfold Channel.receiverGone
  split
  · next hr => simp [hr] at hok
  · rfl

/-- Recording `Finish` behind the final payload. -/
theorem Inv.close_finish (h : Inv s) (hfin : hasFin s.enqueued = true) :
    Inv (s.close .finish).1 ∧ (s.close .finish).1.error = some .finish ∧
    (s.close .finish).2 = .finish := by
  unfold Channel.close
  split
  · exact ⟨⟨h.split, h.last, by rintro e ⟨⟩; exact ⟨rfl, hfin⟩, fun _ => .inr rfl, h.senderOk,
      h.receiverOk, h.clean⟩, rfl, rfl⟩
  · next actual hactual =>
    obtain ⟨rfl, -⟩ := h.error actual hactual
    exact ⟨h, hactual, rfl⟩

/-- A payload is enqueued while no final one is. -/
theorem Inv.enqueue (h : Inv s) (hnone : hasFin s.enqueued = false) (item : Payload α)
    (weight : Nat) (pc : SenderPc α) (results : List (Option (Error C D E)))
    (hpc : item.isFin = true ∧ pc = .closing ∨ item.isFin = false ∧ pc = .idle) :
    Inv { s with items := s.items.enqueue item weight, enqueued := s.enqueued ++ [item],
                 sender := pc, sendResults := results } where
  split := by
    have := h.split
    simp only [Channel.inHand, Channel.returned, Weighted.enqueue, List.map_append] at this ⊢
    rw [this]
    simp
  last := by simpa using hnone
  error e he := by
    have := (h.error e he).2
    simp [hnone] at this
  closed hfin := by
    rw [hasFin_append, hnone] at hfin
    rcases hpc with ⟨-, hpc⟩ | ⟨hitem, -⟩
    · exact .inl hpc
    · simp [hasFin, hitem] at hfin
  senderOk := by
    rcases hpc with ⟨hitem, rfl⟩ | ⟨-, rfl⟩
    · show hasFin (s.enqueued ++ [item]) = true
      simp [hasFin, hitem]
    · trivial
  receiverOk := by
    have hok := h.receiverOk
    unfold ReceiverOk at hok ⊢
    split at hok <;> simp_all [Channel.returned]
  clean := h.clean

theorem Inv.senderStep (h : Inv s) (hstep : s.senderStep = some s') : Inv s' := by
  have hgone := h.receiver_not_gone
  have hok := h.senderOk
  unfold Channel.senderStep at hstep
  split at hstep
  · cases hstep
  · next item weight hs =>
    split at hstep
    · next e he =>
      obtain ⟨rfl, -⟩ := h.error e he
      cases hstep
      have := h.sender .idle s.items (s.sendResults ++ [some .finish]) rfl (.inr he) trivial
      simpa [Channel.sendFailed, Channel.close, Channel.sent, he] using this
    · next he =>
      cases hstep
      refine h.sender _ s.items _ rfl (.inl (by simp [hs])) ?_
      show hasFin s.enqueued = false
      by_contra hfin
      rcases h.closed (by simpa using hfin) with hc | hc
      · simp [hs] at hc
      · simp [he] at hc
  · next item weight hs =>
    rw [hgone] at hstep
    simp only [Bool.false_eq_true, if_false] at hstep
    simp only [SenderOk, hs] at hok
    split at hstep <;> cases hstep
    · exact h.sender _ (s.items.reserve weight) _ rfl (.inl (by simp [hs])) hok
    · exact h.sender _ s.items _ rfl (.inl (by simp [hs])) trivial
  · next item weight hs =>
    cases hstep
    exact h.sender _ s.items _ rfl (.inl (by simp [hs])) trivial
  · next item weight hs =>
    rw [hgone] at hstep
    simp only [Bool.false_eq_true, if_false] at hstep
    simp only [SenderOk, hs] at hok
    split at hstep <;> cases hstep
    · next hitem => exact h.enqueue hok item weight .closing _ (.inl ⟨hitem, rfl⟩)
    · next hitem => exact h.enqueue hok item weight .idle _ (.inr ⟨by simpa using hitem, rfl⟩)
  · next hs =>
    simp only [SenderOk, hs] at hok
    obtain ⟨hinv, herror, hfinish⟩ := h.close_finish hok
    simp only [hfinish, Error.isFinish, if_true, Option.some.injEq] at hstep
    rw [← hstep]
    exact hinv.sender .idle _ _ rfl (.inr herror) trivial
  · next hs =>
    cases hstep
    simp only [SenderOk, hs] at hok
    exact h.sender _ s.items _ rfl (.inl (by simp [hs])) hok
  · cases hstep

/-- A step of the receiver that records nothing. -/
theorem Inv.receiver (h : Inv s) (pc : ReceiverPc α) (items : Weighted (Payload α))
    (results : List (RecvResult α C D E))
    (hs' : s' = { s with items, receiver := pc, recvResults := results })
    (hsplit : s'.returned ++ s'.inHand ++ items.queue.map Prod.fst =
      s.returned ++ s.inHand ++ s.items.queue.map Prod.fst)
    (hok : ReceiverOk s')
    (hclean : hasFin s'.returned = false → ∀ r ∈ results, r.isOk = true) : Inv s' := by
  subst hs'
  exact ⟨h.split.trans hsplit.symm, h.last, h.error, h.closed, h.senderOk, hok, hclean⟩

theorem Channel.returned_append (s : Channel α C D E) (r : RecvResult α C D E) :
    { s with recvResults := s.recvResults ++ [r] }.returned =
      s.returned ++ (match r with | .ok payload => [payload] | _ => []) := by
  cases r <;> simp [Channel.returned]

/-- A call of the receiver fails or panics behind the final payload. -/
theorem Inv.receiver_fails (h : Inv s) (hfin : hasFin s.returned = true) (hhand : s.inHand = [])
    (pc : ReceiverPc α) (hpc : pc = .idle ∨ pc = .panicked) (r : RecvResult α C D E)
    (hr : r.isOk = false) :
    Inv { s with receiver := pc, recvResults := s.recvResults ++ [r] } := by
  have hreturned : { s with receiver := pc, recvResults := s.recvResults ++ [r] }.returned =
      s.returned := by
    have := s.returned_append r
    cases r <;> simp_all [RecvResult.isOk, Channel.returned]
  refine h.receiver pc s.items _ rfl ?_ ?_ ?_
  · rw [hreturned, hhand]
    rcases hpc with rfl | rfl <;> rfl
  · rcases hpc with rfl | rfl
    · trivial
    · show hasFin _ = true
      rw [← hfin]
      exact congrArg hasFin hreturned
  · rw [hreturned, hfin]
    simp

/-- Behind the final payload the error is `Finish`, so this is what `close` returns. -/
theorem Inv.recvFailed (h : Inv s) (hfin : hasFin s.returned = true) (hhand : s.inHand = [])
    (herror : s.error = some .finish) (e : Error C D E) : Inv (s.recvFailed e) := by
  have := h.receiver_fails hfin hhand .idle (.inl rfl) (.err .finish) rfl
  simpa [Channel.recvFailed, Channel.close, Channel.received, herror] using this

/-- The queue is polled and is not empty. -/
theorem Inv.take (h : Inv s) (hhand : s.inHand = []) {item : Payload α} {weight : Nat}
    {rest : List (Payload α × Nat)} (hqueue : s.items.queue = (item, weight) :: rest) :
    Inv { s with items := { s.items with queue := rest }, receiver := .releasing item weight } := by
  refine h.receiver _ _ _ rfl ?_ trivial h.clean
  rw [hhand, hqueue]
  simp [Channel.inHand, Channel.returned]

/-- When the queue is empty and the final payload was enqueued, it was returned. -/
theorem Inv.hasFin_returned (h : Inv s) (hhand : s.inHand = []) (hqueue : s.items.queue = [])
    (hfin : hasFin s.enqueued = true) : hasFin s.returned = true := by
  rw [h.returned_eq hhand hqueue, hfin]

/-- The queue is polled, is empty, and its sender is gone. -/
theorem Inv.unavailable (h : Inv s) (hhand : s.inHand = []) (hqueue : s.items.queue = [])
    (hgone : s.senderGone = true) (e : Error C D E) : Inv (s.recvFailed e) := by
  have hsender : s.sender = .dropped := by
    unfold Channel.senderGone at hgone
    split at hgone
    · assumption
    · cases hgone
  have hfin : hasFin s.enqueued = true := by
    have := h.senderOk
    simpa [SenderOk, hsender] using this
  have herror : s.error = some .finish :=
    (h.closed hfin).resolve_left (by simp [hsender])
  exact h.recvFailed (h.hasFin_returned hhand hqueue hfin) hhand herror e

/-- The payload in hand is returned. -/
theorem Inv.return_item (h : Inv s) {item : Payload α} (hr : s.receiver = .returning item) :
    Inv (s.received (.ok item)) := by
  have hreturned : (s.received (.ok item)).returned = s.returned ++ [item] :=
    s.returned_append (.ok item)
  refine h.receiver .idle s.items _ rfl ?_ trivial ?_
  · rw [hreturned]
    simp [Channel.inHand, Channel.received, hr]
  · intro hfin r hmem
    rw [hreturned, hasFin_append, Bool.or_eq_false_iff] at hfin
    rcases List.mem_append.mp hmem with hmem | hmem
    · exact h.clean hfin.1 r hmem
    · rw [List.mem_singleton.mp hmem]
      rfl

theorem Inv.receiverStep (h : Inv s) (hpatient : patient s .receiverStep = true)
    (hstep : s.receiverStep = some s') : Inv s' := by
  have hok := h.receiverOk
  unfold Channel.receiverStep at hstep
  split at hstep
  · cases hstep
  · next hr =>
    -- resumed after completion: only behind the final payload
    simp only [ReceiverOk, hr] at hok
    cases hstep
    exact h.receiver_fails hok (by simp [Channel.inHand, hr]) _ (.inr rfl) .panic rfl
  · next hr =>
    have hhand : s.inHand = [] := by simp [Channel.inHand, hr]
    split at hstep
    · cases hstep
      exact h.receiver _ s.items _ rfl (by rw [hhand]; rfl) trivial h.clean
    · next he =>
      cases hstep
      exact h.receiver _ s.items _ rfl (by rw [hhand]; rfl) (h.error _ he).2 h.clean
    · next e hne he => exact absurd ((h.error e he).1) (by rintro rfl; exact hne rfl)
  · next future hr =>
    have hhand : s.inHand = [] := by simp [Channel.inHand, hr]
    split at hstep
    · next item weight rest hqueue =>
      cases hstep
      exact h.take hhand hqueue
    · next hqueue =>
      split at hstep <;> cases hstep
      · next hgone => exact h.unavailable hhand hqueue hgone _
      · refine h.receiver _ s.items _ rfl (by rw [hhand]; rfl) ?_ h.clean
        cases future with
        | pending => trivial
        | completed =>
          simp only [ReceiverOk, hr] at hok
          exact h.hasFin_returned hhand hqueue hok
  · next future hr =>
    have hhand : s.inHand = [] := by simp [Channel.inHand, hr]
    cases hstep
    refine h.receiver _ s.items _ rfl (by rw [hhand]; rfl) ?_ h.clean
    cases future with
    | pending => trivial
    | completed =>
      simp only [ReceiverOk, hr] at hok
      exact hok
  · next hr =>
    have hhand : s.inHand = [] := by simp [Channel.inHand, hr]
    split at hstep
    · next e he =>
      cases hstep
      obtain ⟨rfl, -⟩ := h.error e he
      have hfin : hasFin s.returned = true := by simpa [patient, hr, he] using hpatient
      exact h.recvFailed hfin hhand he _
    · cases hstep
      exact h.receiver _ s.items _ rfl (by rw [hhand]; rfl) trivial h.clean
  · next hr =>
    have hhand : s.inHand = [] := by simp [Channel.inHand, hr]
    split at hstep
    · next item weight rest hqueue =>
      cases hstep
      exact h.take hhand hqueue
    · next hqueue =>
      split at hstep <;> cases hstep
      · next hgone => exact h.unavailable hhand hqueue hgone _
      · have hreturned : (s.received .empty).returned = s.returned :=
          (s.returned_append .empty).trans (List.append_nil _)
        refine h.receiver .idle s.items _ rfl (by rw [hreturned, hhand]; rfl) trivial ?_
        intro hfin r hmem
        rw [hreturned] at hfin
        rcases List.mem_append.mp hmem with hmem | hmem
        · exact h.clean hfin r hmem
        · rw [List.mem_singleton.mp hmem]
          rfl
  · next item weight hr =>
    cases hstep
    refine h.receiver _ (s.items.release weight) _ rfl ?_ trivial h.clean
    simp [Channel.inHand, Channel.returned, Weighted.release, hr]
  · next item hr =>
    split at hstep
    · next hitem =>
      have hfin : hasFin s.enqueued = true := by
        rw [h.split, hasFin_append, hasFin_append]
        simp [Channel.inHand, hr, hasFin, hitem]
      obtain ⟨hinv, -, hfinish⟩ := h.close_finish hfin
      simp only [hfinish, Error.isFinish, if_true, Option.some.injEq] at hstep
      rw [← hstep]
      refine hinv.return_item ?_
      unfold Channel.close
      split <;> exact hr
    · cases hstep
      exact h.return_item hr
  · cases hstep
  · next hr => simp only [ReceiverOk, hr] at hok
  · cases hstep

/-! ## Runs -/

/-- **One step of a run.** -/
theorem Inv.exec (h : Inv s) {l : Label α C D E} (hgraceful : graceful s l = true)
    (hpatient : patient s l = true) (hexec : s.exec l = some s') : Inv s' := by
  cases l with
  | sendItem item weight =>
    simp only [Channel.exec] at hexec
    split at hexec <;> cases hexec
    next hs => exact h.sender _ s.items _ rfl (.inl (by simp [hs])) trivial
  | senderStep => exact h.senderStep hexec
  | senderCancel =>
    simp only [Channel.exec] at hexec
    split at hexec <;> cases hexec
    next hs => exact h.sender _ s.items _ rfl (.inl (by simp [hs])) trivial
  | senderTerminate error => cases hgraceful
  | senderDrop panicking =>
    simp only [Channel.exec] at hexec
    split at hexec <;> cases hexec
    next hs =>
    -- the final payload is enqueued and the sender is not closing: the error is `Finish`
    have herror := (h.closed hgraceful).resolve_left (by simp [hs])
    have := h.sender .dropping s.items s.sendResults rfl (.inr herror) hgraceful
    simpa [Channel.close, herror] using this
  | recv =>
    simp only [Channel.exec] at hexec
    split at hexec <;> cases hexec
    next hr =>
    exact h.receiver _ s.items _ rfl (by simp [Channel.inHand, Channel.returned, hr]) trivial
      h.clean
  | tryRecv =>
    simp only [Channel.exec] at hexec
    split at hexec <;> cases hexec
    next hr =>
    exact h.receiver _ s.items _ rfl (by simp [Channel.inHand, Channel.returned, hr]) trivial
      h.clean
  | receiverStep => exact h.receiverStep hpatient hexec
  | receiverCancel =>
    simp only [Channel.exec] at hexec
    split at hexec <;> cases hexec
    next hr =>
    exact h.receiver _ s.items _ rfl (by simp [Channel.inHand, Channel.returned, hr]) trivial
      h.clean
  | receiverTerminate error => cases hgraceful
  | receiverDrop panicking => cases hgraceful

end

/-- The steps of the runs in question. -/
def Unhurried (s : Channel α C D E) (l : Label α C D E) : Prop :=
  graceful s l = true ∧ patient s l = true

instance : DecidableRel (Unhurried (α := α) (C := C) (D := D) (E := E)) :=
  fun _ _ => inferInstanceAs (Decidable (_ ∧ _))

theorem Inv.reachable {s : Channel α C D E}
    (h : Reachable Channel.Init Unhurried Channel.exec s) : Inv s :=
  h.invariant (fun _ => Inv.init) fun _ _ _ hinv hok => hinv.exec hok.1 hok.2

/-! ## The queue can always be drained -/

/-- A call of `recv` that finds a payload in the queue. -/
def recvCall : List (Label α C D E) :=
  [.recv, .receiverStep, .receiverStep, .receiverStep, .receiverStep]

theorem recv_call {s : Channel α C D E}
    (h : Reachable Channel.Init Unhurried Channel.exec s) (hidle : s.receiver = .idle)
    {item : Payload α} {weight : Nat} {rest : List (Payload α × Nat)}
    (hqueue : s.items.queue = (item, weight) :: rest) :
    ∃ s', runAll Unhurried Channel.exec s recvCall = some s' ∧ s'.receiver = .idle ∧
      s'.items.queue = rest ∧ s'.enqueued = s.enqueued := by
  have herror : s.error = none ∨ s.error = some .finish := by
    cases he : s.error with
    | none => exact .inl rfl
    | some e => exact .inr (congrArg some ((Inv.reachable h).error e he).1)
  rcases herror with he | he <;> cases hitem : item.isFin <;>
    simp only [recvCall, runAll, Unhurried, graceful, patient, and_self, true_and, if_true, if_false,
      Bool.false_eq_true, Channel.exec, Channel.receiverStep, Channel.received, Channel.close,
      Weighted.release, Error.isFinish, Option.bind_fun_some, Option.bind_some, Option.some.injEq,
      exists_eq_left', hidle, hqueue, he, hitem]

/-- As many calls of `recv` as there are payloads in the queue return them all. -/
theorem drain {s : Channel α C D E}
    (h : Reachable Channel.Init Unhurried Channel.exec s) (hidle : s.receiver = .idle) :
    ∃ s', runAll Unhurried Channel.exec s
        (List.replicate s.items.queue.length recvCall).flatten = some s' ∧
      s'.enqueued = s.enqueued ∧ s'.returned = s.enqueued := by
  generalize hn : s.items.queue.length = n
  induction n generalizing s with
  | zero =>
    have hqueue := List.length_eq_zero_iff.mp hn
    exact ⟨s, rfl, rfl, (Inv.reachable h).returned_eq (by simp [Channel.inHand, hidle]) hqueue⟩
  | succ n ih =>
    obtain ⟨⟨item, weight⟩, rest, hqueue⟩ := List.exists_cons_of_length_eq_add_one hn
    obtain ⟨s₁, hrun₁, hidle₁, hqueue₁, henq₁⟩ := recv_call h hidle hqueue
    have hlength : s₁.items.queue.length = n := by
      rw [hqueue] at hn
      simpa [hqueue₁] using hn
    obtain ⟨s₂, hrun₂, henq₂, hret₂⟩ := ih (h.of_runAll hrun₁) hidle₁ hlength
    refine ⟨s₂, ?_, henq₂.trans henq₁, hret₂.trans henq₁⟩
    rw [List.replicate_succ, List.flatten_cons, runAll_append, hrun₁]
    exact hrun₂

/-- **No payload is lost.** Along every run of an unhurried receiver: only the last enqueued payload
is final; the returned payloads are the first enqueued ones, in order, and all of them once a final
one is returned; before that no call fails; and calling `recv` returns everything that is queued. -/
theorem graceful_payloads {s : Channel α C D E}
    (h : Reachable Channel.Init Unhurried Channel.exec s) :
    hasFin s.enqueued.dropLast = false ∧ s.returned <+: s.enqueued ∧
    (hasFin s.returned = true → s.returned = s.enqueued) ∧
    (hasFin s.returned = false → ∀ r ∈ s.recvResults, r.isOk = true) ∧
    (s.receiver = .idle → ∃ s', runAll Unhurried Channel.exec s
        (List.replicate s.items.queue.length recvCall).flatten = some s' ∧
      s'.enqueued = s.enqueued ∧ s'.returned = s.enqueued) := by
  have hinv := Inv.reachable h
  have hsplit : s.enqueued = s.returned ++ (s.inHand ++ s.items.queue.map Prod.fst) := by
    rw [← List.append_assoc]
    exact hinv.split
  refine ⟨hinv.last, ⟨_, hsplit.symm⟩, ?_, hinv.clean, fun hidle => drain h hidle⟩
  intro hfin
  -- what is behind the final payload would make it a final payload that is not the last
  cases hrest : s.inHand ++ s.items.queue.map Prod.fst with
  | nil => rw [hsplit, hrest, List.append_nil]
  | cons payload rest =>
    have hlast := hinv.last
    rw [hsplit, hrest, List.dropLast_append_cons, hasFin_append, hfin] at hlast
    cases hlast

/-- An item and the end of the stream, enqueued one after the other. -/
def sendTwo : List (Label Nat Unit Unit Unit) :=
  [.sendItem (.item 1) 1, .senderStep, .senderStep, .senderStep,
    .sendItem .done 1, .senderStep, .senderStep, .senderStep, .senderStep]

/-- A call of `try_recv` in time, and two of `recv` behind the end of the stream. -/
theorem graceful_payloads_two :
    ∃ s : Channel Nat Unit Unit Unit, Reachable Channel.Init Unhurried Channel.exec s ∧
      s.enqueued = [.item 1, .done] ∧ s.error = some .finish ∧ s.returned = s.enqueued := by
  have hrun : ∃ s : Channel Nat Unit Unit Unit,
      Reachable Channel.Init Unhurried Channel.exec s ∧
      decide (s.enqueued = [.item 1, .done] ∧ s.error = some .finish ∧
        hasFin s.returned = true) = true :=
    exists_reachable (some (channel 10)) (fun s hs => ⟨10, (Option.some.inj hs).symm⟩)
      (.tryRecv :: .receiverStep :: .receiverStep :: (sendTwo ++ recvCall ++ recvCall))
      (by decide +kernel)
  obtain ⟨s, hs, hp⟩ := hrun
  obtain ⟨henqueued, herror, hfin⟩ := of_decide_eq_true hp
  exact ⟨s, hs, henqueued, herror, (graceful_payloads hs).2.2.1 hfin⟩

/-- `try_recv` finds the recorded `Finish` before the two payloads in the queue. -/
theorem finish_overtakes_payloads :
    ∃ s : Channel Nat Unit Unit Unit,
      Reachable Channel.Init (fun s l => graceful s l = true) Channel.exec s ∧
      s.enqueued = [.item 1, .done] ∧ s.returned = [] ∧ s.recvResults = [.err .finish] := by
  have hrun : ∃ s : Channel Nat Unit Unit Unit,
      Reachable Channel.Init (fun s l => graceful s l = true) Channel.exec s ∧
      decide (s.enqueued = [.item 1, .done] ∧ s.returned = [] ∧
        s.recvResults = [.err .finish]) = true :=
    exists_reachable (some (channel 10)) (fun s hs => ⟨10, (Option.some.inj hs).symm⟩)
      (sendTwo ++ [.tryRecv, .receiverStep]) (by decide +kernel)
  obtain ⟨s, hs, hp⟩ := hrun
  exact ⟨s, hs, of_decide_eq_true hp⟩

end Aquic.Sync.Stream

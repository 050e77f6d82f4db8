import Aquic.Sync.Graceful

/-!
# Behind the end of the stream

Once the receiver has returned a final payload, `Finish` is recorded, and every further call should
end with it. `try_recv` reads the error and does. `recv` hides a recorded `Finish` and waits for the
queue: it ends with `Finish` only if the queue's sender is gone when the queue is polled. Otherwise the
call is suspended. Nothing will ever come out of the queue, and when the call is polled again, for
instance because the sender is dropped, it resumes a completed future and panics
(`drop_behind_fin_panics`).
-/

namespace Aquic.Sync.Stream

open Aquic.Run

variable {α C D E : Type}

/-- **The condition on a run**: behind the final payload `recv` polls the queue only when the queue's
sender is gone. -/
def timely (s : Channel α C D E) : Label α C D E → Bool
  | .receiverStep =>
    match s.receiver with
    | .pollingItem _ => !hasFin s.returned || s.senderGone
    | _ => true
  | _ => true

/-- The steps of the runs in question; nothing else is asked of either half. -/
def Timely (s : Channel α C D E) (l : Label α C D E) : Prop := timely s l = true

instance : DecidableRel (Timely (α := α) (C := C) (D := D) (E := E)) :=
  fun _ _ => inferInstanceAs (Decidable (_ = _))

/-! ## The invariant -/

/-- The sender is about to enqueue something. -/
def Channel.enqueues (s : Channel α C D E) : Bool :=
  match s.sender with
  | .reserving .. => true
  | .enqueuing .. => true
  | _ => false

/-- How many steps the receiver's call needs behind the final payload; `none` is a place where it
cannot be. -/
def ReceiverPc.stepsLeft : ReceiverPc α → Option Nat
  | .idle => some 0
  | .pollingError .pending => some 2
  | .pollingItem .completed => some 1
  | .checkingError => some 1
  | .dropping => some 0
  | .dropped => some 0
  | _ => none

/-- A final payload was returned, and only `Finish` afterwards. -/
def FinishFollows (results : List (RecvResult α C D E)) : Prop :=
  ∃ before payload after, results = before ++ .ok payload :: after ∧ payload.isFin = true ∧
    ∀ r ∈ after, r = .err .finish

structure Ended (s : Channel α C D E) : Prop where
  suffix : s.items.queue.map Prod.fst <:+ s.enqueued
  last : hasFin s.enqueued.dropLast = false
  sender : hasFin s.enqueued = true → s.sender = .closing ∨ s.error.isSome ∧ s.enqueues = false
  taken : hasFin (s.returned ++ s.inHand) = true →
    hasFin s.enqueued = true ∧ s.items.queue = []
  finish : hasFin s.returned = true → s.error = some .finish
  receiver : hasFin s.returned = true → s.receiver.stepsLeft.isSome
  results : hasFin s.returned = true → FinishFollows s.recvResults

theorem Ended.init {s : Channel α C D E} (h : s.Init) : Ended s := by
  obtain ⟨bound, rfl⟩ := h
  constructor <;> simp [channel, Channel.returned, Channel.inHand, Weighted.new, hasFin]

section

variable {s s' : Channel α C D E}

/-- A step of the sender that enqueues nothing. -/
theorem Ended.bySender (h : Ended s) (pc : SenderPc α) (error : Option (Error C D E))
    (items : Weighted (Payload α)) (results : List (Option (Error C D E)))
    (hitems : items.queue = s.items.queue) (herror : s.error.isSome → error = s.error)
    (hsender : hasFin s.enqueued = true →
      error.isSome ∧ { s with sender := pc }.enqueues = false) :
    Ended { s with items, error, sender := pc, sendResults := results } where
  suffix := by
    show items.queue.map Prod.fst <:+ s.enqueued
    rw [hitems]
    exact h.suffix
  last := h.last
  sender hfin := .inr (hsender hfin)
  taken hfin := by
    show _ ∧ items.queue = []
    rw [hitems]
    exact h.taken hfin
  finish hfin := by
    have hfinish := h.finish hfin
    exact (herror (by simp [hfinish])).trans hfinish
  receiver := h.receiver
  results := h.results

/-- A recorded error stays. -/
theorem getD_of_isSome {error : Option (Error C D E)} (e : Error C D E) (h : error.isSome) :
    some (error.getD e) = error := by
  obtain ⟨e', rfl⟩ := Option.isSome_iff_exists.mp h
  rfl

/-- A failing call of the sender. -/
theorem Ended.sendFailed (h : Ended s) (items : Weighted (Payload α))
    (hitems : items.queue = s.items.queue) (e : Error C D E) :
    Ended ({ s with items }.sendFailed e) := by
  rw [Channel.sendFailed, Channel.close_eq]
  exact h.bySender .idle (some (s.error.getD e)) items _ hitems (getD_of_isSome e)
    fun _ => ⟨rfl, rfl⟩

/-- A payload is enqueued while no final one is. -/
theorem Ended.enqueue (h : Ended s) (hnone : hasFin s.enqueued = false) (item : Payload α)
    (weight : Nat) (pc : SenderPc α) (results : List (Option (Error C D E)))
    (hpc : item.isFin = true → pc = .closing) :
    Ended { s with items := s.items.enqueue item weight, enqueued := s.enqueued ++ [item],
                   sender := pc, sendResults := results } := by
  have hreturned : hasFin (s.returned ++ s.inHand) ≠ true := by
    intro hfin
    simpa [hnone] using (h.taken hfin).1
  have hreturned' : hasFin s.returned ≠ true := by
    intro hfin
    simp [hasFin_append, hfin] at hreturned
  refine ⟨?_, ?_, ?_, fun hfin => absurd hfin hreturned, fun hfin => absurd hfin hreturned',
    fun hfin => absurd hfin hreturned', fun hfin => absurd hfin hreturned'⟩
  · obtain ⟨before, hbefore⟩ := h.suffix
    refine ⟨before, ?_⟩
    show before ++ ((s.items.queue ++ [(item, weight)]).map Prod.fst) = s.enqueued ++ [item]
    rw [List.map_append, ← List.append_assoc, hbefore]
    rfl
  · simpa using hnone
  · intro hfin
    refine .inl (hpc ?_)
    have hfin : hasFin (s.enqueued ++ [item]) = true := hfin
    rw [hasFin_append, hnone] at hfin
    simpa [hasFin] using hfin

theorem Ended.senderStep (h : Ended s) (hstep : s.senderStep = some s') : Ended s' := by
  -- before the payload is enqueued there is no final one
  have hnone (henqueues : s.enqueues = true) (hclosing : s.sender ≠ .closing) :
      hasFin s.enqueued = false := by
    by_contra hfin
    rcases h.sender (by simpa using hfin) with hc | ⟨-, hc⟩
    · exact hclosing hc
    · simp [hc] at henqueues
  unfold Channel.senderStep at hstep
  split at hstep
  · cases hstep
  · next item weight hs =>
    split at hstep
    · cases hstep
      exact h.sendFailed s.items rfl _
    · next he =>
      cases hstep
      refine h.bySender _ s.error s.items _ rfl (fun _ => rfl) fun hfin => ?_
      rcases h.sender hfin with hc | ⟨hc, -⟩
      · simp [hs] at hc
      · simp [he] at hc
  · next item weight hs =>
    have hnone := hnone (by simp [Channel.enqueues, hs]) (by simp [hs])
    split at hstep
    · cases hstep
      exact h.sendFailed s.items rfl _
    · split at hstep <;> cases hstep
      · exact h.bySender _ s.error (s.items.reserve weight) _ rfl (fun _ => rfl) (by simp [hnone])
      · exact h.bySender _ s.error s.items _ rfl (fun _ => rfl) (by simp [hnone])
  · next item weight hs =>
    cases hstep
    refine h.bySender _ s.error s.items _ rfl (fun _ => rfl) fun hfin => ⟨?_, rfl⟩
    rcases h.sender hfin with hc | ⟨hc, -⟩
    · simp [hs] at hc
    · exact hc
  · next item weight hs =>
    have hnone := hnone (by simp [Channel.enqueues, hs]) (by simp [hs])
    split at hstep
    · cases hstep
      exact h.sendFailed { s.items with occupation := 0 } rfl _
    · simp only at hstep
      split at hstep <;> cases hstep
      · exact h.enqueue hnone item weight .closing _ fun _ => rfl
      · next hitem => exact h.enqueue hnone item weight .idle _ fun hfin => absurd hfin hitem
  · next hs =>
    rw [Channel.close_eq] at hstep
    cases hstep
    exact h.bySender .idle _ s.items _ rfl (getD_of_isSome .finish) fun _ => ⟨rfl, rfl⟩
  · next hs =>
    cases hstep
    refine h.bySender _ s.error s.items _ rfl (fun _ => rfl) fun hfin => ⟨?_, rfl⟩
    rcases h.sender hfin with hc | ⟨hc, -⟩
    · simp [hs] at hc
    · exact hc
  · cases hstep

/-- A step of the receiver that returns no payload: the call goes on, or it ends, and then it ends with
`Finish` if it is behind the final payload. -/
theorem Ended.byReceiver (h : Ended s) (pc : ReceiverPc α) (error : Option (Error C D E))
    (items : Weighted (Payload α)) (results : List (RecvResult α C D E))
    (hsuffix : items.queue = s.items.queue ∨ items.queue = [])
    (herror : s.error.isSome → error = s.error)
    (hreturned : { s with recvResults := results }.returned = s.returned)
    (hhand : { s with receiver := pc }.inHand = [] ∨ { s with receiver := pc }.inHand = s.inHand)
    (hpc : hasFin s.returned = true → pc.stepsLeft.isSome)
    (hresults : hasFin s.returned = true →
      results = s.recvResults ∨ results = s.recvResults ++ [.err .finish]) :
    Ended { s with items, error, receiver := pc, recvResults := results } := by
  have hfin {s' : Channel α C D E}
      (hs' : s' = { s with items, error, receiver := pc, recvResults := results })
      (hfin : hasFin s'.returned = true) : hasFin s.returned = true := by
    subst hs'
    exact hreturned ▸ hfin
  refine ⟨?_, h.last, ?_, ?_, ?_, fun h' => hpc (hfin rfl h'), ?_⟩
  · show items.queue.map Prod.fst <:+ s.enqueued
    rcases hsuffix with hqueue | hqueue
    · rw [hqueue]
      exact h.suffix
    · rw [hqueue]
      exact List.nil_suffix
  · intro henqueued
    rcases h.sender henqueued with hclosing | ⟨hsome, henqueues⟩
    · exact .inl hclosing
    · refine .inr ⟨?_, henqueues⟩
      show error.isSome
      rw [herror hsome]
      exact hsome
  · intro htaken
    have htaken : hasFin (s.returned ++ s.inHand) = true := by
      rw [hasFin_append, Bool.or_eq_true] at htaken ⊢
      rcases htaken with htaken | htaken
      · exact .inl (hfin rfl htaken)
      · rcases hhand with hhand | hhand
        · exact absurd (hhand ▸ htaken) (by simp [hasFin])
        · exact .inr (hhand ▸ htaken)
    obtain ⟨henqueued, hqueue⟩ := h.taken htaken
    refine ⟨henqueued, ?_⟩
    rcases hsuffix with hitems | hitems
    · exact hitems.trans hqueue
    · exact hitems
  · intro h'
    have hfinish := h.finish (hfin rfl h')
    exact (herror (by simp [hfinish])).trans hfinish
  · intro h'
    obtain ⟨before, payload, after, heq, hpayload, hafter⟩ := h.results (hfin rfl h')
    rcases hresults (hfin rfl h') with hsame | happend
    · exact ⟨before, payload, after, hsame.trans heq, hpayload, hafter⟩
    · refine ⟨before, payload, after ++ [.err .finish], ?_, hpayload, ?_⟩
      · show results = _
        rw [happend, heq]
        simp
      · intro r hr
        rcases List.mem_append.mp hr with hr | hr
        · exact hafter r hr
        · exact List.mem_singleton.mp hr

/-- A failing call of the receiver. -/
theorem Ended.recvFailed (h : Ended s) (e : Error C D E) : Ended (s.recvFailed e) := by
  rw [Channel.recvFailed, Channel.close_eq]
  refine h.byReceiver .idle (some (s.error.getD e)) s.items _ (.inl rfl) (getD_of_isSome e) ?_
    (.inl rfl) (fun _ => rfl) fun hfin => .inr ?_
  · exact (s.returned_append _).trans (List.append_nil _)
  · rw [h.finish hfin]
    rfl

/-- The queue is polled and is not empty: a final payload is the last one. -/
theorem Ended.take (h : Ended s) {item : Payload α} {weight : Nat}
    {rest : List (Payload α × Nat)} (hqueue : s.items.queue = (item, weight) :: rest) :
    Ended { s with items := { s.items with queue := rest }, receiver := .releasing item weight } := by
  have hreturned : hasFin s.returned ≠ true := by
    intro hfin
    have := (h.taken (by rw [hasFin_append, hfin]; rfl)).2
    simp [hqueue] at this
  obtain ⟨before, hbefore⟩ := h.suffix
  rw [hqueue, List.map_cons] at hbefore
  refine ⟨⟨before ++ [item], ?_⟩, h.last, h.sender, fun htaken => ?_, fun hfin => absurd hfin hreturned,
    fun hfin => absurd hfin hreturned, fun hfin => absurd hfin hreturned⟩
  · show before ++ [item] ++ rest.map Prod.fst = s.enqueued
    rw [← hbefore]
    simp
  · have hitem : item.isFin = true := by
      rw [hasFin_append, Bool.or_eq_true] at htaken
      rcases htaken with hfin | hfin
      · exact absurd hfin hreturned
      · simpa [Channel.inHand, hasFin] using hfin
    have hlast := h.last
    refine ⟨?_, ?_⟩
    · show hasFin s.enqueued = true
      rw [← hbefore, hasFin_append]
      simp [hasFin, hitem]
    · show rest = []
      cases hrest : rest with
      | nil => rfl
      | cons next rest' =>
        rw [← hbefore, hrest] at hlast
        simp [hasFin, hitem] at hlast

/-- The payload in hand is returned; behind a final one `Finish` is recorded. -/
theorem Ended.return_item (h : Ended s) {item : Payload α} (hr : s.receiver = .returning item)
    (error : Option (Error C D E)) (herror : s.error.isSome → error = s.error)
    (hfinish : item.isFin = true → error = some .finish) :
    Ended ({ s with error }.received (.ok item)) := by
  have hnone : hasFin s.returned ≠ true := by
    intro hfin
    have := h.receiver hfin
    simp [hr, ReceiverPc.stepsLeft] at this
  have hreturned : ({ s with error }.received (.ok item)).returned = s.returned ++ [item] :=
    s.returned_append (.ok item)
  have hhand : s.inHand = [item] := by simp [Channel.inHand, hr]
  have hitem (hfin : hasFin ({ s with error }.received (.ok item)).returned = true) :
      item.isFin = true := by
    rw [hreturned, hasFin_append, Bool.or_eq_true] at hfin
    simpa [hasFin] using hfin.resolve_left hnone
  refine ⟨h.suffix, h.last, ?_, ?_, fun hfin => hfinish (hitem hfin), fun _ => rfl, fun hfin => ?_⟩
  · intro henqueued
    rcases h.sender henqueued with hclosing | ⟨hsome, henqueues⟩
    · exact .inl hclosing
    · refine .inr ⟨?_, henqueues⟩
      show error.isSome
      rw [herror hsome]
      exact hsome
  · intro htaken
    refine h.taken ?_
    rw [hreturned] at htaken
    rw [hhand]
    simpa [Channel.inHand, Channel.received] using htaken
  · exact ⟨s.recvResults, item, [], rfl, hitem hfin, by simp⟩

theorem Ended.receiverStep (h : Ended s) (htimely : timely s .receiverStep = true)
    (hstep : s.receiverStep = some s') : Ended s' := by
  -- behind the final payload the receiver is in a few places only
  have hplace (hnone : s.receiver.stepsLeft = none) : hasFin s.returned ≠ true := by
    intro hfin
    simpa [hnone] using h.receiver hfin
  have hsame : { s with recvResults := s.recvResults }.returned = s.returned := rfl
  unfold Channel.receiverStep at hstep
  split at hstep
  · cases hstep
  · next hr =>
    have hnone := hplace (by simp [hr, ReceiverPc.stepsLeft])
    cases hstep
    exact h.byReceiver .panicked s.error s.items _ (.inl rfl) (fun _ => rfl)
      ((s.returned_append .panic).trans (List.append_nil _)) (.inl rfl)
      (fun hfin => absurd hfin hnone) (fun hfin => absurd hfin hnone)
  · next hr =>
    split at hstep
    · next he =>
      cases hstep
      refine h.byReceiver _ s.error s.items _ (.inl rfl) (fun _ => rfl) hsame (.inl rfl)
        (fun hfin => ?_) (fun _ => .inl rfl)
      simp [h.finish hfin] at he
    · cases hstep
      exact h.byReceiver _ s.error s.items _ (.inl rfl) (fun _ => rfl) hsame (.inl rfl)
        (fun _ => rfl) (fun _ => .inl rfl)
    · cases hstep
      exact h.recvFailed _
  · next future hr =>
    split at hstep
    · next item weight rest hqueue =>
      cases hstep
      exact h.take hqueue
    · split at hstep
      · cases hstep
        exact h.recvFailed _
      · next hgone =>
        cases hstep
        have hnone : hasFin s.returned ≠ true := by
          simpa [timely, hr, hgone] using htimely
        exact h.byReceiver _ s.error s.items _ (.inl rfl) (fun _ => rfl) hsame (.inl rfl)
          (fun hfin => absurd hfin hnone) (fun _ => .inl rfl)
  · next future hr =>
    have hnone := hplace (by simp [hr, ReceiverPc.stepsLeft])
    cases hstep
    exact h.byReceiver _ s.error s.items _ (.inl rfl) (fun _ => rfl) hsame (.inl rfl)
      (fun hfin => absurd hfin hnone) (fun _ => .inl rfl)
  · next hr =>
    split at hstep
    · cases hstep
      exact h.recvFailed _
    · next he =>
      cases hstep
      refine h.byReceiver _ s.error s.items _ (.inl rfl) (fun _ => rfl) hsame (.inl rfl)
        (fun hfin => ?_) (fun _ => .inl rfl)
      simp [h.finish hfin] at he
  · next hr =>
    have hnone := hplace (by simp [hr, ReceiverPc.stepsLeft])
    split at hstep
    · next item weight rest hqueue =>
      cases hstep
      exact h.take hqueue
    · split at hstep
      · cases hstep
        exact h.recvFailed _
      · cases hstep
        exact h.byReceiver .idle s.error s.items _ (.inl rfl) (fun _ => rfl)
          ((s.returned_append .empty).trans (List.append_nil _)) (.inl rfl)
          (fun _ => rfl) (fun hfin => absurd hfin hnone)
  · next item weight hr =>
    have hnone := hplace (by simp [hr, ReceiverPc.stepsLeft])
    cases hstep
    exact h.byReceiver _ s.error (s.items.release weight) _ (.inl rfl) (fun _ => rfl) hsame
      (.inr (by simp [Channel.inHand, hr])) (fun hfin => absurd hfin hnone) (fun _ => .inl rfl)
  · next item hr =>
    have hnone := hplace (by simp [hr, ReceiverPc.stepsLeft])
    split at hstep
    · rw [Channel.close_eq] at hstep
      simp only [Option.some.injEq] at hstep
      subst hstep
      split
      · next hfinish =>
        refine h.return_item hr _ (getD_of_isSome .finish) fun _ => ?_
        cases he : s.error.getD .finish <;> simp_all [Error.isFinish]
      · exact h.byReceiver .idle _ s.items _ (.inl rfl) (getD_of_isSome .finish)
          ((s.returned_append _).trans (List.append_nil _)) (.inl rfl) (fun _ => rfl)
          (fun hfin => absurd hfin hnone)
    · next hitem =>
      cases hstep
      exact h.return_item hr s.error (fun _ => rfl) fun hfin => absurd hfin hitem
  · cases hstep
  · next hr =>
    cases hstep
    exact h.byReceiver .dropped s.error _ _ (.inr rfl) (fun _ => rfl) hsame (.inl rfl)
      (fun _ => rfl) (fun _ => .inl rfl)
  · cases hstep

/-! ## Runs -/

/-- **One step of a run.** -/
theorem Ended.exec (h : Ended s) {l : Label α C D E} (htimely : Timely s l)
    (hexec : s.exec l = some s') : Ended s' := by
  have hsame : { s with recvResults := s.recvResults }.returned = s.returned := rfl
  have hidle {pc : SenderPc α} (hpc : { s with sender := pc }.enqueues = false)
      (hs : s.sender ≠ .closing) (hfin : hasFin s.enqueued = true) :
      s.error.isSome ∧ { s with sender := pc }.enqueues = false := by
    rcases h.sender hfin with hc | ⟨hc, -⟩
    · exact absurd hc hs
    · exact ⟨hc, hpc⟩
  cases l with
  | sendItem item weight =>
    simp only [Channel.exec] at hexec
    split at hexec <;> cases hexec
    next hs =>
    exact h.bySender _ s.error s.items _ rfl (fun _ => rfl) (hidle rfl (by simp [hs]))
  | senderStep => exact h.senderStep hexec
  | senderCancel =>
    simp only [Channel.exec] at hexec
    split at hexec <;> cases hexec
    next hs =>
    exact h.bySender _ s.error s.items _ rfl (fun _ => rfl) (hidle rfl (by simp [hs]))
  | senderTerminate error =>
    simp only [Channel.exec, Channel.close_eq] at hexec
    split at hexec <;> cases hexec
    next hs =>
    exact h.bySender s.sender _ s.items _ rfl (getD_of_isSome error)
      fun _ => ⟨rfl, by simp [Channel.enqueues, hs]⟩
  | senderDrop panicking =>
    simp only [Channel.exec, Channel.close_eq] at hexec
    split at hexec <;> cases hexec
    exact h.bySender .dropping _ s.items _ rfl (getD_of_isSome (senderDropped panicking))
      fun _ => ⟨rfl, rfl⟩
  | recv =>
    simp only [Channel.exec] at hexec
    split at hexec <;> cases hexec
    exact h.byReceiver _ s.error s.items _ (.inl rfl) (fun _ => rfl) hsame (.inl rfl)
      (fun _ => rfl) (fun _ => .inl rfl)
  | tryRecv =>
    simp only [Channel.exec] at hexec
    split at hexec <;> cases hexec
    exact h.byReceiver _ s.error s.items _ (.inl rfl) (fun _ => rfl) hsame (.inl rfl)
      (fun _ => rfl) (fun _ => .inl rfl)
  | receiverStep => exact h.receiverStep htimely hexec
  | receiverCancel =>
    simp only [Channel.exec] at hexec
    split at hexec <;> cases hexec
    exact h.byReceiver _ s.error s.items _ (.inl rfl) (fun _ => rfl) hsame (.inl rfl)
      (fun _ => rfl) (fun _ => .inl rfl)
  | receiverTerminate error =>
    simp only [Channel.exec, Channel.close_eq] at hexec
    split at hexec <;> cases hexec
    next hr =>
    exact h.byReceiver s.receiver _ s.items _ (.inl rfl) (getD_of_isSome error) hsame (.inr rfl)
      (fun _ => by simp [hr, ReceiverPc.stepsLeft]) (fun _ => .inl rfl)
  | receiverDrop panicking =>
    simp only [Channel.exec, Channel.close_eq] at hexec
    have hdropped := h.byReceiver .dropping _ s.items _ (.inl rfl)
      (getD_of_isSome (receiverDropped panicking)) hsame (.inl rfl) (fun _ => rfl) (fun _ => .inl rfl)
    split at hexec <;> cases hexec <;> exact hdropped

end

theorem Ended.reachable {s : Channel α C D E}
    (h : Reachable Channel.Init Timely Channel.exec s) : Ended s :=
  h.invariant (fun _ => Ended.init) fun _ _ _ hinv hok => hinv.exec hok

/-! ## Calls end -/

/-- A call of `recv` or `try_recv` is in progress. -/
def Channel.calling (s : Channel α C D E) : Bool :=
  match s.receiver with
  | .idle => false
  | .dropping => false
  | .dropped => false
  | _ => true

def Label.isReceiverStep : Label α C D E → Bool
  | .receiverStep => true
  | _ => false

section

variable {s s' : Channel α C D E}

/-- Where a call can be behind the final payload. -/
theorem calling_cases (hcalling : s.calling = true) (hleft : s.receiver.stepsLeft.isSome) :
    s.receiver = .pollingError .pending ∨ s.receiver = .pollingItem .completed ∨
      s.receiver = .checkingError := by
  unfold Channel.calling at hcalling
  cases hr : s.receiver with
  | pollingError future =>
    cases future with
    | pending => exact .inl rfl
    | completed => simp [hr, ReceiverPc.stepsLeft] at hleft
  | pollingItem future =>
    cases future with
    | pending => simp [hr, ReceiverPc.stepsLeft] at hleft
    | completed => exact .inr (.inl rfl)
  | checkingError => exact .inr (.inr rfl)
  | _ =>
    first
    | simp [hr] at hcalling; done
    | simp [hr, ReceiverPc.stepsLeft] at hleft

/-- A step of the receiver behind the final payload ends the call, or comes closer to its end. -/
theorem Ended.stepsLeft_receiverStep (h : Ended s) (hfin : hasFin s.returned = true)
    (htimely : timely s .receiverStep = true) {n : Nat}
    (hleft : s.receiver.stepsLeft = some (n + 1)) (hstep : s.receiverStep = some s') :
    s'.recvResults = s.recvResults ++ [.err .finish] ∨
      s'.recvResults = s.recvResults ∧ s'.receiver.stepsLeft = some n ∧ 0 < n := by
  have hfinish := h.finish hfin
  have hqueue : s.items.queue = [] := (h.taken (by rw [hasFin_append, hfin]; rfl)).2
  cases hr : s.receiver with
  | pollingError future =>
    cases future with
    | pending =>
      simp only [hr, ReceiverPc.stepsLeft, Option.some.injEq] at hleft
      simp only [Channel.receiverStep, hr, hfinish, Option.some.injEq] at hstep
      refine .inr ?_
      rw [← hstep]
      exact ⟨rfl, congrArg some (by omega), by omega⟩
    | completed => simp [hr, ReceiverPc.stepsLeft] at hleft
  | pollingItem future =>
    have hgone : s.senderGone = true := by simpa [timely, hr, hfin] using htimely
    simp only [Channel.receiverStep, hr, hqueue, hgone, if_true, Option.some.injEq,
      Channel.recvFailed, Channel.close_eq, hfinish] at hstep
    exact .inl (hstep ▸ rfl)
  | checkingError =>
    simp only [Channel.receiverStep, hr, hfinish, Option.some.injEq, Channel.recvFailed,
      Channel.close_eq] at hstep
    exact .inl (hstep ▸ rfl)
  | _ => simp [hr, ReceiverPc.stepsLeft] at hleft

/-- All other steps leave the call as it is. -/
theorem stepsLeft_exec {l : Label α C D E} (hl : l.isReceiverStep = false) {n : Nat}
    (hleft : s.receiver.stepsLeft = some (n + 1)) (hexec : s.exec l = some s') :
    s'.receiver = s.receiver ∧ s'.recvResults = s.recvResults := by
  cases hsender : l.bySender with
  | true => exact Channel.exec_bySender hsender hexec
  | false =>
    -- the receiver cannot start another call, and its call is not suspended
    cases l with
    | recv | tryRecv | receiverTerminate | receiverDrop | receiverCancel =>
      cases hr : s.receiver <;> simp [Channel.exec, hr] at hexec
      all_goals simp [hr, ReceiverPc.stepsLeft] at hleft
    | receiverStep => cases hl
    | _ => cases hsender

end

/-- **A call ends** after as many steps of the receiver as are left, whatever else happens. -/
theorem call_ends {s s' : Channel α C D E} (h : Reachable Channel.Init Timely Channel.exec s)
    (hfin : hasFin s.returned = true) {n : Nat} (hleft : s.receiver.stepsLeft = some (n + 1))
    {ls : List (Label α C D E)} (hrun : runAll Timely Channel.exec s ls = some s')
    (hsteps : n + 1 ≤ ls.countP Label.isReceiverStep) :
    ∃ s₁ before after, ls = before ++ after ∧ runAll Timely Channel.exec s before = some s₁ ∧
      s₁.recvResults = s.recvResults ++ [.err .finish] := by
  induction ls generalizing s n with
  | nil => simp at hsteps
  | cons l ls ih =>
    simp only [runAll] at hrun
    split at hrun
    · next htimely =>
      obtain ⟨s₂, hexec, hrun⟩ := Option.bind_eq_some_iff.mp hrun
      have hreachable := h.step htimely hexec
      have hstep : runAll Timely Channel.exec s [l] = some s₂ := by
        simp [runAll, htimely, hexec]
      have hreturned (hresults : s₂.recvResults = s.recvResults) : s₂.returned = s.returned := by
        rw [Channel.returned, Channel.returned, hresults]
      -- the end of the call lies in the rest of the run
      have hlater {m : Nat} (hresults : s₂.recvResults = s.recvResults)
          (hleft : s₂.receiver.stepsLeft = some (m + 1))
          (hsteps : m + 1 ≤ ls.countP Label.isReceiverStep) :
          ∃ s₁ before after, l :: ls = before ++ after ∧
            runAll Timely Channel.exec s before = some s₁ ∧
            s₁.recvResults = s.recvResults ++ [.err .finish] := by
        obtain ⟨s₁, before, after, rfl, hbefore, hresults₁⟩ :=
          ih hreachable (hreturned hresults ▸ hfin) hleft hrun hsteps
        refine ⟨s₁, l :: before, after, rfl, ?_, hresults ▸ hresults₁⟩
        rw [← List.singleton_append, runAll_append, hstep]
        exact hbefore
      cases hl : l.isReceiverStep with
      | false =>
        obtain ⟨hreceiver, hresults⟩ := stepsLeft_exec hl hleft hexec
        refine hlater hresults (hreceiver ▸ hleft) ?_
        simpa [List.countP_cons, hl] using hsteps
      | true =>
        obtain rfl : l = .receiverStep := by cases l <;> first | rfl | cases hl
        rcases (Ended.reachable h).stepsLeft_receiverStep hfin htimely hleft hexec with
          hended | ⟨hresults, hleft, hpos⟩
        · exact ⟨s₂, [.receiverStep], ls, rfl, hstep, hended⟩
        · obtain ⟨m, rfl⟩ : ∃ m, n = m + 1 := ⟨n - 1, by omega⟩
          refine hlater hresults hleft ?_
          simpa [List.countP_cons, hl] using hsteps
    · cases hrun

/-- **Behind the end of the stream**, along every timely run: every later result is `Finish`, the
receiver is neither suspended nor has it panicked, its call can always take a step, and it ends with
`Finish` at the latest when the receiver has taken two steps. -/
theorem finish_behind_fin {s : Channel α C D E}
    (h : Reachable Channel.Init Timely Channel.exec s) (hfin : hasFin s.returned = true) :
    FinishFollows s.recvResults ∧
    (∀ future, s.receiver ≠ .suspended future) ∧ s.receiver ≠ .panicked ∧
    (s.calling = true → (s.exec .receiverStep).isSome ∧
      ∀ ls s', runAll Timely Channel.exec s ls = some s' → 2 ≤ ls.countP Label.isReceiverStep →
        ∃ s₁ before after, ls = before ++ after ∧
          runAll Timely Channel.exec s before = some s₁ ∧
          s₁.recvResults = s.recvResults ++ [.err .finish]) := by
  have hended := Ended.reachable h
  have hleft := hended.receiver hfin
  refine ⟨hended.results hfin, ?_, ?_, fun hcalling => ?_⟩
  · intro future hr
    simp [hr, ReceiverPc.stepsLeft] at hleft
  · intro hr
    simp [hr, ReceiverPc.stepsLeft] at hleft
  · rcases calling_cases hcalling hleft with hr | hr | hr
    · refine ⟨?_, fun ls s' hrun hsteps => ?_⟩
      · simp [Channel.exec, Channel.receiverStep, hr, hended.finish hfin]
      · exact call_ends h hfin (by rw [hr]; rfl) hrun hsteps
    · refine ⟨?_, fun ls s' hrun hsteps => ?_⟩
      · simp only [Channel.exec, Channel.receiverStep, hr]
        split
        · rfl
        · split <;> rfl
      · exact call_ends h hfin (by rw [hr]; rfl) hrun (Nat.le_of_succ_le hsteps)
    · refine ⟨?_, fun ls s' hrun hsteps => ?_⟩
      · simp [Channel.exec, Channel.receiverStep, hr, hended.finish hfin]
      · exact call_ends h hfin (by rw [hr]; rfl) hrun (Nat.le_of_succ_le hsteps)

/-- The sender is dropped behind the end of the stream, and then `recv` and `try_recv` are called. -/
theorem finish_behind_fin_dropped :
    ∃ s : Channel Nat Unit Unit Unit, Reachable Channel.Init Timely Channel.exec s ∧
      s.returned = [.done] ∧ s.recvResults = [.ok .done, .err .finish, .err .finish] ∧
      FinishFollows s.recvResults := by
  have hrun : ∃ s : Channel Nat Unit Unit Unit, Reachable Channel.Init Timely Channel.exec s ∧
      decide (s.returned = [.done] ∧
        s.recvResults = [.ok .done, .err .finish, .err .finish]) = true :=
    exists_reachable (some (channel 10)) (fun s hs => ⟨10, (Option.some.inj hs).symm⟩)
      [.sendItem .done 1, .senderStep, .senderStep, .senderStep, .senderStep,
        .recv, .receiverStep, .receiverStep, .receiverStep, .receiverStep,
        .senderDrop false, .senderStep, .recv, .receiverStep, .receiverStep, .tryRecv, .receiverStep]
      (by decide +kernel)
  obtain ⟨s, hs, hp⟩ := hrun
  obtain ⟨hreturned, hresults⟩ := of_decide_eq_true hp
  exact ⟨s, hs, hreturned, hresults, (finish_behind_fin hs (by rw [hreturned]; rfl)).1⟩

/-- The sender is dropped while a second call of `recv` is suspended, which resumes the call. -/
theorem drop_behind_fin_panics :
    ∃ s : Channel Nat Unit Unit Unit, Reachable Channel.Init anyStep Channel.exec s ∧
      s.sender = .dropped ∧ s.recvResults = [.ok .done, .panic] := by
  have hrun : ∃ s : Channel Nat Unit Unit Unit, Reachable Channel.Init anyStep Channel.exec s ∧
      decide (s.sender = .dropped ∧ s.recvResults = [.ok .done, .panic]) = true :=
    exists_reachable (some (channel 10)) (fun s hs => ⟨10, (Option.some.inj hs).symm⟩)
      [.sendItem .done 1, .senderStep, .senderStep, .senderStep, .senderStep,
        .recv, .receiverStep, .receiverStep, .receiverStep, .receiverStep,
        .recv, .receiverStep, .receiverStep, .senderDrop false, .senderStep, .receiverStep,
        .receiverStep]
      (by decide +kernel)
  obtain ⟨s, hs, hp⟩ := hrun
  exact ⟨s, hs, of_decide_eq_true hp⟩

end Aquic.Sync.Stream

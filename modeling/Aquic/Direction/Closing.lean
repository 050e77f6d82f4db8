import Aquic.Direction.Cancel

/-!
# Closing a direction

What the application and the backend see of the end of a direction task. The task and the owner of the
cancel sender race for the cancel oneshot. Whoever comes first, the task ends with an error in the item
channel, so the application is never left waiting (`closes_once`). The backend is told what `close` says
for the error in the oneshot, and nothing if that is the owner's.

An error of the I/O loop reaches the application (`own_error_reaches_application`), unless the application
itself has closed the channel or the cancel sender is used first. The errors of the cancel sender are the
subject of `Aquic.Direction.Cancel`.
-/

namespace Aquic

open Run Sync

/-- The calls of the backend among some actions. -/
def backendCalls {ε β : Type} (actions : List (Action ε β)) : List β :=
  actions.filterMap fun
    | .backend call => some call
    | .item _ => none

/-- The first error that the item half is terminated with. -/
def told {ε β : Type} (actions : List (Action ε β)) : Option ε :=
  actions.findSome? fun
    | .item error => some error
    | .backend _ => none

namespace Direction

variable {σ ι ε β : Type} {d : Direction σ ι ε β} {s s' : DirectionTask σ ε β}

/-- The item half passes the error it is terminated with, and some error when it is dropped. -/
structure Telling (d : Direction σ ι ε β) : Prop where
  terminate : ∀ s e, d.channel.closes s (d.terminate e) = some e
  drop : ∀ s, (d.channel.closes s d.drop).isSome = true

/-! ## The calls of the backend -/

/-- The actions of `close` have been done for the error in the oneshot, up to some that are left; or
the error is the owner's, and none will be done. -/
def Closed (d : Direction σ ι ε β) (s : DirectionTask σ ε β) (rest : List (Action ε β)) : Prop :=
  ∃ e, s.cancel.container = some e ∧
    ((∃ done, d.onClose e = done ++ rest ∧ s.calls = backendCalls done) ∨
      d.allowed e = true ∧ s.calls = [] ∧ rest = [])

/-- Before `close` nothing has been called, and only the owner has used the oneshot. -/
def Before (d : Direction σ ι ε β) (s : DirectionTask σ ε β) : Prop :=
  s.calls = [] ∧ 0 < s.cancel.receiverCount ∧
    ∀ e, s.cancel.container = some e → d.allowed e = true

/-- What has become of the calls, wherever the task is. -/
def Told (d : Direction σ ι ε β) (s : DirectionTask σ ε β) : Prop :=
  match s.pc with
  | .acting rest => d.Closed s rest
  | .dropping => d.Closed s []
  | .droppingQueue => d.Closed s [] ∧ (d.channel.error s.channel).isSome = true
  | .finished => d.Closed s [] ∧ (d.channel.error s.channel).isSome = true
  | _ => d.Before s

theorem isSome_error_exec (hd : d.channel.Lawful) {c c' : σ} {i : ι}
    (hexec : d.channel.exec c i = some c') (h : (d.channel.error c).isSome = true) :
    (d.channel.error c').isSome = true := by
  rw [hd.error_exec _ _ _ hexec]
  obtain ⟨e, he⟩ := Option.isSome_iff_exists.mp h
  simp [he]

theorem Closed.act {rest : List (Action ε β)} {action : Action ε β}
    (h : d.Closed s (action :: rest)) (channel : σ) (pc : TaskPc ε β) :
    d.Closed { s with channel, pc, calls := s.calls ++ backendCalls [action] } rest := by
  obtain ⟨e, hcancel, ⟨done, hactions, hcalls⟩ | ⟨-, -, hnil⟩⟩ := h
  · refine ⟨e, hcancel, .inl ⟨done ++ [action], ?_, ?_⟩⟩
    · rw [hactions, List.append_assoc]
      rfl
    · show s.calls ++ backendCalls [action] = backendCalls (done ++ [action])
      rw [hcalls]
      exact (List.filterMap_append ..).symm
  · cases hnil

/-- `close` puts its error into the oneshot, or finds the owner's there. -/
theorem Before.close (h : d.Before s) {e : ε} (hpc : s.pc = .closing e)
    (hexec : d.exec s .close = some s') : d.Told s' := by
  obtain ⟨hcalls, hreceivers, howner⟩ := h
  simp only [exec, hpc] at hexec
  cases hcontainer : s.cancel.container with
  | none =>
    rw [Oneshot.send_of_none hcontainer hreceivers] at hexec
    cases hexec
    exact ⟨e, rfl, .inl ⟨[], rfl, hcalls⟩⟩
  | some owner =>
    obtain ⟨failure, hsend⟩ := Oneshot.send_of_isSome (by rw [hcontainer]; rfl) e
    rw [hsend] at hexec
    cases hexec
    exact ⟨owner, hcontainer, .inr ⟨howner owner hcontainer, hcalls, rfl⟩⟩

theorem told_act (h : d.Told s) (hexec : d.exec s .act = some s') :
    d.Told s' := by
  cases hpc : s.pc with
  | acting actions =>
    simp only [Told, hpc] at h
    simp only [exec, hpc] at hexec
    cases actions with
    | nil =>
      cases hexec
      exact h
    | cons action rest =>
      cases action with
      | item e =>
        obtain ⟨channel, -, rfl⟩ := step_cases hexec
        have hact := h.act channel (.acting rest)
        rw [show backendCalls [Action.item (β := β) e] = [] from rfl, List.append_nil] at hact
        exact hact
      | backend call =>
        cases hexec
        exact h.act s.channel (.acting rest)
  | _ => simp [exec, hpc] at hexec

/-- The owner uses the cancel sender. -/
theorem told_cancel {e : ε} (h : d.Told s) (hexec : d.exec s (.cancel e) = some s') : d.Told s' := by
  simp only [exec] at hexec
  split at hexec
  · next hallowed =>
    cases hexec
    have hclosed : ∀ rest, d.Closed s rest →
        d.Closed { s with cancel := (s.cancel.send e).1 } rest := by
      rintro rest ⟨e', hcontainer, hdone⟩
      obtain ⟨failure, hsend⟩ := Oneshot.send_of_isSome (by rw [hcontainer]; rfl) e
      refine ⟨e', ?_, hdone⟩
      rw [hsend]
      exact hcontainer
    have hbefore : d.Before s → d.Before { s with cancel := (s.cancel.send e).1 } := by
      rintro ⟨hcalls, hreceivers, howner⟩
      refine ⟨hcalls, by rwa [Oneshot.receiverCount_send], fun e' he' => ?_⟩
      cases hcontainer : s.cancel.container with
      | none =>
        rw [Oneshot.send_of_none hcontainer hreceivers] at he'
        cases he'
        exact hallowed
      | some owner =>
        obtain ⟨failure, hsend⟩ := Oneshot.send_of_isSome (by rw [hcontainer]; rfl) e
        rw [hsend] at he'
        exact howner e' he'
    unfold Told at h ⊢
    cases hpc : s.pc with
    | acting rest =>
      rw [hpc] at h
      exact hclosed rest h
    | dropping =>
      rw [hpc] at h
      exact hclosed [] h
    | droppingQueue | finished =>
      rw [hpc] at h
      exact ⟨hclosed [] h.1, h.2⟩
    | _ =>
      rw [hpc] at h
      exact hbefore h
  · cases hexec

/-- A poll of the task, up to the branch that is picked. -/
theorem told_select {l : TaskLabel ι ε} (h : d.Told s)
    (hl : l = .poll ∨ (∃ i, l = .io i) ∨ l = .ioPending ∨ (∃ e, l = .ioReady e) ∨ l = .pollCancel ∨
      l = .pollAppError) (hexec : d.exec s l = some s') : d.Told s' := by
  rcases hl with rfl | ⟨i, rfl⟩ | rfl | ⟨e, rfl⟩ | rfl | rfl
  all_goals
    cases hpc : s.pc <;> simp only [exec, hpc, reduceCtorEq] at hexec
    simp only [Told, hpc] at h
    try simp only [step, pick] at hexec
    repeat' split at hexec
    all_goals first | (cases hexec; done) | skip
    all_goals first | (obtain ⟨channel, -, rfl⟩ := Option.map_eq_some_iff.mp hexec) | cases hexec
    all_goals exact h

theorem Told.exec (hd : d.channel.Lawful) (htelling : d.Telling) (h : d.Told s) {l : TaskLabel ι ε}
    (hexec : d.exec s l = some s') : d.Told s' := by
  cases l with
  | app i =>
    simp only [Direction.exec] at hexec
    split at hexec
    · obtain ⟨channel, hstep, rfl⟩ := step_cases hexec
      unfold Told at h ⊢
      cases hpc : s.pc with
      | droppingQueue | finished =>
        rw [hpc] at h
        exact ⟨h.1, isSome_error_exec hd hstep h.2⟩
      | _ =>
        rw [hpc] at h
        exact h
    · cases hexec
  | cancel e => exact told_cancel h hexec
  | close =>
    cases hpc : s.pc with
    | closing e =>
      simp only [Told, hpc] at h
      exact h.close hpc hexec
    | _ => simp [Direction.exec, hpc] at hexec
  | act => exact told_act h hexec
  | drop =>
    cases hpc : s.pc with
    | dropping =>
      simp only [Told, hpc] at h
      simp only [Direction.exec, hpc] at hexec
      obtain ⟨channel, hstep, rfl⟩ := step_cases hexec
      refine ⟨h, ?_⟩
      rw [hd.error_exec _ _ _ hstep]
      obtain ⟨e, he⟩ := Option.isSome_iff_exists.mp (htelling.drop s.channel)
      rw [he]
      cases d.channel.error s.channel <;> rfl
    | _ => simp [Direction.exec, hpc] at hexec
  | dropQueue =>
    cases hpc : s.pc with
    | droppingQueue =>
      simp only [Told, hpc] at h
      simp only [Direction.exec, hpc] at hexec
      obtain ⟨t, ht, rfl⟩ := Option.map_eq_some_iff.mp hexec
      obtain ⟨channel, hstep, rfl⟩ := step_cases ht
      exact ⟨h.1, isSome_error_exec hd hstep h.2⟩
    | _ => simp [Direction.exec, hpc] at hexec
  | poll | io | ioPending | ioReady | pollCancel | pollAppError =>
    apply told_select h _ hexec
    simp

/-- A finished task has closed its channel, and has done what `close` says for one error. -/
theorem closed_of_finished (hd : d.channel.Lawful) (htelling : d.Telling)
    (h : Reachable d.Init anyStep d.exec s) (hpc : s.pc = .finished) :
    (d.channel.error s.channel).isSome = true ∧ ∃ e, s.cancel.container = some e ∧
      (s.calls = backendCalls (d.onClose e) ∨ d.allowed e = true ∧ s.calls = []) := by
  have htold : d.Told s := by
    apply Run.Reachable.invariant _ _ h
    · rintro s ⟨channel, -, rfl⟩
      exact ⟨rfl, Nat.two_pos, by simp [DirectionTask.new]⟩
    · intro s l s' hinv _ hexec
      exact hinv.exec hd htelling hexec
  simp only [Told, hpc] at htold
  obtain ⟨⟨e, hcontainer, hclosed⟩, herror⟩ := htold
  refine ⟨herror, e, hcontainer, ?_⟩
  rcases hclosed with ⟨done, hactions, hcalls⟩ | ⟨hallowed, hcalls, -⟩
  · rw [List.append_nil] at hactions
    exact .inl (hactions ▸ hcalls)
  · exact .inr ⟨hallowed, hcalls⟩

/-! ## The errors of the I/O loop -/

/-- The application's half passes no error, and the owner does not act before the task has closed. -/
def undisturbed (d : Direction σ ι ε β) (s : DirectionTask σ ε β) : TaskLabel ι ε → Bool
  | .app i => (d.channel.closes s.channel i).isNone
  | .cancel _ =>
    match s.pc with
    | .closing _ => false
    | _ => true
  | _ => true

/-- The error is recorded, or will be by what is left to do. -/
def Tells (d : Direction σ ι ε β) (x : ε) (s : DirectionTask σ ε β) : Prop :=
  d.channel.error s.channel = some x ∨
    d.channel.error s.channel = none ∧
      ((∃ e, s.pc = .closing e ∧ told (d.onClose e) = some x ∧ s.cancel.container = none ∧
          0 < s.cancel.receiverCount) ∨
        ∃ rest, s.pc = .acting rest ∧ told rest = some x)

/-- What a step does to the item channel. -/
theorem channel_cases {l : TaskLabel ι ε} (hexec : d.exec s l = some s') :
    s'.channel = s.channel ∨ (∃ i, d.channel.exec s.channel i = some s'.channel) ∨
      d.leaveIo s.channel = some s'.channel := by
  have hstep : ∀ {t t' : DirectionTask σ ε β} {i : ι} {pc : TaskPc ε β}, d.step t i pc = some t' →
      d.channel.exec t.channel i = some t'.channel := by
    intro t t' i pc h
    obtain ⟨channel, hexec, rfl⟩ := step_cases h
    exact hexec
  have hpick : ∀ {t t' : DirectionTask σ ε β} {e : ε}, d.pick t e = some t' →
      d.leaveIo t.channel = some t'.channel := by
    intro t t' e h
    obtain ⟨channel, hleave, rfl⟩ := pick_cases h
    exact hleave
  cases l with
  | dropQueue =>
    simp only [exec] at hexec
    split at hexec
    · obtain ⟨t, ht, rfl⟩ := Option.map_eq_some_iff.mp hexec
      have hchannel := hstep ht
      exact .inr (.inl ⟨_, hchannel⟩)
    · cases hexec
  | _ =>
    simp only [exec] at hexec
    repeat' split at hexec
    all_goals first | (cases hexec; done) | skip
    all_goals first
      | exact .inr (.inl ⟨_, hstep hexec⟩)
      | (have hchannel := hpick hexec; exact .inr (.inr hchannel))
      | (cases hexec; exact .inl rfl)

/-- A recorded error stays. -/
theorem Lawful.error_stays (hd : d.Lawful) {x : ε} (herror : d.channel.error s.channel = some x)
    {l : TaskLabel ι ε} (hexec : d.exec s l = some s') : d.channel.error s'.channel = some x := by
  rcases channel_cases hexec with hsame | ⟨i, hstep⟩ | hleave
  · rw [hsame, herror]
  · rw [hd.channel.error_exec _ _ _ hstep, herror]
    rfl
  · rw [hd.error_leaveIo _ _ hleave, herror]

theorem Tells.exec (hd : d.Lawful) (htelling : d.Telling) {x : ε} (h : d.Tells x s)
    {l : TaskLabel ι ε} (hquiet : d.undisturbed s l = true) (hexec : d.exec s l = some s') :
    d.Tells x s' := by
  rcases h with herror | ⟨hnone, hleft⟩
  · exact .inl (hd.error_stays herror hexec)
  · cases l with
    | app i =>
      simp only [Direction.exec] at hexec
      split at hexec
      · obtain ⟨channel, hstep, rfl⟩ := step_cases hexec
        refine .inr ⟨?_, hleft⟩
        rw [hd.channel.error_exec _ _ _ hstep, hnone]
        exact Option.isNone_iff_eq_none.mp hquiet
      · cases hexec
    | cancel e =>
      rcases hleft with ⟨e', hpc, -⟩ | ⟨rest, hpc, htold⟩
      · simp [undisturbed, hpc] at hquiet
      · simp only [Direction.exec] at hexec
        split at hexec <;> cases hexec
        exact .inr ⟨hnone, .inr ⟨rest, hpc, htold⟩⟩
    | close =>
      rcases hleft with ⟨e, hpc, htold, hcontainer, hreceivers⟩ | ⟨rest, hpc, -⟩
      · simp only [Direction.exec, hpc, Oneshot.send_of_none hcontainer hreceivers] at hexec
        cases hexec
        exact .inr ⟨hnone, .inr ⟨_, rfl, htold⟩⟩
      · simp [Direction.exec, hpc] at hexec
    | act =>
      rcases hleft with ⟨e, hpc, -⟩ | ⟨rest, hpc, htold⟩
      · simp [Direction.exec, hpc] at hexec
      · simp only [Direction.exec, hpc] at hexec
        cases rest with
        | nil => cases htold
        | cons action rest =>
          cases action with
          | item e =>
            obtain ⟨channel, hstep, rfl⟩ := step_cases hexec
            obtain rfl : e = x := Option.some.inj htold
            refine .inl ?_
            rw [hd.channel.error_exec _ _ _ hstep, hnone, htelling.terminate]
            rfl
          | backend call =>
            cases hexec
            exact .inr ⟨hnone, .inr ⟨rest, rfl, htold⟩⟩
    | _ => rcases hleft with ⟨e, hpc, -⟩ | ⟨rest, hpc, -⟩ <;> simp [Direction.exec, hpc] at hexec

/-- An error that the task puts into the oneshot reaches the application. -/
theorem Lawful.tells (hd : d.Lawful) (htelling : d.Telling) {e x : ε}
    (hs : Reachable d.Init anyStep d.exec s) (hpc : s.pc = .closing e)
    (hcontainer : s.cancel.container = none) (herror : d.channel.error s.channel = none)
    (htold : told (d.onClose e) = some x) (h : Reachable (· = s) (fun s l => d.undisturbed s l = true) d.exec s')
    (hfinished : s'.pc = .finished) : d.channel.error s'.channel = some x := by
  have hbefore : d.Told s := by
    apply Run.Reachable.invariant _ _ hs
    · rintro s ⟨channel, -, rfl⟩
      exact ⟨rfl, Nat.two_pos, by simp [DirectionTask.new]⟩
    · intro s l s' hinv _ hexec
      exact hinv.exec hd.channel htelling hexec
  simp only [Told, hpc] at hbefore
  have htells : d.Tells x s' := by
    apply Run.Reachable.invariant _ _ h
    · rintro _ rfl
      exact .inr ⟨herror, .inl ⟨e, hpc, htold, hcontainer, hbefore.2.1⟩⟩
    · intro s l s' hinv hquiet hexec
      exact hinv.exec hd htelling hquiet hexec
  rcases htells with herror' | ⟨-, ⟨e', hpc', -⟩ | ⟨rest, hpc', -⟩⟩
  · exact herror'
  · cases hfinished.symm.trans hpc'
  · cases hfinished.symm.trans hpc'

/-- Whenever a task has finished, its channel is closed; and the backend was told what `close` says for the
error in the cancel oneshot, or nothing, if the owner of the cancel sender came first. -/
def ClosesOnce (d : Direction σ ι ε β) : Prop :=
  ∀ s, Reachable d.Init anyStep d.exec s → s.pc = .finished →
    (d.channel.error s.channel).isSome = true ∧ ∃ e, s.cancel.container = some e ∧
      (s.calls = backendCalls (d.onClose e) ∨ d.allowed e = true ∧ s.calls = [])

/-- When the task closes with `e`, and neither the owner of the cancel sender nor the application has
closed before or interferes, then the application gets what `close` says for `e`. -/
def OwnErrorArrives (d : Direction σ ι ε β) : Prop :=
  ∀ s e x, Reachable d.Init anyStep d.exec s → s.pc = .closing e → s.cancel.container = none →
    d.channel.error s.channel = none → told (d.onClose e) = some x →
    ∀ s', Reachable (· = s) (fun s l => d.undisturbed s l = true) d.exec s' → s'.pc = .finished →
      d.channel.error s'.channel = some x

theorem Lawful.closesOnce (hd : d.Lawful) (htelling : d.Telling) : d.ClosesOnce :=
  fun _ h hpc => closed_of_finished hd.channel htelling h hpc

theorem Lawful.ownErrorArrives (hd : d.Lawful) (htelling : d.Telling) : d.OwnErrorArrives :=
  fun _ _ _ hs hpc hcontainer herror htold _ h hfinished =>
    hd.tells htelling hs hpc hcontainer herror htold h hfinished

/-! ## The four tasks -/

section

variable {α C D E : Type} (typeName : String)

theorem Stream.incoming_telling (display : E → String) :
    (Stream.incoming (α := α) (C := C) (D := D) typeName display).Telling :=
  ⟨fun _ _ => rfl, fun _ => rfl⟩

theorem Stream.outgoing_telling (display : D → String) :
    (Stream.outgoing (α := α) (C := C) (E := E) typeName display).Telling :=
  ⟨fun _ _ => rfl, fun _ => rfl⟩

theorem Dgram.incoming_telling : (Dgram.incoming (α := α) typeName).Telling :=
  ⟨fun _ _ => rfl, fun _ => rfl⟩

theorem Dgram.outgoing_telling : (Dgram.outgoing (α := α) typeName).Telling :=
  ⟨fun _ _ => rfl, fun _ => rfl⟩

end

/-- **A task closes once**, in any run of the task, the application and the owner of the cancel sender. -/
theorem closes_once {α β C D E : Type} (typeName : String) (displayDecoder : D → String)
    (displayEncoder : E → String) :
    (Stream.incoming (α := α) (C := C) (D := D) typeName displayEncoder).ClosesOnce ∧
    (Stream.outgoing (α := α) (C := C) (E := E) typeName displayDecoder).ClosesOnce ∧
    (Dgram.incoming (α := β) typeName).ClosesOnce ∧
    (Dgram.outgoing (α := β) typeName).ClosesOnce :=
  ⟨(Stream.incoming_lawful typeName displayEncoder).closesOnce
      (Stream.incoming_telling typeName displayEncoder),
    (Stream.outgoing_lawful typeName displayDecoder).closesOnce
      (Stream.outgoing_telling typeName displayDecoder),
    (Dgram.incoming_lawful typeName).closesOnce (Dgram.incoming_telling typeName),
    (Dgram.outgoing_lawful typeName).closesOnce (Dgram.outgoing_telling typeName)⟩

/-- **An error of the I/O loop reaches the application**, in each of the four tasks. -/
theorem own_error_arrives {α β C D E : Type} (typeName : String) (displayDecoder : D → String)
    (displayEncoder : E → String) :
    (Stream.incoming (α := α) (C := C) (D := D) typeName displayEncoder).OwnErrorArrives ∧
    (Stream.outgoing (α := α) (C := C) (E := E) typeName displayDecoder).OwnErrorArrives ∧
    (Dgram.incoming (α := β) typeName).OwnErrorArrives ∧
    (Dgram.outgoing (α := β) typeName).OwnErrorArrives :=
  ⟨(Stream.incoming_lawful typeName displayEncoder).ownErrorArrives
      (Stream.incoming_telling typeName displayEncoder),
    (Stream.outgoing_lawful typeName displayDecoder).ownErrorArrives
      (Stream.outgoing_telling typeName displayDecoder),
    (Dgram.incoming_lawful typeName).ownErrorArrives (Dgram.incoming_telling typeName),
    (Dgram.outgoing_lawful typeName).ownErrorArrives (Dgram.outgoing_telling typeName)⟩

/-- Numbers arrive, and all codes and errors are numbers as well. -/
def numbersIncoming : Direction (Sync.Stream.Channel Nat Nat Nat Nat)
    (Sync.Stream.Label Nat Nat Nat Nat) (Sync.Stream.Error Nat Nat Nat)
    (Stream.BackendCall Nat Nat Nat) :=
  Stream.incoming "Incoming" toString

/-- The I/O loop has ended because the backend has reset the stream. -/
def resetByBackend : DirectionTask (Sync.Stream.Channel Nat Nat Nat Nat)
    (Sync.Stream.Error Nat Nat Nat) (Stream.BackendCall Nat Nat Nat) :=
  { DirectionTask.new (Sync.Stream.channel 10) with pc := .closing (.reset 7) }

/-- The backend resets a stream: the I/O loop ends with the error, the application receives it after the
task has finished, and the backend, which knows, is not told. -/
theorem own_error_arrives_reset : ∃ s s',
    Reachable (· = s) (fun s l => numbersIncoming.undisturbed s l = true) numbersIncoming.exec s' ∧
      s.pc = .closing (.reset 7) ∧ s'.pc = .finished ∧ s'.calls = [] ∧
      numbersIncoming.channel.error s'.channel = some (.reset 7) := by
  have hrun : ∃ s, Reachable numbersIncoming.Init anyStep numbersIncoming.exec s ∧
      decide (s = resetByBackend) = true :=
    exists_reachable (some (DirectionTask.new (Sync.Stream.channel 10)))
      (fun _ hs => ⟨_, ⟨10, rfl⟩, (Option.some.inj hs).symm⟩) [.poll, .ioReady (.reset 7)]
      (by decide +kernel)
  obtain ⟨s, hs, hp⟩ := hrun
  obtain rfl := of_decide_eq_true hp
  have hrest : ∃ s', Reachable (· = resetByBackend)
        (fun s l => numbersIncoming.undisturbed s l = true) numbersIncoming.exec s' ∧
      decide (s'.pc = .finished ∧ s'.calls = []) = true :=
    exists_reachable (some resetByBackend)
      (fun _ hs => (Option.some.inj hs).symm) [.close, .act, .act, .drop, .dropQueue]
      (by decide +kernel)
  obtain ⟨s', hs', hp'⟩ := hrest
  obtain ⟨hfinished, hcalls⟩ := of_decide_eq_true hp'
  have harrives := (own_error_arrives (α := Nat) (β := Nat) (C := Nat) (D := Nat) (E := Nat)
    "Incoming" toString toString).1
  exact ⟨_, s', hs', rfl, hfinished, hcalls,
    harrives _ _ _ hs rfl rfl rfl rfl s' hs' hfinished⟩

/-- The owner of the cancel sender comes first: the task finishes with a closed channel all the same. -/
theorem closes_once_cancelled : ∃ s, Reachable numbersIncoming.Init anyStep numbersIncoming.exec s ∧
    s.cancel.container = some (.reset 7) ∧ s.calls = [] ∧
    (numbersIncoming.channel.error s.channel).isSome = true := by
  have hrun : ∃ s, Reachable numbersIncoming.Init anyStep numbersIncoming.exec s ∧
      decide (s.pc = .finished ∧ s.cancel.container = some (.reset 7) ∧ s.calls = []) = true :=
    exists_reachable (some (DirectionTask.new (Sync.Stream.channel 10)))
      (fun _ hs => ⟨_, ⟨10, rfl⟩, (Option.some.inj hs).symm⟩)
      [.cancel (.reset 7), .poll, .ioPending, .pollCancel, .close, .drop, .dropQueue]
      (by decide +kernel)
  obtain ⟨s, hs, hp⟩ := hrun
  obtain ⟨hfinished, hcancel, hcalls⟩ := of_decide_eq_true hp
  have hcloses := (closes_once (α := Nat) (β := Nat) (C := Nat) (D := Nat) (E := Nat)
    "Incoming" toString toString).1
  exact ⟨s, hs, hcancel, hcalls, (hcloses s hs hfinished).1⟩

end Direction

end Aquic

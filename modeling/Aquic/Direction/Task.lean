import Aquic.Lib.Run
import Aquic.Sync.Oneshot
import Aquic.Sync.Terminal

/-!
# The task of a direction

`stream/incoming.rs`, `stream/outgoing.rs`, `dgram/incoming.rs` and `dgram/outgoing.rs` each run a
task between the QUIC backend and one half of an item channel; the application has the other half.
The four tasks have one shape (`Direction`): a biased `select` of the I/O loop, of a cancellation
oneshot and of the application's terminal error, then `close`, then the task is dropped with its
half.

A poll of the task runs the I/O loop first, then reads the two oneshots. The application and the
owner of the cancel sender act at any time in between. Of the I/O loop only its calls on the item
channel are kept, in any order and with any result.
-/

namespace Aquic

open Run Sync

/-- What `close` does with an error. -/
inductive Action (ε β : Type) where
  /-- The item half is terminated with this error. -/
  | item (error : ε)
  /-- The backend is told. -/
  | backend (call : β)
  deriving DecidableEq, Repr

/-- One of the direction tasks: `σ` is its item channel with steps `ι` and errors `ε`, and `β` are
its calls of the backend that end a stream. -/
structure Direction (σ ι ε β : Type) where
  channel : Closable σ ι ε
  /-- The steps of the I/O loop. -/
  io : σ → ι → Bool
  /-- The steps of the application's half. -/
  app : ι → Bool
  /-- The task's half can be used: it is not dropped, and no call of it is bound to panic. -/
  alive : σ → Bool
  /-- No call of the task's half is in progress. -/
  idle : σ → Bool
  /-- The I/O loop is dropped where it waits, with its suspended call. -/
  leaveIo : σ → Option σ
  /-- The errors that may be sent to the cancel sender. -/
  allowed : ε → Bool
  /-- The errors of the application that end the task. -/
  appError : ε → Bool
  /-- The cancel oneshot is closed. -/
  cancelUnavailable : ε
  /-- `close`, once its error is in the cancel oneshot. -/
  onClose : ε → List (Action ε β)
  terminate : ε → ι
  drop : ι
  /-- The half's end of the queue is dropped. -/
  dropQueue : ι

/-- Where a task is. -/
inductive TaskPc (ε β : Type) where
  /-- Between two polls. -/
  | suspended
  /-- `select`: the I/O loop is polled. -/
  | io
  /-- `select`: the I/O loop is pending, the cancel oneshot is polled next. -/
  | pollingCancel
  /-- `select`: the cancel oneshot is empty, the application's error is polled next. -/
  | pollingAppError
  /-- `close(error)` is called. -/
  | closing (error : ε)
  /-- `close`: these actions are left. -/
  | acting (actions : List (Action ε β))
  /-- The item half is dropped next. -/
  | dropping
  | droppingQueue
  | finished
  deriving DecidableEq, Repr

structure DirectionTask (σ ε β : Type) where
  channel : σ
  cancel : Oneshot ε
  pc : TaskPc ε β
  /-- History: the error for which `select` picked the cancellation branch. -/
  picked : Option ε
  /-- History: the calls of the backend. -/
  calls : List β
  deriving DecidableEq, Repr

/-- `new`, then `read` or `write`: the task holds a sender and two receivers of the cancel oneshot,
the caller another sender. -/
def DirectionTask.new {σ ε β : Type} (channel : σ) : DirectionTask σ ε β where
  channel
  cancel := { container := none, senderCount := 2, receiverCount := 2 }
  pc := .suspended
  picked := none
  calls := []

inductive TaskLabel (ι ε : Type) where
  /-- The task is polled. -/
  | poll
  | io (step : ι)
  | ioPending
  /-- The I/O loop ends; `finish` and `ended` stand for `Ok(())`. -/
  | ioReady (error : ε)
  | pollCancel
  | pollAppError
  | close
  | act
  | drop
  | dropQueue
  /-- The application's half takes a step. -/
  | app (step : ι)
  /-- The cancel sender is used. -/
  | cancel (error : ε)
  deriving DecidableEq, Repr

namespace Direction

variable {σ ι ε β : Type} (d : Direction σ ι ε β)

/-- The item channel takes a step. -/
def step (s : DirectionTask σ ε β) (l : ι) (pc : TaskPc ε β) : Option (DirectionTask σ ε β) :=
  (d.channel.exec s.channel l).map fun channel => { s with channel, pc }

/-- `select` picks a branch: the I/O loop is dropped, and `close(error)` is called. -/
def pick (s : DirectionTask σ ε β) (error : ε) : Option (DirectionTask σ ε β) :=
  (d.leaveIo s.channel).map fun channel => { s with channel, pc := .closing error }

def exec (s : DirectionTask σ ε β) : TaskLabel ι ε → Option (DirectionTask σ ε β)
  | .poll =>
    match s.pc with
    | .suspended => some { s with pc := .io }
    | _ => none
  | .io l =>
    match s.pc with
    | .io => if d.io s.channel l then d.step s l .io else none
    | _ => none
  | .ioPending =>
    match s.pc with
    | .io => if (d.leaveIo s.channel).isSome then some { s with pc := .pollingCancel } else none
    | _ => none
  | .ioReady error =>
    match s.pc with
    | .io => if d.idle s.channel then some { s with pc := .closing error } else none
    | _ => none
  | .pollCancel =>
    match s.pc with
    | .pollingCancel =>
      match s.cancel.tryRecv with
      | .ok error => d.pick { s with picked := some error } error
      | .error .closed => d.pick s d.cancelUnavailable
      | .error .empty => some { s with pc := .pollingAppError }
    | _ => none
  | .pollAppError =>
    match s.pc with
    | .pollingAppError =>
      match d.channel.error s.channel with
      | some error => if d.appError error then d.pick s error else some { s with pc := .suspended }
      | none => some { s with pc := .suspended }
    | _ => none
  | .close =>
    match s.pc with
    | .closing error =>
      match s.cancel.send error with
      | (cancel, .ok _) => some { s with cancel, pc := .acting (d.onClose error) }
      | (_, .error _) => some { s with pc := .dropping }
    | _ => none
  | .act =>
    match s.pc with
    | .acting (.item error :: rest) => d.step s (d.terminate error) (.acting rest)
    | .acting (.backend call :: rest) =>
      some { s with calls := s.calls ++ [call], pc := .acting rest }
    | .acting [] => some { s with pc := .dropping }
    | _ => none
  | .drop =>
    match s.pc with
    | .dropping => d.step s d.drop .droppingQueue
    | _ => none
  | .dropQueue =>
    match s.pc with
    | .droppingQueue =>
      (d.step s d.dropQueue .finished).map fun s =>
        { s with cancel := { s.cancel with
            senderCount := s.cancel.senderCount - 1, receiverCount := 0 } }
    | _ => none
  | .app l => if d.app l then d.step s l s.pc else none
  | .cancel error =>
    if d.allowed error then some { s with cancel := (s.cancel.send error).1 } else none

/-- The task is in its `select`. -/
def running (s : DirectionTask σ ε β) : Bool :=
  match s.pc with
  | .suspended => true
  | .io => true
  | .pollingCancel => true
  | .pollingAppError => true
  | _ => false

/-- The direction is open: the task is in its `select`, no error has been recorded, and the cancel
sender has not been used. -/
structure Open (s : DirectionTask σ ε β) : Prop where
  running : running s = true
  error : d.channel.error s.channel = none
  cancel : s.cancel.container = none

/-- A new task on a new channel. -/
def Init (s : DirectionTask σ ε β) : Prop := ∃ channel, d.channel.init channel ∧ s = .new channel

/-- **The reason reaches the application**: when the cancellation branch was picked for `e`, the
application's half sees `e` once the task has finished. -/
def Reports (s : DirectionTask σ ε β) (e : ε) : Prop :=
  ∀ s', Reachable (· = s) anyStep d.exec s' → s'.picked = some e → s'.pc = .finished →
    d.channel.error s'.channel = some e

/-- No open direction reports the reason of its cancellation: the branch can be picked, and in every
run in which it is picked for `e` the application's half ends up with another error. -/
def NeverReports : Prop :=
  ∀ s e, Reachable d.Init anyStep d.exec s → d.Open s → d.allowed e = true →
    ¬ d.Reports s e ∧ ∀ s', Reachable (· = s) anyStep d.exec s' → s'.picked = some e →
      d.channel.error s'.channel ≠ some e

/-- What the item channel of a direction guarantees. -/
structure Lawful : Prop where
  channel : d.channel.Lawful
  init s : d.channel.init s → (d.leaveIo s).isSome = true ∧ d.alive s = true
  /-- Neither the I/O loop nor the application nor dropping the half brings an error of the cancel
  sender. -/
  quiet s l e : d.io s l = true ∨ d.app l = true ∨ l = d.drop ∨ l = d.dropQueue →
    d.channel.closes s l = some e → d.allowed e = true → d.channel.error s = some e
  alive_exec s l s' : d.io s l = true ∨ d.app l = true → d.channel.exec s l = some s' →
    d.channel.error s' = none → d.alive s = true → d.alive s' = true
  leaveIo_app s l s' : d.app l = true → d.channel.exec s l = some s' →
    (d.leaveIo s).isSome = true → (d.leaveIo s').isSome = true
  error_leaveIo s s' : d.leaveIo s = some s' → d.channel.error s' = d.channel.error s
  idle_leaveIo s s' : d.leaveIo s = some s' → d.idle s' = true
  /-- A poll of the I/O loop comes to an end. -/
  waits s : d.alive s = true → d.channel.error s = none →
    ∃ s', Reachable (· = s) (fun s l => d.io s l = true) d.channel.exec s' ∧
      (d.leaveIo s').isSome = true
  drop s : d.idle s = true → ∃ s' s'', d.channel.exec s d.drop = some s' ∧
    d.channel.exec s' d.dropQueue = some s''

variable {d}

variable (d) in
/-- The call in progress can be left, or a step of it brings it to where it can be left, or closer to its
end. -/
def Progresses (rank : σ → Nat) (poll : ι) (s : σ) : Prop :=
  (d.leaveIo s).isSome = true ∨
    ∃ s', d.io s poll = true ∧ d.channel.exec s poll = some s' ∧
      ((d.leaveIo s').isSome = true ∨
        d.alive s' = true ∧ d.channel.error s' = none ∧ rank s' < rank s)

/-- A poll of the I/O loop ends when each step brings the call in progress closer to its end. -/
theorem waits_of_rank (rank : σ → Nat) (poll : ι)
    (h : ∀ s, d.alive s = true → d.channel.error s = none → d.Progresses rank poll s) (s : σ)
    (halive : d.alive s = true) (herror : d.channel.error s = none) :
    ∃ s', Reachable (· = s) (fun s l => d.io s l = true) d.channel.exec s' ∧
      (d.leaveIo s').isSome = true := by
  induction hn : rank s using Nat.strongRecOn generalizing s with
  | _ n ih =>
    rcases h s halive herror with hleave | ⟨s', hio, hexec, hnext⟩
    · exact ⟨s, .init rfl, hleave⟩
    · have hs' : Reachable (· = s) (fun s l => d.io s l = true) d.channel.exec s' :=
        .step (.init rfl) hio hexec
      rcases hnext with hleave | ⟨halive', herror', hrank⟩
      · exact ⟨s', hs', hleave⟩
      · obtain ⟨s'', hrest, hleave⟩ := ih _ (hn ▸ hrank) s' halive' herror' rfl
        exact ⟨s'', hs'.trans hrest, hleave⟩

/-! ## The cancellation branch

When the branch is picked, the cancel oneshot holds the error already. So `close` fails to put it
there and returns without an action. -/

/-- The errors of the cancel sender have not been recorded; after the cancellation branch was picked
nothing is left to do that would record one. -/
structure Silent (d : Direction σ ι ε β) (s : DirectionTask σ ε β) : Prop where
  error e : d.channel.error s.channel = some e → d.allowed e = false
  cancel : s.cancel.container.isSome = true
  pc : (∃ e, s.pc = .closing e) ∨ s.pc = .dropping ∨ s.pc = .droppingQueue ∨ s.pc = .finished

theorem step_cases {s s' : DirectionTask σ ε β} {l : ι} {pc : TaskPc ε β}
    (h : d.step s l pc = some s') :
    ∃ channel, d.channel.exec s.channel l = some channel ∧ s' = { s with channel, pc } := by
  obtain ⟨channel, hexec, rfl⟩ := Option.map_eq_some_iff.mp h
  exact ⟨channel, hexec, rfl⟩

theorem pick_cases {s s' : DirectionTask σ ε β} {e : ε} (h : d.pick s e = some s') :
    ∃ channel, d.leaveIo s.channel = some channel ∧
      s' = { s with channel, pc := .closing e } := by
  obtain ⟨channel, hleave, rfl⟩ := Option.map_eq_some_iff.mp h
  exact ⟨channel, hleave, rfl⟩

theorem Lawful.error_step (hd : d.Lawful) {s s' : σ} {l : ι}
    (hl : d.io s l = true ∨ d.app l = true ∨ l = d.drop ∨ l = d.dropQueue)
    (hs : ∀ e, d.channel.error s = some e → d.allowed e = false)
    (h : d.channel.exec s l = some s') (e : ε) (he : d.channel.error s' = some e) :
    d.allowed e = false := by
  rw [hd.channel.error_exec _ _ _ h] at he
  rcases Option.or_eq_some_iff.mp he with he | ⟨hnone, hcloses⟩
  · exact hs e he
  · by_contra hallowed
    have hrecorded := hd.quiet s l e hl hcloses (by simpa using hallowed)
    simp [hnone] at hrecorded

theorem Lawful.silent_exec (hd : d.Lawful) {s s' : DirectionTask σ ε β} {l : TaskLabel ι ε}
    (hs : d.Silent s) (h : d.exec s l = some s') : d.Silent s' := by
  obtain ⟨herror, hcancel, hpc⟩ := hs
  cases l with
  | close =>
    rcases hpc with ⟨e, hpc⟩ | hpc | hpc | hpc <;> simp only [exec, hpc] at h
    · obtain ⟨failure, hsend⟩ := Oneshot.send_of_isSome hcancel e
      rw [hsend] at h
      cases h
      exact ⟨herror, hcancel, .inr (.inl rfl)⟩
    all_goals cases h
  | drop =>
    rcases hpc with ⟨e, hpc⟩ | hpc | hpc | hpc <;> simp only [exec, hpc] at h
    · cases h
    · obtain ⟨channel, hexec, rfl⟩ := step_cases h
      exact ⟨hd.error_step (.inr (.inr (.inl rfl))) herror hexec, hcancel, .inr (.inr (.inl rfl))⟩
    all_goals cases h
  | dropQueue =>
    rcases hpc with ⟨e, hpc⟩ | hpc | hpc | hpc <;> simp only [exec, hpc] at h
    · cases h
    · cases h
    · obtain ⟨t, hstep, rfl⟩ := Option.map_eq_some_iff.mp h
      obtain ⟨channel, hexec, rfl⟩ := step_cases hstep
      exact ⟨hd.error_step (.inr (.inr (.inr rfl))) herror hexec, hcancel, .inr (.inr (.inr rfl))⟩
    · cases h
  | app i =>
    simp only [exec] at h
    split at h
    · next happ =>
      obtain ⟨channel, hexec, rfl⟩ := step_cases h
      exact ⟨hd.error_step (.inr (.inl happ)) herror hexec, hcancel, hpc⟩
    · cases h
  | cancel e =>
    simp only [exec] at h
    split at h
    · obtain ⟨failure, hsend⟩ := Oneshot.send_of_isSome hcancel e
      rw [hsend] at h
      cases h
      exact ⟨herror, hcancel, hpc⟩
    · cases h
  | _ => rcases hpc with ⟨e, hpc⟩ | hpc | hpc | hpc <;> simp [exec, hpc] at h

/-- Before a branch is picked the errors of the cancel sender have not been recorded either. -/
theorem Lawful.error_exec_running (hd : d.Lawful) {s s' : DirectionTask σ ε β} {l : TaskLabel ι ε}
    (hrunning : running s = true)
    (herror : ∀ e, d.channel.error s.channel = some e → d.allowed e = false)
    (h : d.exec s l = some s') :
    ∀ e, d.channel.error s'.channel = some e → d.allowed e = false := by
  have hpick {t t' : DirectionTask σ ε β} {e : ε} (ht : t.channel = s.channel)
      (h : d.pick t e = some t') :
      ∀ e, d.channel.error t'.channel = some e → d.allowed e = false := by
    obtain ⟨channel, hleave, rfl⟩ := pick_cases h
    intro e he
    apply herror
    rwa [← ht, ← hd.error_leaveIo _ _ hleave]
  cases l with
  | io i =>
    simp only [exec] at h
    split at h
    · split at h
      · next hio =>
        obtain ⟨channel, hexec, rfl⟩ := step_cases h
        exact hd.error_step (.inl hio) herror hexec
      · cases h
    · cases h
  | app i =>
    simp only [exec] at h
    split at h
    · next happ =>
      obtain ⟨channel, hexec, rfl⟩ := step_cases h
      exact hd.error_step (.inr (.inl happ)) herror hexec
    · cases h
  | pollCancel =>
    simp only [exec] at h
    split at h
    · split at h
      · next e _ => exact hpick (t := { s with picked := some e }) rfl h
      · exact hpick rfl h
      · cases h
        exact herror
    · cases h
  | pollAppError =>
    simp only [exec] at h
    split at h
    · split at h
      · split at h
        · exact hpick rfl h
        · cases h
          exact herror
      · cases h
        exact herror
    · cases h
  | close | act | drop | dropQueue =>
    simp only [exec] at h
    cases hpc : s.pc <;> simp [running, hpc] at hrunning h
  | poll | ioPending | ioReady _ | cancel _ =>
    simp only [exec] at h
    repeat' split at h
    all_goals cases h
    all_goals exact herror

/-- A step out of `select`, or within it. -/
theorem exec_running {s s' : DirectionTask σ ε β} {l : TaskLabel ι ε} (hrunning : running s = true)
    (h : d.exec s l = some s') :
    s'.picked = s.picked ∨
    ∃ e, s'.picked = some e ∧ s'.pc = .closing e ∧ s'.cancel.container = some e := by
  cases l with
  | pollCancel =>
    simp only [exec] at h
    split at h
    · split at h
      · next e he =>
        obtain ⟨channel, hleave, rfl⟩ := pick_cases h
        refine .inr ⟨e, rfl, rfl, ?_⟩
        show s.cancel.container = some e
        cases hcontainer : s.cancel.container <;> simp_all [Oneshot.tryRecv]
      · obtain ⟨channel, hleave, rfl⟩ := pick_cases h
        exact .inl rfl
      · cases h
        exact .inl rfl
    · cases h
  | close | act | drop | dropQueue =>
    simp only [exec] at h
    cases hpc : s.pc <;> simp [running, hpc] at hrunning h
  | _ =>
    simp only [exec, step, pick] at h
    repeat' split at h
    all_goals first | cases h; done | skip
    all_goals first | (obtain ⟨channel, -, rfl⟩ := Option.map_eq_some_iff.mp h) | cases h
    all_goals exact .inl rfl

theorem exec_not_running {s s' : DirectionTask σ ε β} {l : TaskLabel ι ε}
    (hrunning : running s = false) (h : d.exec s l = some s') :
    running s' = false ∧ s'.picked = s.picked := by
  cases l with
  | app i =>
    simp only [exec] at h
    split at h
    · obtain ⟨channel, -, rfl⟩ := step_cases h
      exact ⟨hrunning, rfl⟩
    · cases h
  | cancel e =>
    simp only [exec] at h
    split at h <;> cases h
    exact ⟨hrunning, rfl⟩
  | poll | io _ | ioPending | ioReady _ | pollCancel | pollAppError =>
    simp only [exec] at h
    cases hpc : s.pc <;> simp [running, hpc] at hrunning h
  | close | act | drop | dropQueue =>
    simp only [exec, step] at h
    repeat' split at h
    all_goals first | cases h; done | skip
    all_goals try simp only [Option.map_map] at h
    all_goals first | (obtain ⟨channel, -, rfl⟩ := Option.map_eq_some_iff.mp h) | cases h
    all_goals exact ⟨rfl, rfl⟩

/-- What holds in `select`: the oneshot has its receivers, no branch has been picked, the task's
half can be used until an error is recorded, and the I/O loop is in the middle of a call only while
it is polled. -/
structure Selecting (d : Direction σ ι ε β) (s : DirectionTask σ ε β) : Prop where
  receivers : 0 < s.cancel.receiverCount
  picked : s.picked = none
  alive : d.channel.error s.channel = none → d.alive s.channel = true
  waiting : s.pc ≠ .io → (d.leaveIo s.channel).isSome = true

theorem Lawful.selecting_exec (hd : d.Lawful) {s s' : DirectionTask σ ε β} {l : TaskLabel ι ε}
    (hrunning : running s = true) (hs : d.Selecting s) (h : d.exec s l = some s')
    (hrunning' : running s' = true) : d.Selecting s' := by
  obtain ⟨hreceivers, hpicked, halive, hwaiting⟩ := hs
  have hchannel {l : ι} {channel : σ} (hl : d.io s.channel l = true ∨ d.app l = true)
      (hexec : d.channel.exec s.channel l = some channel) (hnone : d.channel.error channel = none) :
      d.alive channel = true := by
    refine hd.alive_exec _ _ _ hl hexec hnone (halive ?_)
    rw [hd.channel.error_exec _ _ _ hexec] at hnone
    exact (Option.or_eq_none_iff.mp hnone).1
  have hpick {t : DirectionTask σ ε β} {e : ε} (h : d.pick t e = some s') : d.Selecting s' := by
    obtain ⟨channel, hleave, rfl⟩ := pick_cases h
    cases hrunning'
  cases l with
  | io i =>
    simp only [exec] at h
    split at h
    · split at h
      · next hio =>
        obtain ⟨channel, hexec, rfl⟩ := step_cases h
        exact ⟨hreceivers, hpicked, hchannel (.inl hio) hexec, fun hpc => absurd rfl hpc⟩
      · cases h
    · cases h
  | app i =>
    simp only [exec] at h
    split at h
    · next happ =>
      obtain ⟨channel, hexec, rfl⟩ := step_cases h
      refine ⟨hreceivers, hpicked, hchannel (.inr happ) hexec, fun hpc => ?_⟩
      exact hd.leaveIo_app _ _ _ happ hexec (hwaiting hpc)
    · cases h
  | ioPending =>
    simp only [exec] at h
    split at h
    · split at h
      · next hleave =>
        cases h
        exact ⟨hreceivers, hpicked, halive, fun _ => hleave⟩
      · cases h
    · cases h
  | ioReady e =>
    simp only [exec] at h
    split at h
    · split at h <;> cases h
      cases hrunning'
    · cases h
  | poll =>
    simp only [exec] at h
    split at h <;> cases h
    exact ⟨hreceivers, hpicked, halive, fun hpc => absurd rfl hpc⟩
  | pollCancel =>
    simp only [exec] at h
    split at h
    · next hpc =>
      split at h
      · exact hpick h
      · exact hpick h
      · cases h
        exact ⟨hreceivers, hpicked, halive, fun _ => hwaiting (by rw [hpc]; nofun)⟩
    · cases h
  | pollAppError =>
    simp only [exec] at h
    split at h
    · next hpc =>
      have hsuspended : d.Selecting { s with pc := .suspended } :=
        ⟨hreceivers, hpicked, halive, fun _ => hwaiting (by rw [hpc]; nofun)⟩
      split at h
      · split at h
        · exact hpick h
        · cases h
          exact hsuspended
      · cases h
        exact hsuspended
    · cases h
  | cancel e =>
    simp only [exec] at h
    split at h
    · cases h
      refine ⟨?_, hpicked, halive, hwaiting⟩
      show 0 < (s.cancel.send e).1.receiverCount
      rw [Oneshot.receiverCount_send]
      exact hreceivers
    · cases h
  | close | act | drop | dropQueue =>
    simp only [exec] at h
    cases hpc : s.pc <;> simp [running, hpc] at hrunning h

theorem Lawful.selecting (hd : d.Lawful) {s : DirectionTask σ ε β}
    (h : Reachable d.Init anyStep d.exec s) : running s = true → d.Selecting s := by
  induction h with
  | init h =>
    obtain ⟨channel, hinit, rfl⟩ := h
    obtain ⟨hleave, halive⟩ := hd.init channel hinit
    exact fun _ => ⟨Nat.two_pos, rfl, fun _ => halive, fun _ => hleave⟩
  | @step s s' l _ _ hexec ih =>
    intro hrunning'
    cases hrunning : running s with
    | true => exact hd.selecting_exec hrunning (ih hrunning) hexec hrunning'
    | false =>
      rw [(exec_not_running hrunning hexec).1] at hrunning'
      cases hrunning'

/-- **No run through the cancellation branch reports its reason.** -/
theorem Lawful.silent_of_picked (hd : d.Lawful) {s₀ s : DirectionTask σ ε β}
    (hs₀ : Reachable d.Init anyStep d.exec s₀) (hopen : d.Open s₀)
    (h : Reachable (· = s₀) anyStep d.exec s) : 
    (running s = true → s.picked = none ∧
      ∀ e, d.channel.error s.channel = some e → d.allowed e = false) ∧
    (s.picked.isSome = true → d.Silent s) := by
  induction h with
  | init h =>
    subst h
    have hpicked := (hd.selecting hs₀ hopen.running).picked
    refine ⟨fun _ => ⟨hpicked, fun e he => ?_⟩, fun h => ?_⟩
    · simp [hopen.error] at he
    · simp [hpicked] at h
  | @step s s' l _ _ hexec ih =>
    obtain ⟨hquiet, hsilent⟩ := ih
    by_cases hpicked : s.picked.isSome = true
    · have hsilent' := hd.silent_exec (hsilent hpicked) hexec
      refine ⟨fun hrunning => ?_, fun _ => hsilent'⟩
      rcases hsilent'.pc with ⟨e, hpc⟩ | hpc | hpc | hpc <;> simp [running, hpc] at hrunning
    · have hnone : s.picked = none := by simpa using hpicked
      cases hrunning : running s with
      | true =>
        have herror' := hd.error_exec_running hrunning (hquiet hrunning).2 hexec
        rcases exec_running hrunning hexec with hsame | ⟨e, hpick, hpc, hcancel⟩
        · rw [hsame, hnone]
          exact ⟨fun _ => ⟨rfl, herror'⟩, nofun⟩
        · refine ⟨fun hrunning' => ?_, fun _ => ⟨herror', ?_, .inl ⟨e, hpc⟩⟩⟩
          · simp [running, hpc] at hrunning'
          · rw [hcancel]
            rfl
      | false =>
        obtain ⟨hrunning', hsame⟩ := exec_not_running hrunning hexec
        rw [hsame, hnone, hrunning']
        exact ⟨nofun, nofun⟩

/-! ## The branch can be picked -/

theorem reachable_io {s : DirectionTask σ ε β} (hpc : s.pc = .io) {channel : σ}
    (h : Reachable (· = s.channel) (fun s l => d.io s l = true) d.channel.exec channel) :
    Reachable (· = s) anyStep d.exec { s with channel } := by
  induction h with
  | init heq =>
    subst heq
    exact .init rfl
  | @step c c' l _ hio hexec ih =>
    refine ih.step (i := .io l) trivial ?_
    simp only [exec, hpc, hio, if_true, step, hexec, Option.map_some]

/-- While the application is silent, the next poll gets to the cancel oneshot. -/
theorem Lawful.exists_pollingCancel (hd : d.Lawful) {s : DirectionTask σ ε β}
    (hrunning : running s = true)
    (herror : d.channel.error s.channel = none) (halive : d.alive s.channel = true)
    (hwaiting : s.pc ≠ .io → (d.leaveIo s.channel).isSome = true) :
    ∃ channel, Reachable (· = s) anyStep d.exec { s with channel, pc := .pollingCancel } ∧
      (d.leaveIo channel).isSome = true := by
  have hio (hs : Reachable (· = s) anyStep d.exec { s with pc := .io }) :
      ∃ channel, Reachable (· = s) anyStep d.exec { s with channel, pc := .pollingCancel } ∧
        (d.leaveIo channel).isSome = true := by
    obtain ⟨channel, hwaits, hleave⟩ := hd.waits s.channel halive herror
    refine ⟨channel, (hs.trans (reachable_io rfl hwaits)).step (i := .ioPending) trivial ?_, hleave⟩
    simp only [exec, hleave, if_true]
  have hpoll (hs : Reachable (· = s) anyStep d.exec { s with pc := .suspended }) :
      Reachable (· = s) anyStep d.exec { s with pc := .io } :=
    hs.step (i := .poll) trivial rfl
  obtain ⟨channel, cancel, pc, picked, calls⟩ := s
  cases pc with
  | suspended => exact hio (hpoll (.init rfl))
  | io => exact hio (.init rfl)
  | pollingCancel => exact ⟨channel, .init rfl, hwaiting nofun⟩
  | pollingAppError =>
    have hpending : d.exec ⟨channel, cancel, .pollingAppError, picked, calls⟩ .pollAppError =
        some ⟨channel, cancel, .suspended, picked, calls⟩ := by
      simp only [exec, herror]
    exact hio (hpoll (.step (.init rfl) trivial hpending))
  | closing | acting | dropping | droppingQueue | finished => cases hrunning

/-- A task that picked the cancellation branch finishes. -/
theorem Lawful.exists_finished (hd : d.Lawful) {s : DirectionTask σ ε β} {e : ε}
    (hpc : s.pc = .closing e) (hcancel : s.cancel.container.isSome = true)
    (hidle : d.idle s.channel = true) :
    ∃ s', Reachable (· = s) anyStep d.exec s' ∧ s'.picked = s.picked ∧ s'.pc = .finished := by
  obtain ⟨failure, hsend⟩ := Oneshot.send_of_isSome hcancel e
  obtain ⟨channel₁, channel₂, hdrop, hqueue⟩ := hd.drop s.channel hidle
  have hclose : d.exec s .close = some { s with pc := .dropping } := by
    simp only [exec, hpc, hsend]
  have hdropped : d.exec { s with pc := .dropping } .drop =
      some { s with channel := channel₁, pc := .droppingQueue } := by
    simp only [exec, step, hdrop, Option.map_some]
  have hfinish : ∃ s', d.exec { s with channel := channel₁, pc := .droppingQueue } .dropQueue =
      some s' ∧ s'.picked = s.picked ∧ s'.pc = .finished := by
    simp only [exec, step, hqueue, Option.map_some]
    exact ⟨_, rfl, rfl, rfl⟩
  obtain ⟨s', hfinish, hpicked, hpc'⟩ := hfinish
  have hstart : Reachable (· = s) anyStep d.exec s := .init rfl
  exact ⟨s', ((hstart.step trivial hclose).step trivial hdropped).step trivial hfinish, hpicked,
    hpc'⟩

/-- Every error that is allowed can be the reason of a finished task. -/
theorem Lawful.exists_picked (hd : d.Lawful) {s : DirectionTask σ ε β} {e : ε}
    (hs : Reachable d.Init anyStep d.exec s) (hopen : d.Open s) (he : d.allowed e = true) :
    ∃ s', Reachable (· = s) anyStep d.exec s' ∧ s'.picked = some e ∧ s'.pc = .finished := by
  have hselecting := hd.selecting hs hopen.running
  have hcancel : d.exec s (.cancel e) =
      some { s with cancel := { s.cancel with container := some e } } := by
    simp only [exec, he, if_true, Oneshot.send_of_none hopen.cancel hselecting.receivers e]
  obtain ⟨channel, hpolling, hleave⟩ := hd.exists_pollingCancel
    (s := { s with cancel := { s.cancel with container := some e } })
    hopen.running hopen.error (hselecting.alive hopen.error) hselecting.waiting
  obtain ⟨channel', hleave⟩ := Option.isSome_iff_exists.mp hleave
  have hpick :
      d.exec { s with
        channel, cancel := { s.cancel with container := some e },
        pc := .pollingCancel } .pollCancel =
      some { s with
        channel := channel', cancel := { s.cancel with container := some e },
        pc := .closing e, picked := some e } := by
    simp only [exec, Oneshot.tryRecv, pick, hleave, Option.map_some]
  obtain ⟨s', hrest, hpicked, hpc⟩ := hd.exists_finished
    (s := { s with
      channel := channel', cancel := { s.cancel with container := some e },
      pc := .closing e, picked := some e })
    rfl rfl (hd.idle_leaveIo _ _ hleave)
  have hstart : Reachable (· = s) anyStep d.exec s := .init rfl
  exact ⟨s', (((hstart.step trivial hcancel).trans hpolling).step trivial hpick).trans hrest,
    hpicked, hpc⟩

theorem Lawful.never_reports (hd : d.Lawful) : d.NeverReports := by
  intro s e hs hopen he
  have hne s' (hs' : Reachable (· = s) anyStep d.exec s') (hpicked : s'.picked = some e) :
      d.channel.error s'.channel ≠ some e := by
    intro herror
    have hsilent := (hd.silent_of_picked hs hopen hs').2 (by rw [hpicked]; rfl)
    simp [hsilent.error e herror] at he
  refine ⟨fun hreports => ?_, hne⟩
  obtain ⟨s', hs', hpicked, hpc⟩ := hd.exists_picked hs hopen he
  exact hne s' hs' hpicked (hreports s' hs' hpicked hpc)

end Direction

end Aquic

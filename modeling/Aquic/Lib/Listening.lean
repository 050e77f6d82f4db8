import Aquic.Lib.Collections
import Aquic.Lib.Run

/-!
# Listening for a notification

A state is shared by receivers and by others. Now and then one of the others notifies everybody who
listens. A call of a receiver is an attempt, in as many phases as it takes, to get something out of
the state. If there is nothing, the call creates a listener, makes a second attempt and parks until
the listener is notified; then it starts again. Any number of receivers, and any number of calls of
one receiver, interleave with each other and with the others, phase by phase.

Whether a call sleeps through what it waits for depends on what the second attempt has found out, and
on whether that lasts. A `Condition` says both, for one step of one party; `no_lost_wake_up` is the
induction over the interleavings. `Keeps` and `Counts` are the same for what the receivers have got,
and for how many there are.
-/

namespace Aquic.Listening

open Collections
open Run

/-- What a phase of an attempt comes to. -/
inductive Try (μ τ ρ : Type) where
  | next (phase : τ)
  | got (seen : μ) (result : ρ)
  | nothing
  deriving DecidableEq, Repr

/-- `σ` is the shared state and `ι` are the steps of the others, each with whether it notifies
everybody who listens. A receiver remembers a `μ` between its calls; an attempt goes through phases
`τ` and may get a `ρ`. -/
structure Protocol (σ ι μ τ ρ : Type) where
  other : σ → ι → Option (σ × Bool)
  clone : σ → σ
  drop : σ → σ
  start : τ
  attempt : σ → μ → τ → Try μ τ ρ

structure Receiver (μ ρ : Type) where
  seen : μ
  /-- History: what its calls have got, the oldest first. -/
  results : List ρ
  deriving DecidableEq, Repr

/-- How far a call is. -/
inductive Pc (τ : Type) where
  /-- The only attempt of a call that does not wait. -/
  | trying (phase : τ)
  | polling (phase : τ)
  | listening
  /-- The second attempt, and whether the listener has been notified since. -/
  | retrying (phase : τ) (notified : Bool)
  | parked (notified : Bool)
  deriving DecidableEq, Repr

def Pc.notify {τ : Type} : Pc τ → Pc τ
  | .retrying phase _ => .retrying phase true
  | .parked _ => .parked true
  | pc => pc

structure Call (τ : Type) where
  receiver : Nat
  pc : Pc τ
  deriving DecidableEq, Repr

structure State (σ μ τ ρ : Type) where
  shared : σ
  receivers : Slots (Receiver μ ρ)
  calls : Slots (Call τ)
  deriving DecidableEq, Repr

inductive Op (ι : Type) where
  | other (i : ι)
  | recv (receiver : Nat)
  | tryRecv (receiver : Nat)
  /-- The call with this key goes on. -/
  | call (key : Nat)
  /-- The future of the call with this key is dropped. -/
  | cancel (key : Nat)
  | clone (receiver : Nat)
  | drop (receiver : Nat)
  deriving DecidableEq, Repr

variable {σ ι μ τ ρ : Type}

namespace State

/-- One receiver, no calls. -/
def new (shared : σ) (seen : μ) : State σ μ τ ρ where
  shared := shared
  receivers := ⟨[some ⟨seen, []⟩]⟩
  calls := .empty

def notifyAll (s : State σ μ τ ρ) : State σ μ τ ρ :=
  { s with calls := s.calls.map fun c => { c with pc := c.pc.notify } }

def begin (s : State σ μ τ ρ) (receiver : Nat) (pc : Pc τ) : Option (State σ μ τ ρ) := do
  let _ ← s.receivers.get receiver
  some { s with calls := (s.calls.push ⟨receiver, pc⟩).1 }

def goto (s : State σ μ τ ρ) (key : Nat) (c : Call τ) (pc : Pc τ) : State σ μ τ ρ :=
  { s with calls := s.calls.set key { c with pc } }

def leave (s : State σ μ τ ρ) (key : Nat) : State σ μ τ ρ :=
  { s with calls := s.calls.remove key }

/-- The call of receiver `r` has got a result. -/
def finish (s : State σ μ τ ρ) (key : Nat) (c : Call τ) (r : Receiver μ ρ) (seen : μ) (result : ρ) :
    State σ μ τ ρ :=
  { s with
    receivers := s.receivers.set c.receiver ⟨seen, r.results ++ [result]⟩
    calls := s.calls.remove key }

/-- A phase of an attempt; without a place to go on at, the call ends when it finds nothing. -/
def attempt (P : Protocol σ ι μ τ ρ) (s : State σ μ τ ρ) (key : Nat) (c : Call τ)
    (r : Receiver μ ρ) (phase : τ) (next : τ → Pc τ) (nothing : Option (Pc τ)) : State σ μ τ ρ :=
  match P.attempt s.shared r.seen phase, nothing with
  | .next phase, _ => s.goto key c (next phase)
  | .got seen result, _ => s.finish key c r seen result
  | .nothing, some pc => s.goto key c pc
  | .nothing, none => s.leave key

def step (P : Protocol σ ι μ τ ρ) (s : State σ μ τ ρ) (key : Nat) (c : Call τ)
    (r : Receiver μ ρ) : Option (State σ μ τ ρ) :=
  match c.pc with
  | .trying phase => some (s.attempt P key c r phase .trying none)
  | .polling phase => some (s.attempt P key c r phase .polling (some .listening))
  | .listening => some (s.goto key c (.retrying P.start false))
  | .retrying phase notified =>
    some (s.attempt P key c r phase (.retrying · notified) (some (.parked notified)))
  | .parked true => some (s.goto key c (.polling P.start))
  | .parked false => none

def exec (P : Protocol σ ι μ τ ρ) (s : State σ μ τ ρ) : Op ι → Option (State σ μ τ ρ)
  | .other i => do
    let (shared, notifies) ← P.other s.shared i
    let s := { s with shared }
    some (if notifies then s.notifyAll else s)
  | .recv receiver => s.begin receiver (.polling P.start)
  | .tryRecv receiver => s.begin receiver (.trying P.start)
  | .call key => do
    let c ← s.calls.get key
    let r ← s.receivers.get c.receiver
    s.step P key c r
  -- a future is left where it waits, and nowhere else
  | .cancel key => do
    let c ← s.calls.get key
    match c.pc with
    | .parked _ => some (s.leave key)
    | _ => none
  | .clone receiver => do
    let r ← s.receivers.get receiver
    some { s with
      shared := P.clone s.shared
      receivers := (s.receivers.push ⟨r.seen, []⟩).1 }
  -- a call borrows its receiver
  | .drop receiver => do
    let _ ← s.receivers.get receiver
    if s.calls.countP (·.receiver = receiver) = 0 then
      some { s with shared := P.drop s.shared, receivers := s.receivers.remove receiver }
    else
      none

end State

/-- What all runs reach. -/
def Reachable (P : Protocol σ ι μ τ ρ) (shared : σ) (seen : μ) : State σ μ τ ρ → Prop :=
  Run.Reachable (· = State.new shared seen) anyStep (State.exec P)

/-! ## What a step does -/

/-- A call comes from one place to another without having got anything. -/
inductive Moves (P : Protocol σ ι μ τ ρ) (shared : σ) (seen : μ) : Pc τ → Pc τ → Prop
  | next {phase phase' : τ} {notified : Bool} : P.attempt shared seen phase = .next phase' →
      Moves P shared seen (.retrying phase notified) (.retrying phase' notified)
  | nothing {phase : τ} {notified : Bool} : P.attempt shared seen phase = .nothing →
      Moves P shared seen (.retrying phase notified) (.parked notified)
  | listen : Moves P shared seen .listening (.retrying P.start false)
  /-- Where it goes on without a listener. -/
  | plain {pc pc' : Pc τ} : (∀ phase notified, pc' ≠ .retrying phase notified) →
      (∀ notified, pc' ≠ .parked notified) → Moves P shared seen pc pc'

/-- What a step does. -/
inductive Step (P : Protocol σ ι μ τ ρ) (s : State σ μ τ ρ) : State σ μ τ ρ → Prop
  | other {i : ι} {shared : σ} : P.other s.shared i = some (shared, false) →
      Step P s { s with shared }
  | notify {i : ι} {shared : σ} : P.other s.shared i = some (shared, true) →
      Step P s { s with shared }.notifyAll
  | begin {receiver : Nat} {r : Receiver μ ρ} {pc : Pc τ} :
      s.receivers.get receiver = some r → pc = .polling P.start ∨ pc = .trying P.start →
      Step P s { s with calls := (s.calls.push ⟨receiver, pc⟩).1 }
  | goto {key : Nat} {c : Call τ} {r : Receiver μ ρ} {pc : Pc τ} : s.calls.get key = some c →
      s.receivers.get c.receiver = some r → Moves P s.shared r.seen c.pc pc →
      Step P s (s.goto key c pc)
  | finish {key : Nat} {c : Call τ} {r : Receiver μ ρ} {phase : τ} {seen : μ} {result : ρ} :
      s.calls.get key = some c → s.receivers.get c.receiver = some r →
      P.attempt s.shared r.seen phase = .got seen result →
      Step P s (s.finish key c r seen result)
  | leave {key : Nat} : Step P s (s.leave key)
  | clone {receiver : Nat} {r : Receiver μ ρ} : s.receivers.get receiver = some r →
      Step P s { s with
        shared := P.clone s.shared
        receivers := (s.receivers.push ⟨r.seen, []⟩).1 }
  | drop {receiver : Nat} {r : Receiver μ ρ} : s.receivers.get receiver = some r →
      (∀ key c, s.calls.get key = some c → c.receiver ≠ receiver) →
      Step P s { s with
        shared := P.drop s.shared
        receivers := s.receivers.remove receiver }

variable {P : Protocol σ ι μ τ ρ} {s s' : State σ μ τ ρ}

theorem Step.attempt {key : Nat} {c : Call τ} {r : Receiver μ ρ} {phase : τ} {next : τ → Pc τ}
    {nothing : Option (Pc τ)} (hget : s.calls.get key = some c)
    (hr : s.receivers.get c.receiver = some r)
    (hnext : ∀ phase', P.attempt s.shared r.seen phase = .next phase' →
      Moves P s.shared r.seen c.pc (next phase'))
    (hnothing : P.attempt s.shared r.seen phase = .nothing →
      ∀ pc, nothing = some pc → Moves P s.shared r.seen c.pc pc) :
    Step P s (s.attempt P key c r phase next nothing) := by
  unfold State.attempt
  cases hattempt : P.attempt s.shared r.seen phase with
  | next phase' =>
    apply Step.goto hget hr
    exact hnext phase' hattempt
  | got seen result => exact .finish hget hr hattempt
  | nothing =>
    cases nothing with
    | some pc =>
      apply Step.goto hget hr
      exact hnothing hattempt pc rfl
    | none => exact .leave

theorem Step.call {key : Nat} {c : Call τ} {r : Receiver μ ρ} (hget : s.calls.get key = some c)
    (hr : s.receivers.get c.receiver = some r) (hstep : s.step P key c r = some s') :
    Step P s s' := by
  unfold State.step at hstep
  cases hpc : c.pc with
  | trying phase =>
    simp only [hpc, Option.some.injEq] at hstep
    subst hstep
    apply Step.attempt hget hr
    · intro phase' _
      exact .plain (by simp) (by simp)
    · intro _ pc hnone
      cases hnone
  | polling phase =>
    simp only [hpc, Option.some.injEq] at hstep
    subst hstep
    apply Step.attempt hget hr
    · intro phase' _
      exact .plain (by simp) (by simp)
    · intro _ pc hsome
      cases hsome
      exact .plain (by simp) (by simp)
  | listening =>
    simp only [hpc, Option.some.injEq] at hstep
    subst hstep
    apply Step.goto hget hr
    rw [hpc]
    exact .listen
  | retrying phase notified =>
    simp only [hpc, Option.some.injEq] at hstep
    subst hstep
    apply Step.attempt hget hr
    · intro phase' hattempt
      rw [hpc]
      exact .next hattempt
    · intro hattempt pc hsome
      cases hsome
      rw [hpc]
      exact .nothing hattempt
  | parked notified =>
    cases notified with
    | false => simp [hpc] at hstep
    | true =>
      simp only [hpc, Option.some.injEq] at hstep
      subst hstep
      apply Step.goto hget hr
      exact .plain (by simp) (by simp)

theorem step_of_exec {op : Op ι} (hexec : s.exec P op = some s') : Step P s s' := by
  cases op with
  | other i =>
    simp only [State.exec, Option.bind_eq_bind, Option.bind_eq_some_iff] at hexec
    obtain ⟨⟨shared, notifies⟩, hother, hrest⟩ := hexec
    cases notifies with
    | false => exact Option.some.inj hrest ▸ .other hother
    | true => exact Option.some.inj hrest ▸ .notify hother
  | recv receiver | tryRecv receiver =>
    simp only [State.exec, State.begin, Option.bind_eq_bind, Option.bind_eq_some_iff] at hexec
    obtain ⟨r, hr, hrest⟩ := hexec
    exact Option.some.inj hrest ▸ .begin hr (by simp)
  | call key =>
    simp only [State.exec, Option.bind_eq_bind, Option.bind_eq_some_iff] at hexec
    obtain ⟨c, hget, r, hr, hstep⟩ := hexec
    exact .call hget hr hstep
  | cancel key =>
    simp only [State.exec, Option.bind_eq_bind, Option.bind_eq_some_iff] at hexec
    obtain ⟨c, hget, hrest⟩ := hexec
    split at hrest
    · exact Option.some.inj hrest ▸ .leave
    · cases hrest
  | clone receiver =>
    simp only [State.exec, Option.bind_eq_bind, Option.bind_eq_some_iff] at hexec
    obtain ⟨r, hr, hrest⟩ := hexec
    exact Option.some.inj hrest ▸ .clone hr
  | drop receiver =>
    simp only [State.exec, Option.bind_eq_bind, Option.bind_eq_some_iff] at hexec
    obtain ⟨r, hr, hrest⟩ := hexec
    split at hrest
    · next hnone =>
      refine Option.some.inj hrest ▸ .drop hr fun key c hget heq => ?_
      have hpos := Slots.countP_pos (p := fun c => decide (c.receiver = receiver)) hget (by simp [heq])
      omega
    · cases hrest

/-- The rule for all runs: what holds at first and survives each kind of step. -/
theorem Reachable.rule {shared : σ} {seen : μ} {Inv : State σ μ τ ρ → Prop}
    (h : Reachable P shared seen s) (hinit : Inv (.new shared seen))
    (hstep : ∀ s s', Inv s → Step P s s' → Inv s') : Inv s := by
  apply Run.Reachable.invariant _ _ h
  · rintro s rfl
    exact hinit
  · intro s op s' hinv _ hexec
    exact hstep s s' hinv (step_of_exec hexec)

/-! ## No lost wake-up -/

/-- What a listening call has found out, and that it lasts until somebody notifies. -/
structure Condition (P : Protocol σ ι μ τ ρ) where
  /-- Somebody is about to notify. -/
  due : σ → Prop
  /-- What the second attempt has found out when it comes to a phase. -/
  finds : σ → μ → τ → Prop
  /-- There is nothing to get. -/
  waits : σ → μ → Prop

namespace Condition

/-- Nothing is due after the step that was not before, and what was found out is still so. -/
structure Quiet (C : Condition P) (shared shared' : σ) : Prop where
  due : ¬C.due shared
  finds : ∀ seen phase, C.finds shared seen phase → C.finds shared' seen phase
  waits : ∀ seen, C.waits shared seen → C.waits shared' seen

structure Lawful (C : Condition P) : Prop where
  start : ∀ shared seen, C.finds shared seen P.start
  next : ∀ shared seen phase phase', P.attempt shared seen phase = .next phase' →
    C.finds shared seen phase → C.finds shared seen phase'
  nothing : ∀ shared seen phase, P.attempt shared seen phase = .nothing →
    C.finds shared seen phase → C.waits shared seen
  /-- Another call of the same receiver gets something. -/
  got : ∀ shared seen phase seen' result, P.attempt shared seen phase = .got seen' result →
    (∀ phase', C.finds shared seen phase' → C.finds shared seen' phase') ∧
      (C.waits shared seen → C.waits shared seen')
  other : ∀ shared i shared', P.other shared i = some (shared', false) → ¬C.due shared' →
    C.Quiet shared shared'
  clone : ∀ shared, ¬C.due (P.clone shared) → C.Quiet shared (P.clone shared)
  drop : ∀ shared, ¬C.due (P.drop shared) → C.Quiet shared (P.drop shared)

/-- What a call that nobody has notified relies on. -/
def Relies (C : Condition P) (shared : σ) (seen : μ) : Pc τ → Prop
  | .retrying phase false => C.finds shared seen phase
  | .parked false => C.waits shared seen
  | _ => True

variable {C : Condition P} {shared shared' : σ} {seen seen' : μ} {pc pc' : Pc τ}

theorem Quiet.relies (h : C.Quiet shared shared') (hrelies : C.Relies shared seen pc) :
    C.Relies shared' seen pc := by
  cases pc with
  | trying | polling | listening => trivial
  | retrying phase notified =>
    cases notified with
    | true => trivial
    | false => exact h.finds _ _ hrelies
  | parked notified =>
    cases notified with
    | true => trivial
    | false => exact h.waits _ hrelies

theorem relies_notify : C.Relies shared seen pc.notify := by
  cases pc <;> trivial

theorem Lawful.relies_of_moves (hlaw : C.Lawful) (hmoves : Moves P shared seen pc pc')
    (h : C.Relies shared seen pc) : C.Relies shared seen pc' := by
  cases hmoves with
  | @next _ _ notified hattempt =>
    cases notified with
    | true => trivial
    | false => exact hlaw.next _ _ _ _ hattempt h
  | @nothing _ notified hattempt =>
    cases notified with
    | true => trivial
    | false => exact hlaw.nothing _ _ _ hattempt h
  | listen => exact hlaw.start _ _
  | plain hretrying hparked =>
    cases pc' with
    | trying | polling | listening => trivial
    | retrying phase notified => exact absurd rfl (hretrying phase notified)
    | parked notified => exact absurd rfl (hparked notified)

theorem Lawful.relies_of_got (hlaw : C.Lawful) {phase : τ} {result : ρ}
    (hattempt : P.attempt shared seen phase = .got seen' result) (h : C.Relies shared seen pc) :
    C.Relies shared seen' pc := by
  obtain ⟨hfinds, hwaits⟩ := hlaw.got _ _ _ _ _ hattempt
  cases pc with
  | trying | polling | listening => trivial
  | retrying phase notified =>
    cases notified with
    | true => trivial
    | false => exact hfinds phase h
  | parked notified =>
    cases notified with
    | true => trivial
    | false => exact hwaits h

/-- As long as nobody is about to notify, every call can rely on what it has found out. -/
def Awake (C : Condition P) (s : State σ μ τ ρ) : Prop :=
  ¬C.due s.shared → ∀ key c r, s.calls.get key = some c → s.receivers.get c.receiver = some r →
    C.Relies s.shared r.seen c.pc

theorem awake_new : C.Awake (.new shared seen) := by
  intro _ key c r hget
  simp [State.new, Slots.empty, Slots.get] at hget

theorem Awake.quiet (h : C.Awake s) (hquiet : C.Quiet s.shared shared') {c : Call τ}
    {r : Receiver μ ρ} {key : Nat} (hget : s.calls.get key = some c)
    (hr : s.receivers.get c.receiver = some r) : C.Relies shared' r.seen c.pc := by
  apply hquiet.relies
  exact h hquiet.due key c r hget hr

theorem Awake.step (h : C.Awake s) (hlaw : C.Lawful)
    (hlinked : ∀ key c, s.calls.get key = some c → (s.receivers.get c.receiver).isSome = true)
    (hstep : Step P s s') : C.Awake s' := by
  cases hstep with
  | other hother =>
    intro hdue key c r hget hr
    exact h.quiet (hlaw.other _ _ _ hother hdue) hget hr
  | notify hother =>
    intro _ key c r hget _
    simp only [State.notifyAll, Slots.get_map, Option.map_eq_some_iff] at hget
    obtain ⟨c₀, _, rfl⟩ := hget
    exact relies_notify
  | begin hreceiver hpc =>
    intro hdue key c r hget hr
    rw [Slots.get_push] at hget
    split at hget
    · cases hget
      rcases hpc with rfl | rfl <;> trivial
    · exact h hdue key c r hget hr
  | @goto key c r pc hget hr hmoves =>
    intro hdue key' c' r' hget' hr'
    simp only [State.goto] at hget'
    rw [Slots.get_set (by simp [hget])] at hget'
    split at hget'
    · cases hget'
      cases hr.symm.trans hr'
      apply hlaw.relies_of_moves hmoves
      exact h hdue key c r hget hr
    · exact h hdue key' c' r' hget' hr'
  | @finish key c r phase seen result hget hr hattempt =>
    intro hdue key' c' r' hget' hr'
    simp only [State.finish, Slots.get_remove] at hget' hr'
    split at hget'
    · cases hget'
    · rw [Slots.get_set (by simp [hr])] at hr'
      split at hr'
      · next heq =>
        cases hr'
        apply hlaw.relies_of_got hattempt
        exact h hdue key' c' r hget' (heq ▸ hr)
      · exact h hdue key' c' r' hget' hr'
  | leave =>
    intro hdue key c r hget hr
    simp only [State.leave, Slots.get_remove] at hget
    split at hget
    · cases hget
    · exact h hdue key c r hget hr
  | clone hreceiver =>
    intro hdue key c r hget hr
    rw [Slots.get_push] at hr
    split at hr
    · -- nobody calls the clone yet
      next heq =>
      obtain ⟨r₀, hr₀⟩ := Option.isSome_iff_exists.mp (hlinked key c hget)
      have hlt : c.receiver < s.receivers.slots.length := Slots.lt_of_get hr₀
      exact absurd heq (Nat.ne_of_lt hlt)
    · exact h.quiet (hlaw.clone _ hdue) hget hr
  | drop hreceiver hfree =>
    intro hdue key c r hget hr
    simp only [Slots.get_remove] at hr
    split at hr
    · cases hr
    · exact h.quiet (hlaw.drop _ hdue) hget hr

end Condition

/-- The receiver of every call exists. -/
def Linked (s : State σ μ τ ρ) : Prop :=
  ∀ key c, s.calls.get key = some c → (s.receivers.get c.receiver).isSome = true

theorem Linked.step (h : Linked s) (hstep : Step P s s') : Linked s' := by
  cases hstep with
  | other => exact h
  | leave =>
    intro key c hget
    simp only [State.leave, Slots.get_remove] at hget
    split at hget
    · cases hget
    · exact h key c hget
  | notify =>
    intro key c hget
    simp only [State.notifyAll, Slots.get_map, Option.map_eq_some_iff] at hget
    obtain ⟨c₀, hget, rfl⟩ := hget
    exact h key c₀ hget
  | begin hreceiver hpc =>
    intro key c hget
    rw [Slots.get_push] at hget
    split at hget
    · cases hget
      simp [hreceiver]
    · exact h key c hget
  | goto hget₀ hr hmoves =>
    intro key c hget
    simp only [State.goto] at hget
    rw [Slots.get_set (by simp [hget₀])] at hget
    split at hget
    · cases hget
      simp [State.goto, hr]
    · exact h key c hget
  | finish hget₀ hr hattempt =>
    intro key c hget
    simp only [State.finish, Slots.get_remove] at hget ⊢
    split at hget
    · cases hget
    · rw [Slots.get_set (by simp [hr])]
      split
      · rfl
      · exact h key c hget
  | clone hreceiver =>
    intro key c hget
    rw [Slots.get_push]
    split
    · rfl
    · exact h key c hget
  | drop hreceiver hfree =>
    intro key c hget
    rw [Slots.get_remove]
    split
    · next heq => exact absurd heq (hfree key c hget)
    · exact h key c hget

theorem linked_new {shared : σ} {seen : μ} : Linked (.new shared seen : State σ μ τ ρ) := by
  intro key c hget
  simp [State.new, Slots.empty, Slots.get] at hget

/-- **No lost wake-up.** A call that is parked and has not been notified has nothing to get, unless
somebody is about to notify. -/
theorem no_lost_wake_up {C : Condition P} (hlaw : C.Lawful) {shared : σ} {seen : μ}
    (h : Reachable P shared seen s) {key : Nat} {c : Call τ} (hget : s.calls.get key = some c)
    (hparked : c.pc = .parked false) (hdue : ¬C.due s.shared) :
    ∃ r, s.receivers.get c.receiver = some r ∧ C.waits s.shared r.seen := by
  have hawake : Linked s ∧ C.Awake s := by
    apply h.rule
    · exact ⟨linked_new, Condition.awake_new⟩
    · intro s s' hinv hstep
      exact ⟨hinv.1.step hstep, hinv.2.step hlaw hinv.1 hstep⟩
  obtain ⟨r, hr⟩ := Option.isSome_iff_exists.mp (hawake.1 key c hget)
  have hrelies := hawake.2 hdue key c r hget hr
  rw [hparked] at hrelies
  exact ⟨r, hr, hrelies⟩

/-! ## What the receivers have got -/

theorem length_ne_zero {key : Nat} {r : Receiver μ ρ} (h : s.receivers.get key = some r) :
    s.receivers.length ≠ 0 := by
  rw [Slots.length_eq_countP]
  exact Nat.ne_of_gt (Slots.countP_pos h rfl)

/-- `I` is true of what every receiver remembers and has got, whatever anybody does; `G` can be relied
on as long as there is a receiver. -/
structure Keeps (P : Protocol σ ι μ τ ρ) (G : σ → Prop) (I : σ → μ → List ρ → Prop) : Prop where
  other : ∀ shared i shared' notifies seen results, P.other shared i = some (shared', notifies) →
    I shared seen results → I shared' seen results
  clone : ∀ shared seen results, I shared seen results →
    I (P.clone shared) seen results ∧ I (P.clone shared) seen []
  drop : ∀ shared seen results, I shared seen results → I (P.drop shared) seen results
  got : ∀ shared seen phase seen' result results, P.attempt shared seen phase = .got seen' result →
    G shared → I shared seen results → I shared seen' (results ++ [result])

theorem Keeps.step {G : σ → Prop} {I : σ → μ → List ρ → Prop} (hkeeps : Keeps P G I)
    (hG : s.receivers.length ≠ 0 → G s.shared)
    (h : ∀ key r, s.receivers.get key = some r → I s.shared r.seen r.results)
    (hstep : Step P s s') :
    ∀ key r, s'.receivers.get key = some r → I s'.shared r.seen r.results := by
  intro key r hr
  cases hstep with
  | other hother | notify hother =>
    exact hkeeps.other _ _ _ _ _ _ hother (h key r hr)
  | begin | leave => exact h key r hr
  | goto hget hr₀ hmoves => exact h key r hr
  | finish hget hr₀ hattempt =>
    simp only [State.finish] at hr
    rw [Slots.get_set (by simp [hr₀])] at hr
    split at hr
    · cases hr
      exact hkeeps.got _ _ _ _ _ _ hattempt (hG (length_ne_zero hr₀)) (h _ _ hr₀)
    · exact h key r hr
  | clone hreceiver =>
    rw [Slots.get_push] at hr
    split at hr
    · cases hr
      exact (hkeeps.clone _ _ _ (h _ _ hreceiver)).2
    · exact (hkeeps.clone _ _ _ (h _ _ hr)).1
  | drop hreceiver hfree =>
    rw [Slots.get_remove] at hr
    split at hr
    · cases hr
    · exact hkeeps.drop _ _ _ (h _ _ hr)

theorem Reachable.keeps {G : σ → Prop} {I : σ → μ → List ρ → Prop} (hkeeps : Keeps P G I)
    {shared : σ} {seen : μ} (hnew : I shared seen [])
    (hG : ∀ s : State σ μ τ ρ, Reachable P shared seen s → s.receivers.length ≠ 0 → G s.shared)
    (h : Reachable P shared seen s) :
    ∀ key r, s.receivers.get key = some r → I s.shared r.seen r.results := by
  unfold Reachable at h
  induction h with
  | init heq =>
    subst heq
    intro key r hr
    obtain ⟨hlt, heq⟩ := Slots.getElem_of_get hr
    have hmem := heq ▸ List.getElem_mem hlt
    simp only [State.new, List.mem_singleton, Option.some.injEq] at hmem
    subst hmem
    exact hnew
  | step hreach _ hexec ih => exact hkeeps.step (hG _ hreach) ih (step_of_exec hexec)

/-- `count` is a number of receivers in the shared state. -/
structure Counts (P : Protocol σ ι μ τ ρ) (count : σ → Nat) : Prop where
  other : ∀ shared i shared' notifies, P.other shared i = some (shared', notifies) →
    count shared' = count shared
  clone : ∀ shared, count (P.clone shared) = count shared + 1
  drop : ∀ shared, 0 < count shared → count (P.drop shared) + 1 = count shared

theorem Counts.step {count : σ → Nat} (hcounts : Counts P count)
    (h : count s.shared = s.receivers.length) (hstep : Step P s s') :
    count s'.shared = s'.receivers.length := by
  cases hstep with
  | other hother | notify hother => exact (hcounts.other _ _ _ _ hother).trans h
  | begin | leave | goto => exact h
  | finish hget hr hattempt => exact h.trans (Slots.length_set hr _).symm
  | clone hreceiver =>
    show count (P.clone s.shared) = _
    rw [hcounts.clone, h, Slots.length_push]
  | drop hreceiver hfree =>
    have hlength := Slots.length_remove hreceiver
    have hdrop := hcounts.drop s.shared (by omega)
    show count (P.drop s.shared) = (s.receivers.remove _).length
    omega

theorem Reachable.counts {count : σ → Nat} (hcounts : Counts P count) {shared : σ} {seen : μ}
    (hnew : count shared = 1) (h : Reachable P shared seen s) :
    count s.shared = s.receivers.length := by
  apply h.rule
  · exact hnew
  · intro s s' hinv hstep
    exact hcounts.step hinv hstep

end Aquic.Listening

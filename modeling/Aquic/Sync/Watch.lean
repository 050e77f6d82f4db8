import Aquic.Lib.Collections
import Aquic.Lib.Run
import Aquic.Lib.Word
import Aquic.Sync.Oneshot

/-!
# The watch channel

`sync/mpmc/watch`: a cell that is overwritten by any number of senders and read by any number of
receivers. Every value has a version, and every receiver remembers the version it has seen last.
There are two implementations, `st.rs` and `mt.rs`, with the same state: the item, and the number of
senders and of receivers. `Impl` lists what they do to it.

They differ in two places. A clone of a multi-threaded sender is not counted, although its drop is; and
a multi-threaded receiver without an unseen value looks at the number of receivers, where the
single-threaded one looks at the number of senders. `Meets` says when a sequence of calls shows a
difference (`results_eq_iff`).

Subtraction wraps, as it does in a release build. The counters are incremented together with a
reference count of the same width, which aborts instead of overflowing, so their increment is the
ordinary one.
-/

namespace Aquic.Sync.Watch

open Collections
open Run
open Word

variable {α : Type}

structure Item (α : Type) where
  value : α
  version : Nat
  deriving DecidableEq, Repr

structure State (α : Type) where
  item : Option (Item α)
  senderCount : Nat
  receiverCount : Nat
  deriving DecidableEq, Repr

def initialSenderVersion : Nat := 0

def initialReceiverVersion : Nat := 2 ^ 64 - 1

namespace State

/-- `channel()`. -/
def new : State α := { item := none, senderCount := 1, receiverCount := 1 }

/-- `Sender::send`; without receivers the value comes back. -/
def send (s : State α) (value : α) : State α × Except α Unit :=
  if s.receiverCount = 0 then
    (s, .error value)
  else
    let version := match s.item with
      | some item => wrappingAdd 64 item.version 1
      | none => initialSenderVersion
    ({ s with item := some { value, version } }, .ok ())

/-- `try_recv_inner` of a receiver that has seen `lastSeen`; `closed` is what the implementation
takes for the absence of senders. -/
def tryRecvInner (s : State α) (closed : Bool) (lastSeen : Nat) (ignoreVersion : Bool) :
    Nat × Except TryRecvError α :=
  match s.item with
  | some item =>
    if ignoreVersion || lastSeen != item.version then
      (item.version, .ok item.value)
    else
      (lastSeen, .error (if closed then .closed else .empty))
  | none => (lastSeen, .error (if closed then .closed else .empty))

/-- There is a value for a receiver that has seen `lastSeen`. -/
def hasValue (s : State α) (lastSeen : Nat) (ignoreVersion : Bool) : Bool :=
  s.item.any fun item => ignoreVersion || lastSeen != item.version

end State

/-- What an implementation does to the state. -/
structure Impl (α : Type) where
  send : State α → α → State α × Except α Unit
  senderIsClosed : State α → Bool
  cloneSender : State α → State α
  dropSender : State α → State α
  tryRecvInner : State α → Nat → Bool → Nat × Except TryRecvError α
  receiverIsClosed : State α → Bool
  cloneReceiver : State α → State α
  dropReceiver : State α → State α

/-- `watch/st.rs`. -/
def St.impl : Impl α where
  send := State.send
  senderIsClosed s := s.receiverCount = 0
  cloneSender s := { s with senderCount := s.senderCount + 1 }
  dropSender s := { s with senderCount := wrappingSub 64 s.senderCount 1 }
  tryRecvInner s := s.tryRecvInner (s.senderCount = 0)
  receiverIsClosed s := s.senderCount = 0
  cloneReceiver s := { s with receiverCount := s.receiverCount + 1 }
  dropReceiver s := { s with receiverCount := wrappingSub 64 s.receiverCount 1 }

/-- `watch/mt.rs`. -/
def Mt.impl : Impl α where
  send := State.send
  senderIsClosed s := s.receiverCount = 0
  -- only the reference to the shared state is cloned
  cloneSender s := s
  dropSender s := { s with senderCount := wrappingSub 64 s.senderCount 1 }
  -- the number of receivers, not of senders
  tryRecvInner s := s.tryRecvInner (s.receiverCount = 0)
  receiverIsClosed s := s.senderCount = 0
  cloneReceiver s := { s with receiverCount := s.receiverCount + 1 }
  dropReceiver s := { s with receiverCount := wrappingSub 64 s.receiverCount 1 }

/-! ## Runs -/

/-- A channel with its handles. -/
structure Channel (α : Type) where
  state : State α
  /-- The number of senders that exist. -/
  senders : Nat
  /-- The receivers that exist, each with its `last_seen_version`. -/
  receivers : Slots Nat
  /-- History: how many senders have been dropped. -/
  sendersDropped : Nat
  deriving DecidableEq, Repr

def channel : Channel α where
  state := .new
  senders := 1
  receivers := ⟨[some initialReceiverVersion]⟩
  sendersDropped := 0

/-- The calls of a sender or of the receiver with this key. -/
inductive Op (α : Type) where
  | send (value : α)
  | senderIsClosed
  | cloneSender
  | dropSender
  | tryRecv (key : Nat)
  | tryRecvAny (key : Nat)
  | receiverIsClosed (key : Nat)
  | cloneReceiver (key : Nat)
  | dropReceiver (key : Nat)
  deriving DecidableEq, Repr

/-- What a call returns. -/
inductive Result (α : Type) where
  | unit
  | sent (result : Except α Unit)
  | closed (isClosed : Bool)
  | received (result : Except TryRecvError α)
  deriving DecidableEq

namespace Channel

/-- A receiver tries to receive. -/
def tryRecv (impl : Impl α) (s : Channel α) (key : Nat) (ignoreVersion : Bool) :
    Option (Channel α × Result α) := do
  let lastSeen ← s.receivers.get key
  let (version, result) := impl.tryRecvInner s.state lastSeen ignoreVersion
  some ({ s with receivers := s.receivers.set key version }, .received result)

/-- A call of a handle that exists. -/
def exec (impl : Impl α) (s : Channel α) : Op α → Option (Channel α × Result α)
  | .send value =>
    if s.senders = 0 then none
    else
      let (state, result) := impl.send s.state value
      some ({ s with state }, .sent result)
  | .senderIsClosed =>
    if s.senders = 0 then none else some (s, .closed (impl.senderIsClosed s.state))
  | .cloneSender =>
    if s.senders = 0 then none
    else some ({ s with state := impl.cloneSender s.state, senders := s.senders + 1 }, .unit)
  | .dropSender =>
    if s.senders = 0 then none
    else some ({ s with
      state := impl.dropSender s.state
      senders := s.senders - 1
      sendersDropped := s.sendersDropped + 1 }, .unit)
  | .tryRecv key => s.tryRecv impl key false
  | .tryRecvAny key => s.tryRecv impl key true
  | .receiverIsClosed key => do
    let _ ← s.receivers.get key
    some (s, .closed (impl.receiverIsClosed s.state))
  | .cloneReceiver key => do
    let lastSeen ← s.receivers.get key
    some ({ s with
      state := impl.cloneReceiver s.state, receivers := (s.receivers.push lastSeen).1 }, .unit)
  | .dropReceiver key => do
    let _ ← s.receivers.get key
    some ({ s with
      state := impl.dropReceiver s.state, receivers := s.receivers.remove key }, .unit)

/-- What the calls return, up to the first one of a handle that does not exist. -/
def results (impl : Impl α) : Channel α → List (Op α) → List (Result α)
  | _, [] => []
  | s, op :: ops =>
    match s.exec impl op with
    | none => []
    | some (s', result) => result :: results impl s' ops

/-- The implementations answer this call alike: a receiver asks for closure only when one dropped
sender is all there was, or neither one was dropped nor all are gone; and it tries to receive only
when there is something to receive, or somebody to send it. -/
def Alike (s : Channel α) : Op α → Prop
  | .receiverIsClosed _ => s.sendersDropped % 2 ^ 64 = 1 ↔ s.senders = 0
  | .tryRecv key => ∀ lastSeen ∈ s.receivers.get key,
      s.state.hasValue lastSeen false = true ∨ s.senders ≠ 0
  | .tryRecvAny key => ∀ lastSeen ∈ s.receivers.get key,
      s.state.hasValue lastSeen true = true ∨ s.senders ≠ 0
  | _ => True

/-- Every call is made in a state in which the implementations answer it alike. -/
def Meets : Channel α → List (Op α) → Prop
  | _, [] => True
  | s, op :: ops =>
    match s.exec St.impl op with
    | none => True
    | some (s', _) => s.Alike op ∧ Meets s' ops

end Channel

/-! ## The two implementations side by side -/

namespace State

variable {s t : State α} {lastSeen : Nat} {ignoreVersion : Bool}

/-- With a value to receive it does not matter what is taken for closure. -/
theorem tryRecvInner_of_hasValue (hitem : t.item = s.item)
    (h : s.hasValue lastSeen ignoreVersion = true) (closed closed' : Bool) :
    t.tryRecvInner closed lastSeen ignoreVersion =
      s.tryRecvInner closed' lastSeen ignoreVersion := by
  unfold hasValue at h
  unfold tryRecvInner
  rw [hitem]
  cases hs : s.item with
  | none => simp [hs] at h
  | some item =>
    simp only [hs, Option.any_some] at h
    simp only [h, if_true]

theorem tryRecvInner_of_not_hasValue (h : s.hasValue lastSeen ignoreVersion = false)
    (closed : Bool) : s.tryRecvInner closed lastSeen ignoreVersion =
      (lastSeen, .error (if closed then .closed else .empty)) := by
  unfold hasValue at h
  unfold tryRecvInner
  cases hs : s.item with
  | none => rfl
  | some item =>
    simp only [hs, Option.any_some] at h
    simp only [h, Bool.false_eq_true, if_false]

end State

namespace Channel

/-- The multi-threaded channel `t` after the same calls as the single-threaded channel `s`: they
differ in the number of senders only. The one counts them, the other counts how many were dropped. -/
structure Related (s t : Channel α) : Prop where
  item : t.state.item = s.state.item
  receiverCount : t.state.receiverCount = s.state.receiverCount
  senders : t.senders = s.senders
  receivers : t.receivers = s.receivers
  sendersDropped : t.sendersDropped = s.sendersDropped
  senders_counted : s.state.senderCount = s.senders
  receivers_counted : s.state.receiverCount = s.receivers.length
  drops_counted : t.state.senderCount < 2 ^ 64 ∧
    (t.state.senderCount + s.sendersDropped) % 2 ^ 64 = 1

variable {s t : Channel α}

theorem related_channel : Related (channel : Channel α) channel where
  item := rfl
  receiverCount := rfl
  senders := rfl
  receivers := rfl
  sendersDropped := rfl
  senders_counted := rfl
  receivers_counted := rfl
  drops_counted := by
    show 1 < 2 ^ 64 ∧ (1 + 0) % 2 ^ 64 = 1
    decide

/-- A receiver of the multi-threaded channel sees closure when one sender has been dropped. -/
theorem Related.senderCount_eq_zero (h : Related s t) :
    t.state.senderCount = 0 ↔ s.sendersDropped % 2 ^ 64 = 1 := by
  have := h.drops_counted
  omega

/-- As long as there is a receiver it is counted. -/
theorem Related.receiverCount_ne_zero (h : Related s t) {key lastSeen : Nat}
    (hget : s.receivers.get key = some lastSeen) : t.state.receiverCount ≠ 0 := by
  rw [h.receiverCount, h.receivers_counted, Slots.length_eq_countP]
  exact Nat.ne_of_gt (Slots.countP_pos hget rfl)

theorem Related.send (h : Related s t) (value : α) :
    Related { s with state := (s.state.send value).1 } { t with state := (t.state.send value).1 } ∧
      (t.state.send value).2 = (s.state.send value).2 := by
  unfold State.send
  rw [h.receiverCount, h.item]
  split
  · exact ⟨{ h with }, rfl⟩
  · exact ⟨{ h with item := rfl, receiverCount := rfl }, rfl⟩

/-- A sender is dropped; an underflow of the multi-threaded count wraps. -/
theorem Related.dropSender (h : Related s t) (hsenders : s.senders ≠ 0) :
    Related
      { s with
        state := St.impl.dropSender s.state
        senders := s.senders - 1
        sendersDropped := s.sendersDropped + 1 }
      { t with
        state := Mt.impl.dropSender t.state
        senders := t.senders - 1
        sendersDropped := t.sendersDropped + 1 } := by
  refine { h with
    senders := congrArg (· - 1) h.senders
    sendersDropped := congrArg (· + 1) h.sendersDropped
    senders_counted := ?_
    drops_counted := ?_ }
  · show wrappingSub 64 s.state.senderCount 1 = s.senders - 1
    rw [h.senders_counted, wrappingSub_of_le (Nat.pos_of_ne_zero hsenders)]
  · show wrappingSub 64 t.state.senderCount 1 < 2 ^ 64 ∧
      (wrappingSub 64 t.state.senderCount 1 + (s.sendersDropped + 1)) % 2 ^ 64 = 1
    have hcount := h.drops_counted
    unfold wrappingSub
    split <;> omega

theorem Related.dropReceiver (h : Related s t) {key lastSeen : Nat}
    (hget : s.receivers.get key = some lastSeen) :
    Related
      { s with state := St.impl.dropReceiver s.state, receivers := s.receivers.remove key }
      { t with state := Mt.impl.dropReceiver t.state, receivers := t.receivers.remove key } := by
  refine { h with
    receiverCount := congrArg (wrappingSub 64 · 1) h.receiverCount
    receivers := congrArg (·.remove key) h.receivers
    receivers_counted := ?_ }
  have hlength := Slots.length_remove hget
  show wrappingSub 64 s.state.receiverCount 1 = (s.receivers.remove key).length
  rw [h.receivers_counted, wrappingSub_of_le (by omega)]
  omega

/-- A receiver tries to receive: what it has seen is the same in both, what it gets is so unless
there is neither a value nor a sender. -/
theorem Related.tryRecv (h : Related s t) {key lastSeen : Nat} (ignoreVersion : Bool)
    (hget : s.receivers.get key = some lastSeen) :
    (Mt.impl.tryRecvInner t.state lastSeen ignoreVersion).1 =
        (St.impl.tryRecvInner s.state lastSeen ignoreVersion).1 ∧
      ((Mt.impl.tryRecvInner t.state lastSeen ignoreVersion).2 =
          (St.impl.tryRecvInner s.state lastSeen ignoreVersion).2 ↔
        s.state.hasValue lastSeen ignoreVersion = true ∨ s.senders ≠ 0) := by
  simp only [Mt.impl, St.impl]
  cases hvalue : s.state.hasValue lastSeen ignoreVersion with
  | true =>
    have heq := State.tryRecvInner_of_hasValue h.item hvalue (decide (t.state.receiverCount = 0))
      (decide (s.state.senderCount = 0))
    rw [heq]
    exact ⟨rfl, by simp⟩
  | false =>
    have hvalue' : t.state.hasValue lastSeen ignoreVersion = false := by
      rw [← hvalue, State.hasValue, State.hasValue, h.item]
    rw [State.tryRecvInner_of_not_hasValue hvalue, State.tryRecvInner_of_not_hasValue hvalue']
    have hreceivers := h.receiverCount_ne_zero hget
    refine ⟨rfl, ?_⟩
    by_cases hsenders : s.senders = 0 <;> simp [hreceivers, h.senders_counted, hsenders]

/-- What one call does to both: they stay related, and answer alike or not. -/
def Outcome (s : Channel α) (op : Op α) (x y : Option (Channel α × Result α)) : Prop :=
  x = none ∧ y = none ∨
    ∃ s' r t' r', x = some (s', r) ∧ y = some (t', r') ∧ Related s' t' ∧ (r' = r ↔ s.Alike op)

theorem Related.outcome_tryRecv (h : Related s t) {op : Op α} {key : Nat} {ignoreVersion : Bool}
    (halike : s.Alike op ↔ ∀ lastSeen ∈ s.receivers.get key,
      s.state.hasValue lastSeen ignoreVersion = true ∨ s.senders ≠ 0) :
    Outcome s op (s.tryRecv St.impl key ignoreVersion) (t.tryRecv Mt.impl key ignoreVersion) := by
  unfold Channel.tryRecv
  rw [h.receivers]
  cases hget : s.receivers.get key with
  | none => exact .inl ⟨rfl, rfl⟩
  | some lastSeen =>
    obtain ⟨hseen, hresult⟩ := h.tryRecv ignoreVersion hget
    refine .inr ⟨_, _, _, _, rfl, rfl, ?_, ?_⟩
    · exact { h with
        receivers := congrArg (s.receivers.set key) hseen
        receivers_counted := h.receivers_counted.trans (Slots.length_set hget _).symm }
    · simp only [Result.received.injEq, hresult, halike, hget, Option.mem_some_iff, forall_eq']

theorem Related.exec (h : Related s t) (op : Op α) :
    Outcome s op (s.exec St.impl op) (t.exec Mt.impl op) := by
  cases op with
  | send value =>
    by_cases hsenders : s.senders = 0
    · exact .inl ⟨by simp [Channel.exec, hsenders], by simp [Channel.exec, h.senders, hsenders]⟩
    · obtain ⟨hrelated, hresult⟩ := h.send value
      refine .inr ⟨_, _, _, _, if_neg hsenders, if_neg (by rwa [h.senders]), hrelated, ?_⟩
      exact ⟨fun _ => trivial, fun _ => congrArg _ hresult⟩
  | senderIsClosed =>
    simp only [Channel.exec, h.senders]
    split
    · exact .inl ⟨rfl, rfl⟩
    · refine .inr ⟨_, _, _, _, rfl, rfl, h, ?_⟩
      simp only [Mt.impl, St.impl, h.receiverCount, Alike]
  | cloneSender =>
    simp only [Channel.exec, h.senders]
    split
    · exact .inl ⟨rfl, rfl⟩
    · refine .inr ⟨_, _, _, _, rfl, rfl, { h with
        senders := rfl
        senders_counted := congrArg (· + 1) h.senders_counted }, ?_⟩
      exact ⟨fun _ => trivial, fun _ => rfl⟩
  | dropSender =>
    by_cases hsenders : s.senders = 0
    · exact .inl ⟨by simp [Channel.exec, hsenders], by simp [Channel.exec, h.senders, hsenders]⟩
    · refine .inr ⟨_, _, _, _, if_neg hsenders, if_neg (by rwa [h.senders]),
        h.dropSender hsenders, ?_⟩
      exact ⟨fun _ => trivial, fun _ => rfl⟩
  | tryRecv key => exact h.outcome_tryRecv .rfl
  | tryRecvAny key => exact h.outcome_tryRecv .rfl
  | receiverIsClosed key =>
    simp only [Channel.exec, h.receivers]
    cases hget : s.receivers.get key with
    | none => exact .inl ⟨rfl, rfl⟩
    | some lastSeen =>
      refine .inr ⟨_, _, _, _, rfl, rfl, h, ?_⟩
      simp only [Result.closed.injEq, Mt.impl, St.impl, decide_eq_decide, Alike,
        h.senderCount_eq_zero, h.senders_counted]
  | cloneReceiver key =>
    simp only [Channel.exec, h.receivers]
    cases hget : s.receivers.get key with
    | none => exact .inl ⟨rfl, rfl⟩
    | some lastSeen =>
      have hlength := Slots.length_push s.receivers lastSeen
      refine .inr ⟨_, _, _, _, rfl, rfl, { h with
        receiverCount := congrArg (· + 1) h.receiverCount
        receivers := rfl
        receivers_counted := (congrArg (· + 1) h.receivers_counted).trans hlength.symm }, ?_⟩
      exact ⟨fun _ => trivial, fun _ => rfl⟩
  | dropReceiver key =>
    simp only [Channel.exec]
    cases hget : s.receivers.get key with
    | none => exact .inl ⟨rfl, by rw [h.receivers, hget]; rfl⟩
    | some lastSeen =>
      refine .inr ⟨_, _, _, _, rfl, by rw [h.receivers, hget]; rfl, ?_, ?_⟩
      · exact h.receivers ▸ h.dropReceiver hget
      · exact ⟨fun _ => trivial, fun _ => rfl⟩

/-- Two related channels answer a sequence of calls alike if and only if every call is made in a state
in which they answer it alike. -/
theorem Related.results_agree_iff (h : Related s t) (ops : List (Op α)) :
    t.results Mt.impl ops = s.results St.impl ops ↔ s.Meets ops := by
  induction ops generalizing s t with
  | nil => exact ⟨fun _ => trivial, fun _ => rfl⟩
  | cons op ops ih =>
    unfold results Meets
    rcases h.exec op with ⟨hs, ht⟩ | ⟨s', r, t', r', hs, ht, hrelated, halike⟩
    · simp only [hs, ht]
    · simp only [hs, ht, List.cons.injEq, halike, ih hrelated]

/-- What the runs of an implementation reach. -/
def Reached (impl : Impl α) : Channel α → Prop :=
  Reachable (· = channel) anyStep fun s op => (s.exec impl op).map Prod.fst

/-- Every run of the one implementation is a run of the other. -/
theorem exists_related (h : Reached St.impl s) : ∃ t, Related s t := by
  unfold Reached at h
  induction h with
  | init heq => exact ⟨channel, heq ▸ related_channel⟩
  | @step s s' op _ _ hstep ih =>
    obtain ⟨t, hrelated⟩ := ih
    obtain ⟨⟨s₁, r₁⟩, hexec, rfl⟩ := Option.map_eq_some_iff.mp hstep
    rcases hrelated.exec op with ⟨hs, -⟩ | ⟨s', r, t', r', hs, -, hrelated', -⟩
    · cases hs.symm.trans hexec
    · cases hs.symm.trans hexec
      exact ⟨t', hrelated'⟩

end Channel

/-- **When the two implementations agree.** A sequence of calls, on a new channel, returns the same in
both if and only if each call is made in a state in which they answer it alike. The single-threaded one
is right in every state: a receiver that asks for closure, or that has nothing to receive, is told
whether there is a sender. -/
theorem results_eq_iff :
    (∀ ops : List (Op α), channel.results Mt.impl ops = channel.results St.impl ops ↔
      channel.Meets ops) ∧
    ∀ s : Channel α, s.Reached St.impl → ∀ key lastSeen, s.receivers.get key = some lastSeen →
      St.impl.receiverIsClosed s.state = decide (s.senders = 0) ∧
      ∀ ignoreVersion, s.state.hasValue lastSeen ignoreVersion = false →
        (St.impl.tryRecvInner s.state lastSeen ignoreVersion).2 =
          .error (if s.senders = 0 then .closed else .empty) := by
  refine ⟨Channel.related_channel.results_agree_iff, fun s hs key lastSeen _ => ?_⟩
  obtain ⟨t, hrelated⟩ := Channel.exists_related hs
  simp only [St.impl, hrelated.senders_counted, true_and]
  intro ignoreVersion hvalue
  simp [State.tryRecvInner_of_not_hasValue hvalue]

/-- A single sender, and a receiver that listens only as long as it exists. -/
theorem results_eq_single_sender :
    channel.results Mt.impl [Op.send 7, .tryRecv 0, .tryRecv 0, .dropSender, .receiverIsClosed 0] =
      channel.results St.impl [.send 7, .tryRecv 0, .tryRecv 0, .dropSender, .receiverIsClosed 0] := by
  refine (results_eq_iff.1 _).mpr ⟨trivial, ?_, ?_, trivial, ?_, trivial⟩
  · simp [Channel.Alike, channel, Slots.get]
  · simp [Channel.Alike, channel, Slots.get]
  · simp [Channel.Alike, channel]

/-- **The implementations disagree.** The drop of a clone closes the multi-threaded channel, although a
sender is left; and without senders its receivers are told to go on waiting. -/
theorem implementations_disagree :
    (∃ ops : List (Op Nat), channel.results Mt.impl ops ≠ channel.results St.impl ops) ∧
    channel.results Mt.impl [Op.cloneSender, .dropSender, .receiverIsClosed (α := Nat) 0] =
      [.unit, .unit, .closed true] ∧
    channel.results St.impl [Op.cloneSender, .dropSender, .receiverIsClosed (α := Nat) 0] =
      [.unit, .unit, .closed false] ∧
    channel.results Mt.impl [Op.dropSender, .tryRecv (α := Nat) 0] =
      [.unit, .received (.error .empty)] ∧
    channel.results St.impl [Op.dropSender, .tryRecv (α := Nat) 0] =
      [.unit, .received (.error .closed)] := by
  refine ⟨⟨[.dropSender, .tryRecv 0], ?_⟩, rfl, rfl, rfl, rfl⟩
  decide

end Aquic.Sync.Watch

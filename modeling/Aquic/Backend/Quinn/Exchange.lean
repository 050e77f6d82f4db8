import Aquic.Backend.Quinn.Reading
import Aquic.Lib.Run

/-!
# The exchange between a connection and the endpoint

`handle_quinn_connection_event` starts with an exchange: the connection handles an event, and everything
that it then reports to the endpoint may be answered with another event for the connection.

    while let Some(connection_event) = next_connection_event.take() {
        connection.handle_event(connection_event);
        while let Some(endpoint_event) = connection.poll_endpoint_events() {
            if let Some(connection_event) = self.endpoint.handle_event(..) {
                next_connection_event = Some(connection_event);
            }
        }
    }

A round is one iteration of the outer loop. All the answers of a round go to the same place, which has
room for one. Here the exchange is run round by round, with a history of what was delivered to the
connection and of what the endpoint has answered.
-/

namespace Aquic.Backend.Quinn

open Aquic.Run

variable {Conn End Cfg Incoming Signal Report : Type}

structure Exchange (Conn End Signal : Type) where
  endpoint : End
  connection : Conn
  /-- `next_connection_event`. -/
  next : Option Signal
  /-- A history: the events that the connection has handled. -/
  delivered : List Signal
  /-- A history: what the endpoint has answered, round by round. -/
  rounds : List (List Signal)

namespace Exchange

def start (endpoint : End) (connection : Conn) (event : Signal) : Exchange Conn End Signal where
  endpoint := endpoint
  connection := connection
  next := some event
  delivered := []
  rounds := []

variable (env : Env Conn End Cfg Incoming Signal Report) (key : ConnectionKey)

/-- One iteration of the inner loop: the endpoint, the next event, and the answers so far. -/
def answer : End × Option Signal × List Signal → Report → End × Option Signal × List Signal
  | (endpoint, next, answers), report =>
    let (endpoint, answer) := env.endpoint.handleEvent endpoint key report
    (endpoint, answer.or next, answers ++ answer.toList)

/-- One iteration of the outer loop. -/
def exec (x : Exchange Conn End Signal) (_ : Unit) : Option (Exchange Conn End Signal) :=
  match x.next with
  | none => none
  | some event =>
    let (connection, reports) :=
      env.endpoint.pollEndpointEvents (env.endpoint.deliver x.connection event)
    let (endpoint, next, answers) := reports.foldl (answer env key) (x.endpoint, none, [])
    some
      { endpoint
        connection
        next
        delivered := x.delivered ++ [event]
        rounds := x.rounds ++ [answers] }

/-- The exchange that a backend starts when an event for a connection arrives. -/
def Init (b : EndpointBackend Conn End Cfg) (key : ConnectionKey) (event : Signal)
    (x : Exchange Conn End Signal) : Prop :=
  ∃ c, b.connections.all.get key = some c ∧ x = start b.endpoint c.inner event

/-- Every event up to now was delivered, or is the next one, once and in order. -/
def InOrder (event : Signal) (x : Exchange Conn End Signal) : Prop :=
  x.delivered ++ x.next.toList = event :: x.rounds.flatten

variable {env} {key} {event : Signal} {x x' : Exchange Conn End Signal}

/-! ## A round -/

/-- The next event is the last answer. -/
theorem foldl_answer (env : Env Conn End Cfg Incoming Signal Report) (key : ConnectionKey)
    (reports : List Report) (endpoint : End) (answers : List Signal) :
    (reports.foldl (answer env key) (endpoint, answers.getLast?, answers)).2.1 =
      (reports.foldl (answer env key) (endpoint, answers.getLast?, answers)).2.2.getLast? := by
  induction reports generalizing endpoint answers with
  | nil => rfl
  | cons report reports ih =>
    rw [List.foldl_cons, answer]
    cases env.endpoint.handleEvent endpoint key report with
    | mk endpoint signal =>
      have hlast : signal.or answers.getLast? = (answers ++ signal.toList).getLast? := by
        cases signal with
        | none => rw [Option.none_or, Option.toList_none, List.append_nil]
        | some signal => rw [Option.some_or, Option.toList_some, List.getLast?_concat]
      simp only
      rw [hlast]
      exact ih _ _

/-- **What is delivered**: the first event, and the last answer of each round. -/
def Accounted (event : Signal) (x : Exchange Conn End Signal) : Prop :=
  x.delivered ++ x.next.toList = event :: x.rounds.filterMap List.getLast?

theorem Accounted.exec (h : Accounted event x) (hexec : x.exec env key () = some x') :
    Accounted event x' := by
  unfold Exchange.exec at hexec
  split at hexec
  · cases hexec
  · next signal hnext =>
    cases hexec
    rw [Accounted, hnext, Option.toList_some] at h
    -- the next event is the last answer of this round
    have hlast := foldl_answer env key
      (env.endpoint.pollEndpointEvents (env.endpoint.deliver x.connection signal)).2 x.endpoint []
    rw [List.getLast?_nil] at hlast
    show (x.delivered ++ [signal]) ++ Option.toList _ = event :: List.filterMap _ (x.rounds ++ [_])
    rw [h, hlast, List.filterMap_append, List.cons_append]
    refine congrArg (event :: ·) (congrArg (_ ++ ·) ?_)
    rw [List.filterMap_cons]
    split
    · next hnone =>
      rw [hnone]
      rfl
    · next hsome =>
      rw [hsome]
      rfl

theorem accounted {b : EndpointBackend Conn End Cfg}
    (h : Reachable (Init b key event) anyStep (Exchange.exec env key) x) : Accounted event x := by
  induction h with
  | init hinit =>
    obtain ⟨c, -, rfl⟩ := hinit
    rfl
  | step _ _ hexec ih => exact ih.exec hexec

/-! ## Rounds with several answers -/

theorem length_lasts_le (rounds : List (List Signal)) :
    (rounds.filterMap List.getLast?).length ≤ rounds.flatten.length := by
  induction rounds with
  | nil => exact Nat.le_refl _
  | cons answers rounds ih =>
    rw [List.filterMap_cons, List.flatten_cons, List.length_append]
    split
    · exact Nat.le_add_left_of_le ih
    · next last hlast =>
      have hpos : 0 < answers.length := by
        cases answers with
        | nil => cases hlast
        | cons => exact Nat.succ_pos _
      rw [List.length_cons]
      omega

/-- The last answers are all answers exactly if there is at most one in each round. -/
theorem lasts_eq_iff (rounds : List (List Signal)) :
    rounds.filterMap List.getLast? = rounds.flatten ↔ ∀ answers ∈ rounds, answers.length ≤ 1 := by
  induction rounds with
  | nil => exact iff_of_true rfl fun answers h => by cases h
  | cons answers rounds ih =>
    rw [List.forall_mem_cons, ← ih, List.flatten_cons]
    rcases answers with _ | ⟨signal, _ | ⟨signal', answers⟩⟩
    · simp [List.filterMap_cons]
    · simp
    · refine iff_of_false (fun heq => ?_) fun h => absurd h.1 (by simp)
      have hlength := congrArg List.length heq
      have hle := length_lasts_le rounds
      rw [List.filterMap_cons, List.length_append] at hlength
      split at hlength
      · simp only [List.length_cons] at hlength
        omega
      · simp only [List.length_cons] at hlength
        omega

/-- **The exchange delivers every event once and in order exactly if the endpoint answers at most once
in each round.** -/
theorem inOrder_iff {b : EndpointBackend Conn End Cfg}
    (h : Reachable (Init b key event) anyStep (Exchange.exec env key) x) :
    x.InOrder event ↔ ∀ answers ∈ x.rounds, answers.length ≤ 1 := by
  have haccounted := accounted h
  rw [Accounted] at haccounted
  rw [InOrder, haccounted, ← lasts_eq_iff, List.cons.injEq]
  exact and_iff_right rfl

/-! ## The loop of the backend -/

/-- The fold of the backend, which keeps no history. -/
theorem foldl_answer_eq (reports : List Report) (endpoint : End) (next : Option Signal)
    (answers : List Signal) :
    reports.foldl (fun (endpoint, next) report =>
        let (endpoint, answer) := env.endpoint.handleEvent endpoint key report
        (endpoint, answer.or next)) (endpoint, next) =
      ((reports.foldl (answer env key) (endpoint, next, answers)).1,
        (reports.foldl (answer env key) (endpoint, next, answers)).2.1) := by
  induction reports generalizing endpoint next answers with
  | nil => rfl
  | cons report reports ih =>
    rw [List.foldl_cons, List.foldl_cons, answer]
    exact ih _ _ _

/-- The exchange up to its end, with fuel for its rounds. -/
def finish (env : Env Conn End Cfg Incoming Signal Report) (key : ConnectionKey) :
    Nat → Exchange Conn End Signal → Option (Exchange Conn End Signal)
  | 0, _ => none
  | fuel + 1, x =>
    (x.exec env key ()).bind fun x => if x.next.isNone then some x else finish env key fuel x

theorem finish_run {fuel : Nat} (h : finish env key fuel x = some x') :
    Reachable (· = x) anyStep (Exchange.exec env key) x' ∧ x'.next = none := by
  induction fuel generalizing x with
  | zero => cases h
  | succ fuel ih =>
    obtain ⟨x₁, hexec, h⟩ := Option.bind_eq_some_iff.mp h
    have hstart : Reachable (· = x) anyStep (Exchange.exec env key) x := .init rfl
    have hstep := hstart.step trivial hexec
    split at h
    · next hdone =>
      cases h
      exact ⟨hstep, Option.isNone_iff_eq_none.mp hdone⟩
    · obtain ⟨hrun, hdone⟩ := ih h
      exact ⟨hstep.trans hrun, hdone⟩

/-- **The loop of the backend runs the exchange** up to its end. -/
theorem deliverLoop_eq {fuel : Nat} (hnext : x.next = some event) :
    EndpointBackend.deliverLoop env key fuel x.endpoint x.connection event =
      (finish env key fuel x).map fun x => (x.endpoint, x.connection) := by
  induction fuel generalizing x event with
  | zero => rfl
  | succ fuel ih =>
    obtain ⟨x₁, hexec⟩ : ∃ x₁, x.exec env key () = some x₁ := by
      unfold Exchange.exec
      rw [hnext]
      exact ⟨_, rfl⟩
    rw [finish, hexec, Option.bind_some, EndpointBackend.deliverLoop]
    unfold Exchange.exec at hexec
    rw [hnext] at hexec
    cases hexec
    simp only
    rw [foldl_answer_eq _ _ _ []]
    -- the loop goes on while the last round has left an event
    cases (List.foldl (answer env key) _ _).2.1 with
    | none => rfl
    | some signal => exact ih (x := ⟨_, _, _, _, _⟩) rfl

/-- **The exchange of the backend is a run**, which ends when there is no next event. -/
theorem deliverLoop_run {fuel : Nat} {endpoint : End} {connection : Conn}
    (hnext : x.next = some event)
    (h : EndpointBackend.deliverLoop env key fuel x.endpoint x.connection event =
      some (endpoint, connection)) :
    ∃ x', finish env key fuel x = some x' ∧ x'.next = none ∧
      x'.endpoint = endpoint ∧ x'.connection = connection ∧
      Reachable (· = x) anyStep (Exchange.exec env key) x' := by
  rw [deliverLoop_eq hnext] at h
  obtain ⟨x', hfinish, heq⟩ := Option.map_eq_some_iff.mp h
  obtain ⟨rfl, rfl⟩ := Prod.mk.inj heq
  obtain ⟨hrun, hdone⟩ := finish_run hfinish
  exact ⟨x', hfinish, hdone, rfl, rfl, hrun⟩

/-- What `handle_quinn_connection_event` does with a connection starts with a run of the exchange. -/
theorem handleQuinnConnectionEvent_run {b b' : EndpointBackend Conn End Cfg} {c : Connection Conn}
    {fuel : Nat} (hget : b.connections.all.get key = some c)
    (h : b.handleQuinnConnectionEvent env key event fuel = some b') :
    ∃ x backend, (start b.endpoint c.inner event).finish env key fuel = some x ∧ x.next = none ∧
      Reachable (Init b key event) anyStep (Exchange.exec env key) x ∧
      (({ b.toQuinnBackend with
          connections :=
            { b.connections with active := b.connections.active.replace key } }.put key
        { c with inner := x.connection }).drainEvents env.quinn (c.id key) fuel) = some backend ∧
      b' = { b with toQuinnBackend := backend, endpoint := x.endpoint } := by
  have hmarked : b.connections.getMarkActiveRaw key =
      some ({ b.connections with active := b.connections.active.replace key }, c) := by
    rw [Connections.getMarkActiveRaw, hget, Option.map_some]
  unfold EndpointBackend.handleQuinnConnectionEvent at h
  rw [hmarked] at h
  obtain ⟨⟨endpoint, inner⟩, hloop, h⟩ := Option.bind_eq_some_iff.mp h
  obtain ⟨backend, hdrain, hb'⟩ := Option.bind_eq_some_iff.mp h
  obtain ⟨x, hfinish, hdone, rfl, rfl, hrun⟩ :=
    deliverLoop_run (x := start b.endpoint c.inner event) rfl hloop
  exact ⟨x, backend, hfinish, hdone, Reachable.trans (.init ⟨c, hget, rfl⟩) hrun, hdrain,
    (Option.some.inj hb').symm⟩

end Exchange

/-! ## One answer, and two -/

/-- Connections that keep what the endpoint tells them, and that report each byte of the first event; the
endpoint answers every report. -/
def answersEnv : Env (List (List UInt8)) Unit Unit Unit (List UInt8) UInt8 where
  quinn := chunkLibrary
  endpoint :=
    { connect := fun _ _ _ _ _ => ((), .ok (0, []))
      handle := fun _ _ _ _ _ _ => ((), none, [])
      handleEvent := fun _ _ report => ((), some [report])
      ignore := fun _ _ => ()
      retry := fun _ incoming => ((), .error incoming)
      accept := fun _ _ _ _ => ((), .error none)
      remoteAddressValidated := fun _ => true
      deliver := fun c event => c ++ [event]
      pollEndpointEvents := fun c => (c, if c.length = 1 then c.flatten else []) }

/-- Two rounds of an exchange that a client starts with this event. -/
theorem exists_twoRounds (event : List UInt8)
    {p : Exchange (List (List UInt8)) Unit (List UInt8) → Bool}
    (h : ((some (Exchange.start () [] event)).bind
      (runAll anyStep (Exchange.exec answersEnv 0) · [(), ()])).any p = true) :
    ∃ (s : Running (List (List UInt8)) Unit Unit)
      (x : Exchange (List (List UInt8)) Unit (List UInt8)),
      Reachable Running.Init anyStep (Running.exec answersEnv) s ∧
      Reachable (Exchange.Init s.backend 0 event) anyStep (Exchange.exec answersEnv 0) x ∧
      p x = true := by
  have hrun : ∃ s : Running (List (List UInt8)) Unit Unit,
      Reachable Running.Init anyStep (Running.exec answersEnv) s ∧
      ((s.backend.connections.all.get 0).any fun c => decide (c.inner = [])) = true :=
    exists_reachable (some ⟨.new { client := some (), server := none } () [] [] .localhost .zero, []⟩)
      (fun s hs => by
        cases hs
        exact ⟨rfl, _, _, _, _, _, _, rfl⟩)
      [.connect "" ⟨.localhost, 443⟩]
      (by decide +kernel)
  obtain ⟨s, hs, hp⟩ := hrun
  obtain ⟨c, hget, hinner⟩ := (Option.any_eq_true ..).mp hp
  have hinner : c.inner = [] := of_decide_eq_true hinner
  have hexchange : ∃ x : Exchange (List (List UInt8)) Unit (List UInt8),
      Reachable (Exchange.Init s.backend 0 event) anyStep (Exchange.exec answersEnv 0) x ∧
      p x = true :=
    exists_reachable _ (fun x hx => by
      cases hx
      exact ⟨c, hget, by rw [hinner]⟩) [(), ()] h
  obtain ⟨x, hx, hp⟩ := hexchange
  exact ⟨s, x, hs, hx, hp⟩

/-- An event with one answer. -/
theorem inOrder_iff_one :
    ∃ (s : Running (List (List UInt8)) Unit Unit)
      (x : Exchange (List (List UInt8)) Unit (List UInt8)),
      Reachable (Exchange.Init s.backend 0 [1]) anyStep (Exchange.exec answersEnv 0) x ∧
      x.next = none ∧ x.rounds = [[[1]], []] ∧ x.InOrder [1] := by
  obtain ⟨s, x, -, hx, hp⟩ := exists_twoRounds [1]
    (p := fun x => decide (x.next = none ∧ x.rounds = [[[1]], []])) (by decide +kernel)
  obtain ⟨hnext, hrounds⟩ := of_decide_eq_true hp
  refine ⟨s, x, hx, hnext, hrounds, (Exchange.inOrder_iff hx).mpr ?_⟩
  rw [hrounds]
  decide

/-- **The first of two answers is lost.** -/
theorem first_answer_lost :
    ∃ (s : Running (List (List UInt8)) Unit Unit)
      (x : Exchange (List (List UInt8)) Unit (List UInt8)),
      Reachable Running.Init anyStep (Running.exec answersEnv) s ∧
      Reachable (Exchange.Init s.backend 0 [1, 2]) anyStep (Exchange.exec answersEnv 0) x ∧
      x.next = none ∧ x.rounds = [[[1], [2]], []] ∧ x.delivered = [[1, 2], [2]] ∧
      ¬ x.InOrder [1, 2] := by
  obtain ⟨s, x, hs, hx, hp⟩ := exists_twoRounds [1, 2]
    (p := fun x => decide (x.next = none ∧ x.rounds = [[[1], [2]], []] ∧
      x.delivered = [[1, 2], [2]])) (by decide +kernel)
  obtain ⟨hnext, hrounds, hdelivered⟩ := of_decide_eq_true hp
  refine ⟨s, x, hs, hx, hnext, hrounds, hdelivered, fun horder => ?_⟩
  rw [Exchange.InOrder, hnext, hrounds, hdelivered] at horder
  exact absurd horder (by decide)

end Aquic.Backend.Quinn

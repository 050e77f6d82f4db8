import Aquic.Stream.Id

/-!
# Backend events

`backend/event.rs`: what a backend tells its owner. `CId` is the stable connection id of the backend.
-/

namespace Aquic.Backend

open Aquic.Stream

/-- Why a connection was halted. -/
inductive HaltKind where
  | unknownVersion
  | timeout
  | migrationFailed
  | statelessReset
  | error (reason : List UInt8)
  deriving DecidableEq, Repr

inductive ConnectionEvent (CId : Type) where
  | new (connectionId : CId) (isServer : Bool)
  | established (connectionId : CId)
  | streamsAvailable (connectionId : CId) (isBidirectional : Bool)
  | closed (connectionId : CId) (code : Nat) (reason : List UInt8) (isApplication isLocal : Bool)
  | halted (connectionId : CId) (kind : HaltKind)
  deriving DecidableEq, Repr

inductive StreamEvent (CId : Type) where
  | available (connectionId : CId) (streamId : StreamId)
  | reset (connectionId : CId) (streamId : StreamId) (code : Nat)
  deriving DecidableEq, Repr

inductive DatagramEvent (CId : Type) where
  | inAvailable (connectionId : CId)
  | outAvailable (connectionId : CId)
  | outNewSize (connectionId : CId) (size : Nat)
  deriving DecidableEq, Repr

inductive Event (CId : Type) where
  | connection (event : ConnectionEvent CId)
  | stream (event : StreamEvent CId)
  | datagram (event : DatagramEvent CId)
  deriving DecidableEq, Repr

variable {CId : Type}

def ConnectionEvent.connectionId : ConnectionEvent CId → CId
  | .new id _ => id
  | .established id => id
  | .streamsAvailable id _ => id
  | .closed id .. => id
  | .halted id _ => id

def StreamEvent.connectionId : StreamEvent CId → CId
  | .available id _ => id
  | .reset id .. => id

def DatagramEvent.connectionId : DatagramEvent CId → CId
  | .inAvailable id => id
  | .outAvailable id => id
  | .outNewSize id _ => id

namespace Event

/-- The connection that an event mentions. -/
def connectionId : Event CId → CId
  | .connection event => event.connectionId
  | .stream event => event.connectionId
  | .datagram event => event.connectionId

/-- The connection that a `Closed` or `Halted` event is about: its terminal event. -/
def terminates : Event CId → Option CId
  | .connection (.closed id ..) => some id
  | .connection (.halted id _) => some id
  | _ => none

/-- The connection that a `New` event introduces. -/
def introduces : Event CId → Option CId
  | .connection (.new id _) => some id
  | _ => none

/-- The connection that an `Established` event is about. -/
def establishes : Event CId → Option CId
  | .connection (.established id) => some id
  | _ => none

theorem connectionId_of_introduces {e : Event CId} {id : CId} (h : e.introduces = some id) :
    e.connectionId = id := by
  unfold introduces at h
  split at h
  · cases h
    rfl
  · cases h

theorem connectionId_of_terminates {e : Event CId} {id : CId} (h : e.terminates = some id) :
    e.connectionId = id := by
  unfold terminates at h
  split at h
  · cases h
    rfl
  · cases h
    rfl
  · cases h

theorem introduces_of_terminates {e : Event CId} {id : CId} (h : e.terminates = some id) :
    e.introduces = none := by
  unfold terminates at h
  split at h
  · rfl
  · rfl
  · cases h

theorem establishes_of_terminates {e : Event CId} {id : CId} (h : e.terminates = some id) :
    e.establishes = none := by
  unfold terminates at h
  split at h
  · rfl
  · rfl
  · cases h

/-- An event about a live connection, other than `New`, `Closed` and `Halted`. -/
structure Ordinary (live : CId → Prop) (e : Event CId) : Prop where
  terminates : e.terminates = none
  introduces : e.introduces = none
  live : live e.connectionId

end Event

/-! ## The container -/

/-- The loop of `BackendEvents::consume`: the events in the order in which they are passed to the
consumer. `push` and `extend` add events at the end. -/
def consume (events : List (Event CId)) : List (Event CId) :=
  match events with
  | [] => []
  | e :: es => (e :: es).getLast (List.cons_ne_nil e es) :: consume (e :: es).dropLast
  termination_by events.length
  decreasing_by simp

theorem consume_eq_reverse (events : List (Event CId)) : consume events = events.reverse := by
  fun_induction consume events with
  | case1 => rfl
  | case2 e es ih =>
    have hconcat := List.dropLast_concat_getLast (List.cons_ne_nil e es)
    rw [ih]
    exact (List.reverse_concat ..).symm.trans (congrArg List.reverse hconcat)

end Aquic.Backend

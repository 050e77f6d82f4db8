import Aquic.Backend.Quiche.Connection
import Aquic.Lib.Run

/-!
# Local streams of a quiche connection

`backend/quiche/connection.rs`: the two sequences of stream ids that a connection hands out, one for
each direction. A sequence starts with the first id of the connection's role, and only
`allocate_stream_id` moves it. Whatever else happens to the connection, every id that is allocated was
initiated by that role, and has the direction that was asked for.
-/

namespace Aquic.Backend.Quiche

open Aquic.Run Aquic.Stream

variable {Conn Cfg : Type}

namespace Connection

/-- Any change to a connection that leaves the sequences alone. -/
def edit (change : Connection Conn → Connection Conn) (c : Connection Conn) : Connection Conn :=
  { change c with
    streamBidiSequence := c.streamBidiSequence
    streamUniSequence := c.streamUniSequence }

inductive StreamsLabel (Conn : Type) where
  | allocate (bidirectional : Bool)
  | change (change : Connection Conn → Connection Conn)

/-- One change; an allocation that fails changes nothing. -/
def exec (c : Connection Conn) : StreamsLabel Conn → Option (Connection Conn)
  | .allocate bidirectional => some (((c.allocateStreamId bidirectional).map Prod.fst).getD c)
  | .change change => some (c.edit change)

/-- A connection right after `Connection::new`, for quiche connections of this role. -/
def Init (lib : Library Conn Cfg) (isServer : Bool) (c : Connection Conn) : Prop :=
  ∃ inner verified, lib.isServer inner = isServer ∧ c = .new lib inner verified

/-- The sequences belong to this role, each with its own direction. -/
structure OwnStreams (isServer : Bool) (c : Connection Conn) : Prop where
  bidi_isServer : c.streamBidiSequence.isServer = isServer
  bidi_isUni : c.streamBidiSequence.isUni = false
  uni_isServer : c.streamUniSequence.isServer = isServer
  uni_isUni : c.streamUniSequence.isUni = true

variable {lib : Library Conn Cfg} {isServer bidirectional : Bool} {c c' : Connection Conn}
  {streamId : StreamId}

theorem OwnStreams.init (h : Init lib isServer c) : OwnStreams isServer c := by
  obtain ⟨inner, verified, hrole, rfl⟩ := h
  refine ⟨?_, StreamId.isUni_initial _ _, ?_, StreamId.isUni_initial _ _⟩
  · exact (StreamId.isServer_initial _ _).trans ((Bool.not_not _).trans hrole)
  · exact (StreamId.isServer_initial _ _).trans ((Bool.not_not _).trans hrole)

theorem OwnStreams.allocate (h : OwnStreams isServer c)
    (hallocate : c.allocateStreamId bidirectional = some (c', streamId)) :
    OwnStreams isServer c' ∧ streamId.isServer = isServer ∧ streamId.isUni = !bidirectional := by
  unfold allocateStreamId at hallocate
  split at hallocate
  · next hbidi =>
    obtain ⟨next, hnext, heq⟩ := Option.map_eq_some_iff.mp hallocate
    cases heq
    have hserver := (StreamId.isServer_next hnext).trans h.bidi_isServer
    have huni := (StreamId.isUni_next hnext).trans h.bidi_isUni
    rw [hbidi]
    exact ⟨⟨hserver, huni, h.uni_isServer, h.uni_isUni⟩, h.bidi_isServer, h.bidi_isUni⟩
  · next huni =>
    obtain ⟨next, hnext, heq⟩ := Option.map_eq_some_iff.mp hallocate
    cases heq
    have hserver := (StreamId.isServer_next hnext).trans h.uni_isServer
    have hdir := (StreamId.isUni_next hnext).trans h.uni_isUni
    rw [Bool.eq_false_iff.mpr huni]
    exact ⟨⟨h.bidi_isServer, h.bidi_isUni, hserver, hdir⟩, h.uni_isServer, h.uni_isUni⟩

theorem OwnStreams.exec (h : OwnStreams isServer c) {l : StreamsLabel Conn}
    (hexec : c.exec l = some c') : OwnStreams isServer c' := by
  cases l with
  | allocate bidirectional =>
    cases hexec
    cases hallocate : c.allocateStreamId bidirectional with
    | none => exact h
    | some result => exact (h.allocate hallocate).1
  | change change =>
    cases hexec
    exact ⟨h.bidi_isServer, h.bidi_isUni, h.uni_isServer, h.uni_isUni⟩

theorem ownStreams (h : Reachable (Init lib isServer) anyStep exec c) :
    OwnStreams isServer c := by
  induction h with
  | init hinit => exact OwnStreams.init hinit
  | step _ _ hexec ih => exact ih.exec hexec

/-- **The ids of local streams** have the bits of the role and of the direction, at any point of the
sequence. -/
theorem allocated_bits (h : Reachable (Init lib isServer) anyStep exec c)
    (hallocate : c.allocateStreamId bidirectional = some (c', streamId)) :
    streamId.isServer = isServer ∧ streamId.isUni = !bidirectional :=
  ((ownStreams h).allocate hallocate).2

end Connection

end Aquic.Backend.Quiche

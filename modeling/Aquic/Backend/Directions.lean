import Aquic.Backend.Quiche.Application
import Aquic.Backend.Quiche.Initial
import Aquic.Backend.Quiche.Streams
import Aquic.Backend.Quinn.Application
import Aquic.Backend.Terminated

/-!
# Directions of streams

Both backends look at the two lowest bits of a stream id before they touch the stream:

    if stream_id.is_client() && stream_id.is_uni() {
        return Err(Error::Illegal);
    }

stands in front of the operations that receive, and the same with `is_server` in front of the
operations that send. This is right for the backend of a client. A server runs the same code: it may
not send on the streams that it opens, and it may not receive on those that its client opens. So a
unidirectional stream is never usable, whoever opens it, and a bidirectional one always is.
-/

namespace Aquic.Backend

open Aquic.Run Aquic.Stream

/-- One of the two guards stops a unidirectional stream, at one of its two ends. -/
theorem usable_iff {streamId : StreamId} {opposite : Prop} :
    ((streamId.isServer && streamId.isUni) = false ∧
      (streamId.isClient && streamId.isUni) = false ∧ (streamId.isUni = true → opposite)) ↔
    streamId.isUni = false := by
  unfold StreamId.isClient
  cases streamId.isServer <;> cases streamId.isUni <;> simp

/-! ## The quiche backend -/

namespace Quiche

namespace QuicheBackend

variable {Conn Cfg G T : Type} (env : Env Conn Cfg G T) (b : QuicheBackend Conn Cfg G T)
  (key : ConnectionKey) (streamId : StreamId)

/-- The guards of the sending operations let the stream pass: it is not illegal, and changes of it
are made as if there were no guard. -/
structure Sends : Prop where
  send bytes fin : (b.streamSend env key streamId bytes fin).2 ≠ .error .illegal
  reset err : b.streamResetSending env key streamId err =
    b.changeStream env key false (env.quiche.streamShutdown · streamId.raw true err)
  priority (priority : Priority) : b.streamSetPriority env key streamId priority =
    b.changeStream env key false (env.quiche.streamPriority · streamId.raw
      (UInt8.ofInt (127 - priority.urgency.toInt)) priority.incremental)

/-- The guards of the receiving operations let the stream pass. -/
structure Receives : Prop where
  recv outLen : (b.streamRecv env key streamId outLen).2 ≠ .error .illegal
  stop err : b.streamStopSending env key streamId err =
    b.changeStream env key false (env.quiche.streamShutdown · streamId.raw false err)

/-- Sending is refused: it is illegal, and changes do nothing. -/
structure RefusesSending : Prop where
  send bytes fin : b.streamSend env key streamId bytes fin = (b, .error .illegal)
  reset err : b.streamResetSending env key streamId err = b
  priority (priority : Priority) : b.streamSetPriority env key streamId priority = b

structure RefusesReceiving : Prop where
  recv outLen : b.streamRecv env key streamId outLen = (b, .error .illegal)
  stop err : b.streamStopSending env key streamId err = b

variable {env b key streamId}

theorem refusesSending (hopen : b.isOpen = true)
    (hguard : (streamId.isServer && streamId.isUni) = true) :
    b.RefusesSending env key streamId where
  send bytes fin := by
    rw [streamSend, hopen, if_neg (by decide), if_pos hguard]
  reset err := by
    rw [streamResetSending, changeStream, hguard, Bool.or_true, if_pos rfl]
  priority priority := by
    rw [streamSetPriority, changeStream, hguard, Bool.or_true, if_pos rfl]

theorem refusesReceiving (hopen : b.isOpen = true)
    (hguard : (streamId.isClient && streamId.isUni) = true) :
    b.RefusesReceiving env key streamId where
  recv outLen := by
    rw [streamRecv, hopen, if_neg (by decide), if_pos hguard]
  stop err := by
    rw [streamStopSending, changeStream, hguard, Bool.or_true, if_pos rfl]

theorem sends (hguard : (streamId.isServer && streamId.isUni) = false) :
    b.Sends env key streamId where
  send bytes fin := by
    unfold streamSend
    split
    · simp
    · split
      · next h => exact absurd (hguard.symm.trans h) Bool.false_ne_true
      · split
        · simp
        · split
          · simp only
            split <;> simp
          · simp
  reset err := by
    rw [streamResetSending, hguard]
  priority priority := by
    rw [streamSetPriority, hguard]

theorem receives (hguard : (streamId.isClient && streamId.isUni) = false) :
    b.Receives env key streamId where
  recv outLen := by
    unfold streamRecv
    split
    · simp
    · split
      · next h => exact absurd (hguard.symm.trans h) Bool.false_ne_true
      · split
        · simp
        · split
          · simp
          · simp only
            split <;> simp
  stop err := by
    rw [streamStopSending, hguard]

/-- The guard decides. -/
theorem sends_iff (hopen : b.isOpen = true) :
    b.Sends env key streamId ↔ (streamId.isServer && streamId.isUni) = false := by
  refine ⟨fun h => ?_, sends⟩
  by_contra hguard
  have hrefuses : b.RefusesSending env key streamId :=
    refusesSending hopen (Bool.eq_true_of_not_eq_false hguard)
  exact h.send [] false (congrArg Prod.snd (hrefuses.send [] false))

theorem receives_iff (hopen : b.isOpen = true) :
    b.Receives env key streamId ↔ (streamId.isClient && streamId.isUni) = false := by
  refine ⟨fun h => ?_, receives⟩
  by_contra hguard
  have hrefuses : b.RefusesReceiving env key streamId :=
    refusesReceiving hopen (Bool.eq_true_of_not_eq_false hguard)
  exact h.recv 0 (congrArg Prod.snd (hrefuses.recv 0))

end QuicheBackend

/-- A stream that one endpoint has opened inside `stream_open_send`, and two open endpoints that use
it. -/
structure OpenedStream {Conn Cfg G T : Type} (env : Env Conn Cfg G T) where
  opener : QuicheBackend Conn Cfg G T
  peer : QuicheBackend Conn Cfg G T
  /-- The connection at the endpoint that has opened the stream, and at the other one. -/
  key : ConnectionKey
  peerKey : ConnectionKey
  /-- The role of the opening connection. -/
  isServer : Bool
  connection : Connection Conn
  reached : Reachable (Connection.Init env.quiche isServer) anyStep Connection.exec connection
  bidirectional : Bool
  streamId : StreamId
  allocated : (connection.allocateStreamId bidirectional).map Prod.snd = some streamId
  opener_isOpen : opener.isOpen = true
  peer_isOpen : peer.isOpen = true

namespace OpenedStream

variable {Conn Cfg G T : Type} {env : Env Conn Cfg G T}

/-- The endpoint that opened the stream sends, the other one receives; a unidirectional stream is for
nothing else. -/
def UsableAtBoth (s : OpenedStream env) : Prop :=
  s.opener.Sends env s.key s.streamId ∧ s.peer.Receives env s.peerKey s.streamId ∧
  (s.streamId.isUni = true → s.opener.RefusesReceiving env s.key s.streamId ∧
    s.peer.RefusesSending env s.peerKey s.streamId)

theorem bits (s : OpenedStream env) :
    s.streamId.isServer = s.isServer ∧ s.streamId.isUni = !s.bidirectional := by
  obtain ⟨⟨c', streamId⟩, hallocate, heq⟩ := Option.map_eq_some_iff.mp s.allocated
  cases heq
  exact Connection.allocated_bits s.reached hallocate

theorem usableAtBoth_iff (s : OpenedStream env) : s.UsableAtBoth ↔ s.bidirectional = true := by
  unfold UsableAtBoth
  rw [QuicheBackend.sends_iff s.opener_isOpen, QuicheBackend.receives_iff s.peer_isOpen]
  rw [usable_iff, s.bits.2, Bool.not_eq_false']

end OpenedStream

end Quiche

/-! ## The quinn backend -/

namespace Quinn

/-- What `streams().open(..)` says about the id it returns: it belongs to the role of the connection,
and to the direction that was asked for. -/
structure Library.OpensOwnStreams {Conn : Type} (lib : Library Conn) : Prop where
  isServer c dir inner streamId :
    lib.openStream c dir = (inner, some streamId) → streamId.isServer = lib.isServer c
  isUni c dir inner streamId :
    lib.openStream c dir = (inner, some streamId) → streamId.isUni = (dir == .uni)

namespace EndpointBackend

variable {Conn End Cfg Incoming Signal Report : Type}
  (env : Env Conn End Cfg Incoming Signal Report) (b : EndpointBackend Conn End Cfg)
  (id : QuinnConnectionId) (streamId : StreamId)

/-- The guards of the sending operations let the stream pass. -/
structure Sends : Prop where
  send bytes fin : (b.streamSend env id streamId bytes fin).2 ≠ .error .illegal
  reset err : b.streamResetSending env id streamId err =
    b.changeStream env id false fun c => (u64IntoVarint err).map (env.quinn.reset c streamId)
  priority (priority : Priority) : b.streamSetPriority env id streamId priority =
    b.changeStream env id false fun c =>
      some (env.quinn.setPriority c streamId priority.urgency.toInt)

/-- The guards of the receiving operations let the stream pass. -/
structure Receives : Prop where
  recv outLen fuel r : b.streamRecv env id streamId outLen fuel = some r → r.2 ≠ .error .illegal
  stop err : b.streamStopSending env id streamId err =
    b.changeStream env id false fun c => (u64IntoVarint err).map (env.quinn.stop c streamId)

structure RefusesSending : Prop where
  send bytes fin : b.streamSend env id streamId bytes fin = (b, .error .illegal)
  reset err : b.streamResetSending env id streamId err = some b
  priority (priority : Priority) : b.streamSetPriority env id streamId priority = some b

structure RefusesReceiving : Prop where
  recv outLen fuel : b.streamRecv env id streamId outLen fuel = some (b, .error .illegal)
  stop err : b.streamStopSending env id streamId err = some b

variable {env b id streamId}

theorem refusesSending (hopen : b.isOpen = true)
    (hguard : (streamId.isServer && streamId.isUni) = true) :
    b.RefusesSending env id streamId where
  send bytes fin := by
    rw [streamSend, hopen, if_neg (by decide), if_pos hguard]
  reset err := by
    rw [streamResetSending, changeStream, hguard, Bool.or_true, if_pos rfl]
  priority priority := by
    rw [streamSetPriority, changeStream, hguard, Bool.or_true, if_pos rfl]

theorem refusesReceiving (hopen : b.isOpen = true)
    (hguard : (streamId.isClient && streamId.isUni) = true) :
    b.RefusesReceiving env id streamId where
  recv outLen fuel := by
    rw [streamRecv, hopen, if_neg (by decide), if_pos hguard]
  stop err := by
    rw [streamStopSending, changeStream, hguard, Bool.or_true, if_pos rfl]

theorem sends (hguard : (streamId.isServer && streamId.isUni) = false) :
    b.Sends env id streamId where
  send bytes fin := by
    unfold streamSend
    split
    · simp
    · split
      · next h => exact absurd (hguard.symm.trans h) Bool.false_ne_true
      · split
        · simp
        · split
          next inner written hwrite =>
          -- neither writing nor finishing is illegal
          have hwritten : written ≠ .error .illegal := by
            split at hwrite
            · cases hwrite
              simp
            · split at hwrite
              all_goals
                cases hwrite
                simp
          split
          next inner result hfinish =>
          split at hfinish
          · split at hfinish
            all_goals
              cases hfinish
              simp
          · cases hfinish
            exact hwritten
  reset err := by
    rw [streamResetSending, hguard]
  priority priority := by
    rw [streamSetPriority, hguard]

/-- No step of the reading loop is illegal. -/
theorem readLoop_legal {outLen fuel : Nat} {c : Conn} {read : List UInt8}
    {r : Conn × Except Error (List UInt8 × Bool)}
    (h : readLoop env streamId outLen fuel c read = some r) : r.2 ≠ .error .illegal := by
  induction fuel generalizing c read with
  | zero => cases h
  | succ fuel ih =>
    unfold readLoop at h
    split at h
    · cases h
      simp
    · split at h
      · split at h
        · exact ih h
        · cases h
      all_goals
        cases h
        simp

theorem receives (hguard : (streamId.isClient && streamId.isUni) = false) :
    b.Receives env id streamId where
  recv outLen fuel r h := by
    unfold streamRecv at h
    split at h
    · cases h
      simp
    · split at h
      · next hillegal => exact absurd (hguard.symm.trans hillegal) Bool.false_ne_true
      · split at h
        · cases h
          simp
        · split at h
          · cases h
            simp
          · split at h
            · cases h
              simp
            · cases h
              simp
            · -- the loop returns what quinn returns
              obtain ⟨⟨inner, result⟩, hread, rfl⟩ := Option.map_eq_some_iff.mp h
              have hlegal := readLoop_legal hread
              exact hlegal
  stop err := by
    rw [streamStopSending, hguard]

theorem sends_iff (hopen : b.isOpen = true) :
    b.Sends env id streamId ↔ (streamId.isServer && streamId.isUni) = false := by
  refine ⟨fun h => ?_, sends⟩
  by_contra hguard
  have hrefuses : b.RefusesSending env id streamId :=
    refusesSending hopen (Bool.eq_true_of_not_eq_false hguard)
  exact h.send [] false (congrArg Prod.snd (hrefuses.send [] false))

theorem receives_iff (hopen : b.isOpen = true) :
    b.Receives env id streamId ↔ (streamId.isClient && streamId.isUni) = false := by
  refine ⟨fun h => ?_, receives⟩
  by_contra hguard
  have hrefuses : b.RefusesReceiving env id streamId :=
    refusesReceiving hopen (Bool.eq_true_of_not_eq_false hguard)
  exact h.recv 0 0 _ (hrefuses.recv 0 0) rfl

end EndpointBackend

/-- A stream that one endpoint has opened inside `stream_open_send`, and two open endpoints that use
it. -/
structure OpenedStream {Conn End Cfg Incoming Signal Report : Type}
    (env : Env Conn End Cfg Incoming Signal Report) where
  opener : EndpointBackend Conn End Cfg
  peer : EndpointBackend Conn End Cfg
  id : QuinnConnectionId
  peerId : QuinnConnectionId
  connection : Conn
  bidirectional : Bool
  streamId : StreamId
  opened : (env.quinn.openStream connection (if bidirectional then .bi else .uni)).2 = some streamId
  opener_isOpen : opener.isOpen = true
  peer_isOpen : peer.isOpen = true

namespace OpenedStream

variable {Conn End Cfg Incoming Signal Report : Type}
  {env : Env Conn End Cfg Incoming Signal Report}

def UsableAtBoth (s : OpenedStream env) : Prop :=
  s.opener.Sends env s.id s.streamId ∧ s.peer.Receives env s.peerId s.streamId ∧
  (s.streamId.isUni = true → s.opener.RefusesReceiving env s.id s.streamId ∧
    s.peer.RefusesSending env s.peerId s.streamId)

theorem bits (hlib : env.quinn.OpensOwnStreams) (s : OpenedStream env) :
    s.streamId.isServer = env.quinn.isServer s.connection ∧
    s.streamId.isUni = !s.bidirectional := by
  have hopened : env.quinn.openStream s.connection _ = (_, some s.streamId) :=
    Prod.ext rfl s.opened
  refine ⟨hlib.isServer _ _ _ _ hopened, (hlib.isUni _ _ _ _ hopened).trans ?_⟩
  cases s.bidirectional <;> rfl

theorem usableAtBoth_iff (hlib : env.quinn.OpensOwnStreams) (s : OpenedStream env) :
    s.UsableAtBoth ↔ s.bidirectional = true := by
  unfold UsableAtBoth
  rw [EndpointBackend.sends_iff s.opener_isOpen, EndpointBackend.receives_iff s.peer_isOpen]
  rw [usable_iff, (s.bits hlib).2, Bool.not_eq_false']

end OpenedStream

end Quinn

/-! ## Both backends -/

/-- **A stream is usable at both endpoints exactly if it is bidirectional**, in both backends and
whichever role opens it. -/
theorem usable_at_both_iff {Conn Cfg G T Conn' End Cfg' Incoming Signal Report : Type}
    {env : Quiche.Env Conn Cfg G T} {env' : Quinn.Env Conn' End Cfg' Incoming Signal Report}
    (hlib : env'.quinn.OpensOwnStreams) (s : Quiche.OpenedStream env)
    (s' : Quinn.OpenedStream env') :
    (s.UsableAtBoth ↔ s.bidirectional = true) ∧ (s'.UsableAtBoth ↔ s'.bidirectional = true) :=
  ⟨s.usableAtBoth_iff, s'.usableAtBoth_iff hlib⟩

/-! ## A server -/

/-- Idle server connections, whose peers allow one unidirectional stream. -/
def Quiche.uniEnv : Quiche.Env Quiche.IdleConnection Unit Cid.RandomIdGenerator Unit :=
  { Quiche.QuicheBackend.idleEnv with
    quiche := { Quiche.idleLibrary with peerStreamsLeftUni := fun _ => 1 } }

/-- A server accepts a connection, and opens the unidirectional stream 3 on it. -/
theorem Quiche.exists_serverStream :
    ∃ (s : Running IdleConnection Unit Cid.RandomIdGenerator Unit) (o : OpenedStream uniEnv),
      Reachable Running.Init anyStep (Running.exec uniEnv) s ∧ o.opener = s.backend ∧ o.key = 0 ∧
      s.backend.connections.get 0 = some o.connection ∧ o.isServer = true ∧
      o.bidirectional = false ∧ o.streamId.raw = 3 ∧
      (s.backend.streamOpenSend uniEnv 0 false [1] false).2 = .error .illegal := by
  have hrun : ∃ s : Running IdleConnection Unit Cid.RandomIdGenerator Unit,
      Reachable Running.Init anyStep (Running.exec uniEnv) s ∧ decide (s.backend.isOpen = true ∧
        (s.backend.connections.get 0).any (fun c => decide (
          c.streamBidiSequence = .initial false true ∧ c.streamUniSequence = .initial false false)) ∧
        (s.backend.streamOpenSend uniEnv 0 false [1] false).2 = .error .illegal) = true :=
    exists_reachable ((QuicheBackend.idleServer 1 fun _ _ _ => true).map (⟨·, []⟩)) (fun s hs => by
        obtain ⟨b, hb, rfl⟩ := Option.map_eq_some_iff.mp hs
        exact Running.idleServer_init hb)
      [.recv [QuicheBackend.initialPacket [1, 2, 3] []] []]
      (by decide +kernel)
  obtain ⟨s, hs, hp⟩ := hrun
  obtain ⟨hopen, hsequences, hillegal⟩ := of_decide_eq_true hp
  obtain ⟨c, hget, hsequences⟩ := (Option.any_eq_true ..).mp hsequences
  obtain ⟨hbidi, huni⟩ := of_decide_eq_true hsequences
  -- the connection is a new one, but for its timers
  have hreached : Reachable (Connection.Init uniEnv.quiche true) anyStep Connection.exec c := by
    refine .step (.init ⟨c.inner, true, rfl, rfl⟩) trivial (i := .change fun _ => c) ?_
    refine congrArg some ?_
    show { c with
      streamBidiSequence := StreamId.initial false true
      streamUniSequence := StreamId.initial false false } = c
    rw [← hbidi, ← huni]
  have hallocated : (c.allocateStreamId false).map Prod.snd = some (.initial false false) := by
    rw [Connection.allocateStreamId, huni]
    rfl
  exact ⟨s, {
    opener := s.backend
    peer := s.backend
    key := 0
    peerKey := 0
    isServer := true
    connection := c
    reached := hreached
    bidirectional := false
    streamId := .initial false false
    allocated := hallocated
    opener_isOpen := hopen
    peer_isOpen := hopen }, hs, rfl, rfl, hget, rfl, rfl, rfl, hillegal⟩

/-- Fragile connections that open streams as clients do. -/
def Quinn.openingEnv : Quinn.Env Quinn.Fragile Unit Unit Unit Unit Unit :=
  { Quinn.fragileEnv with
    quinn :=
      { Quinn.fragileLibrary with
        openStream := fun c dir => (c, some (.initial true (dir == .bi))) } }

theorem Quinn.openingEnv_opensOwnStreams : openingEnv.quinn.OpensOwnStreams where
  isServer c dir inner streamId h := by
    cases h
    exact StreamId.isServer_initial ..
  isUni c dir inner streamId h := by
    cases h
    cases dir <;> rfl

/-- The stream that the server has opened, and a bidirectional stream of a client. -/
theorem usable_at_both_iff_pair :
    ∃ (s : Quiche.OpenedStream Quiche.uniEnv) (s' : Quinn.OpenedStream Quinn.openingEnv),
      s.isServer = true ∧ ¬ s.UsableAtBoth ∧ s'.UsableAtBoth := by
  obtain ⟨_, s, -, -, -, -, hserver, huni, -⟩ := Quiche.exists_serverStream
  let b : Quinn.EndpointBackend Quinn.Fragile Unit Unit :=
    .new { client := some (), server := none } () [] [] .localhost .zero
  let s' : Quinn.OpenedStream Quinn.openingEnv := {
    opener := b
    peer := b
    id := ⟨0, 0⟩
    peerId := ⟨0, 0⟩
    connection := .opened
    bidirectional := true
    streamId := .initial true true
    opened := rfl
    opener_isOpen := rfl
    peer_isOpen := rfl }
  obtain ⟨hquiche, hquinn⟩ := usable_at_both_iff Quinn.openingEnv_opensOwnStreams s s'
  refine ⟨s, s', hserver, fun husable => ?_, hquinn.mpr rfl⟩
  rw [hquiche, huni] at husable
  exact Bool.false_ne_true husable

/-- **A server cannot send on a unidirectional stream of its own**: `stream_open_send` allocates the
stream, and fails. -/
theorem server_stream_illegal :
    ∃ (s : Quiche.Running Quiche.IdleConnection Unit Cid.RandomIdGenerator Unit)
      (o : Quiche.OpenedStream Quiche.uniEnv),
      Reachable Quiche.Running.Init anyStep (Quiche.Running.exec Quiche.uniEnv) s ∧
      o.opener = s.backend ∧ s.backend.connections.get o.key = some o.connection ∧
      o.isServer = true ∧ o.streamId.raw = 3 ∧
      (s.backend.streamOpenSend Quiche.uniEnv o.key false [1] false).2 = .error .illegal ∧
      ¬ o.UsableAtBoth := by
  obtain ⟨s, o, hs, hopener, hkey, hget, hserver, huni, hid, hillegal⟩ := Quiche.exists_serverStream
  refine ⟨s, o, hs, hopener, hkey ▸ hget, hserver, hid, hkey ▸ hillegal, fun husable => ?_⟩
  rw [o.usableAtBoth_iff, huni] at husable
  exact Bool.false_ne_true husable

end Aquic.Backend

import Aquic.Backend.Quiche.Ledger
import Aquic.Lib.Trace
import Mathlib.Data.List.Count
import Mathlib.Logic.Relation

/-!
# Moves of the quiche backend

Most of what a backend does is of no concern to an application that waits: packets are moved, timers
are set, connections come and go. A few moves are, and leave a mark:

- `stream_open_send` is refused because the streams are exhausted;
- `dgram_recv` or `dgram_recv_zc` returns;
- `write_stream_dgram_events` polls a connection.

This module has the quiet moves and the marked ones, and shows for every function below the operations
which moves it makes.
-/

namespace Aquic.Backend

/-- The events that a waiting application waits for. -/
def Event.wakes {CId : Type} : Event CId → Bool
  | .connection (.streamsAvailable ..) => true
  | .datagram (.inAvailable _) => true
  | _ => false

section Count

variable {CId : Type} [DecidableEq CId] (connections : List (ConnectionEvent CId))
  (streams : List (StreamEvent CId)) (datagrams : List (DatagramEvent CId))

theorem count_connection (e : ConnectionEvent CId) :
    (connections.map Event.connection ++ streams.map Event.stream ++
      datagrams.map Event.datagram).count (Event.connection e) = connections.count e := by
  have hstreams : (streams.map Event.stream).count (Event.connection e) = 0 := by
    rw [List.count_eq_zero]
    simp
  have hdatagrams : (datagrams.map Event.datagram).count (Event.connection e) = 0 := by
    rw [List.count_eq_zero]
    simp
  rw [List.count_append, List.count_append, hstreams, hdatagrams]
  exact List.count_map_of_injective connections _ (fun _ _ => Event.connection.inj) e

theorem count_datagram (e : DatagramEvent CId) :
    (connections.map Event.connection ++ streams.map Event.stream ++
      datagrams.map Event.datagram).count (Event.datagram e) = datagrams.count e := by
  have hconnections : (connections.map Event.connection).count (Event.datagram e) = 0 := by
    rw [List.count_eq_zero]
    simp
  have hstreams : (streams.map Event.stream).count (Event.datagram e) = 0 := by
    rw [List.count_eq_zero]
    simp
  rw [List.count_append, List.count_append, hconnections, hstreams, Nat.zero_add]
  exact List.count_map_of_injective datagrams _ (fun _ _ => Event.datagram.inj) e

end Count

end Aquic.Backend

namespace Aquic.Backend.Quiche

open Aquic.Cid Aquic.Collections Aquic.Net Aquic.Stream Aquic.Timer Aquic.Tokens Aquic.Trace

/-! ## quiche -/

section Library

variable {Conn Cfg : Type}

/-- One call of a method that changes a connection. -/
inductive Library.Method (lib : Library Conn Cfg) : Conn → Conn → Prop
  | retiredScids (c : Conn) : Method lib c (lib.retiredScids c).1
  | newScid (c : Conn) (scid : List UInt8) (resetToken : Vector UInt8 16) :
      Method lib c (lib.newScid c scid resetToken).1
  | pathEvents (c : Conn) : Method lib c (lib.pathEvents c).1
  | onTimeout (c : Conn) : Method lib c (lib.onTimeout c)
  | close (c : Conn) (app : Bool) (code : Nat) (reason : List UInt8) :
      Method lib c (lib.close c app code reason).1
  | send (c : Conn) (bufLen : Nat) : Method lib c (lib.send c bufLen).1
  | recv (c : Conn) (payload : List UInt8) (route : Route) : Method lib c (lib.recv c payload route).1
  | readableStreams (c : Conn) : Method lib c (lib.readableStreams c).1
  | writableStreams (c : Conn) : Method lib c (lib.writableStreams c).1
  | migrateSource (c : Conn) (localAddr : SocketAddr) : Method lib c (lib.migrateSource c localAddr).1
  | streamRecv (c : Conn) (streamId outLen : Nat) : Method lib c (lib.streamRecv c streamId outLen).1
  | streamSendZc (c : Conn) (streamId : Nat) (bytes : List UInt8) (fin : Bool) :
      Method lib c (lib.streamSendZc c streamId bytes fin).1
  | streamShutdown (c : Conn) (streamId : Nat) (write : Bool) (err : Nat) :
      Method lib c (lib.streamShutdown c streamId write err)
  | streamPriority (c : Conn) (streamId : Nat) (urgency : UInt8) (incremental : Bool) :
      Method lib c (lib.streamPriority c streamId urgency incremental)
  | dgramRecvVec (c : Conn) : Method lib c (lib.dgramRecvVec c).1
  | dgramSend (c : Conn) (bytes : List UInt8) : Method lib c (lib.dgramSend c bytes).1

theorem Library.Method.of_eq {ε : Type} {lib : Library Conn Cfg} {c inner : Conn} {r : Conn × ε}
    {x : ε} (heq : r = (inner, x)) (h : lib.Method c r.1) : lib.Method c inner := by
  rw [heq] at h
  exact h

/-- Any number of calls. -/
abbrev Library.Methods (lib : Library Conn Cfg) : Conn → Conn → Prop :=
  Relation.ReflTransGen lib.Method

namespace Connection

/-- A connection was changed, but not what it waits for. -/
structure Edits (lib : Library Conn Cfg) (c c' : Connection Conn) : Prop where
  inner : lib.Methods c.inner c'.inner
  verified : c'.peerAddressVerified = c.peerAddressVerified
  bidi : c'.streamsBidiExhausted = c.streamsBidiExhausted
  uni : c'.streamsUniExhausted = c.streamsUniExhausted
  drained : c'.dgramInDrained = c.dgramInDrained

variable {lib : Library Conn Cfg} {c c' c'' : Connection Conn}

theorem Edits.refl (c : Connection Conn) : Edits lib c c := ⟨.refl, rfl, rfl, rfl, rfl⟩

theorem Edits.trans (h : Edits lib c c') (h' : Edits lib c' c'') : Edits lib c c'' where
  inner := h.inner.trans h'.inner
  verified := h'.verified.trans h.verified
  bidi := h'.bidi.trans h.bidi
  uni := h'.uni.trans h.uni
  drained := h'.drained.trans h.drained

theorem Edits.methods {inner : Conn} (h : lib.Methods c.inner inner) :
    Edits lib c { c with inner } :=
  ⟨h, rfl, rfl, rfl, rfl⟩

theorem Edits.method {inner : Conn} (h : lib.Method c.inner inner) : Edits lib c { c with inner } :=
  .methods (.single h)

theorem setTimerKey_edits (lib : Library Conn Cfg) (c : Connection Conn) (kind : TimerKind)
    (key : Option TimerKey) : Edits lib c (c.setTimerKey kind key) := by
  cases kind <;> exact ⟨.refl, rfl, rfl, rfl, rfl⟩

theorem popTimerKey_edits (lib : Library Conn Cfg) (c : Connection Conn) (kind : TimerKind) :
    Edits lib c (c.popTimerKey kind).1 := by
  cases kind <;> exact ⟨.refl, rfl, rfl, rfl, rfl⟩

/-- What the getters of events share, those of the events apart that an application waits for. -/
def Unheard {ε : Type} (lib : Library Conn Cfg) (wrap : ε → Event ConnectionKey)
    (c : Connection Conn) (r : Connection Conn × Option ε) : Prop :=
  Edits lib c r.1 ∧ ∀ e ∈ r.2.toList, (wrap e).wakes = false

/-- The connection may be edited first. -/
theorem Unheard.of_edits {ε : Type} {wrap : ε → Event ConnectionKey}
    {r : Connection Conn × Option ε} (h : Edits lib c c') (h' : Unheard lib wrap c' r) :
    Unheard lib wrap c r :=
  ⟨h.trans h'.1, h'.2⟩

theorem Unheard.events {ε : Type} {wrap : ε → Event ConnectionKey}
    {r : Connection Conn × Option ε} (h : Unheard lib wrap c r) :
    ∀ e ∈ r.2.toList.map wrap, e.wakes = false := by
  intro e he
  obtain ⟨event, hevent, rfl⟩ := List.mem_map.mp he
  exact h.2 event hevent

theorem unheard_none {ε : Type} (lib : Library Conn Cfg) (wrap : ε → Event ConnectionKey)
    (c : Connection Conn) : Unheard lib wrap c (c, none) :=
  ⟨.refl c, fun _ he => absurd he List.not_mem_nil⟩

theorem unheard_if {ε : Type} (p : Prop) [Decidable p] {wrap : ε → Event ConnectionKey}
    {r : Connection Conn × Option ε} (h : Unheard lib wrap c r) :
    Unheard lib wrap c (if p then r else (c, none)) := by
  split
  · exact h
  · exact unheard_none lib wrap c

theorem getHaltEvent_unheard (lib : Library Conn Cfg) (c : Connection Conn) (key : ConnectionKey)
    (kind : HaltKind) : Unheard lib .connection c (c.getHaltEvent key kind) := by
  unfold getHaltEvent
  split
  · exact unheard_none lib _ c
  · refine ⟨⟨.refl, rfl, rfl, rfl, rfl⟩, ?_⟩
    intro e he
    cases List.mem_singleton.mp he
    rfl

theorem getCloseEvent_unheard (lib : Library Conn Cfg) (c : Connection Conn)
    (key : ConnectionKey) : Unheard lib .connection c (c.getCloseEvent lib key) := by
  unfold getCloseEvent
  split
  · exact unheard_none lib _ c
  · refine ⟨⟨.refl, rfl, rfl, rfl, rfl⟩, ?_⟩
    intro e he
    cases List.mem_singleton.mp he
    split
    · rfl
    · split <;> rfl

theorem getDgramOutSizeEvent_unheard (lib : Library Conn Cfg) (c : Connection Conn)
    (key : ConnectionKey) : Unheard lib .datagram c (c.getDgramOutSizeEvent lib key) := by
  unfold getDgramOutSizeEvent
  simp only
  split
  · exact unheard_none lib _ c
  · refine ⟨⟨.refl, rfl, rfl, rfl, rfl⟩, ?_⟩
    intro e he
    cases List.mem_singleton.mp he
    rfl

/-- An application was refused a stream of this direction. -/
def exhausted (c : Connection Conn) (bidirectional : Bool) : Bool :=
  if bidirectional then c.streamsBidiExhausted else c.streamsUniExhausted

/-- quiche reports streams left in this direction, and the sequence of ids is not at its end. -/
def offers (lib : Library Conn Cfg) (c : Connection Conn) (bidirectional : Bool) : Bool :=
  c.peerStreamsLeft lib bidirectional != 0 &&
    (if bidirectional then c.streamBidiSequence else c.streamUniSequence).next.isSome

theorem count_streamsAvailable (lib : Library Conn Cfg) (c : Connection Conn)
    (key k : ConnectionKey) (bidirectional : Bool) :
    (c.getConnectionStreamsAvailableEvents lib key).2.count (.streamsAvailable k bidirectional) =
      if k = key ∧ c.exhausted bidirectional = true ∧ c.offers lib bidirectional = true then 1
      else 0 := by
  have hoffers : (c.getConnectionStreamsAvailableEvents lib key).2 =
      (if c.exhausted true && c.offers lib true then [.streamsAvailable key true] else []) ++
        if c.exhausted false && c.offers lib false then [.streamsAvailable key false] else [] := by
    simp [getConnectionStreamsAvailableEvents, exhausted, offers, peerStreamsLeft, Bool.and_assoc]
  rw [hoffers, List.count_append]
  by_cases hkey : k = key
  · subst hkey
    cases bidirectional <;> grind
  · grind

/-- The datagram events of `write_stream_dgram_events`. -/
def datagramEvents (lib : Library Conn Cfg) (c : Connection Conn) (key : ConnectionKey) :
    Connection Conn × List (DatagramEvent ConnectionKey) :=
  let (c, inAvailable) :=
    if lib.isDgramRecvQueueFull c.inner then (c, none) else c.getDgramInAvailableEvent key
  let (c, outAvailable) :=
    if lib.isDgramSendQueueFull c.inner then (c, none) else c.getDgramOutAvailableEvent key
  let (c, outSize) := c.getDgramOutSizeEvent lib key
  (c, inAvailable.toList ++ outAvailable.toList ++ outSize.toList)

/-- What becomes of the connection in `write_stream_dgram_events`, and the events. -/
def poll (lib : Library Conn Cfg) (c : Connection Conn) (key : ConnectionKey) :
    Connection Conn × List (Event ConnectionKey) :=
  let streams := c.getConnectionStreamsAvailableEvents lib key
  let readable := lib.readableStreams streams.1.inner
  let writable := lib.writableStreams readable.1
  let available := (readable.2 ++ writable.2).filterMap fun id =>
    (StreamId.new id).map (StreamEvent.available key)
  let datagrams := { streams.1 with inner := writable.1 }.datagramEvents lib key
  (datagrams.1,
    streams.2.map .connection ++ available.map .stream ++ datagrams.2.map .datagram)

/-- A getter of events about outgoing datagrams. -/
def Outgoing (c : Connection Conn) (r : Connection Conn × Option (DatagramEvent ConnectionKey)) :
    Prop :=
  (∃ outDrained outMaxSize, r.1 =
    { c with dgramOutDrained := outDrained, dgramOutMaxSize := outMaxSize }) ∧
  ∀ k, r.2.toList.count (.inAvailable k) = 0

theorem outgoing_none (c : Connection Conn) : Outgoing c (c, none) := ⟨⟨_, _, rfl⟩, fun _ => rfl⟩

theorem getDgramOutAvailableEvent_outgoing (c : Connection Conn) (key : ConnectionKey) :
    Outgoing c (c.getDgramOutAvailableEvent key) := by
  unfold getDgramOutAvailableEvent
  split
  · exact ⟨⟨_, _, rfl⟩, fun _ => rfl⟩
  · exact outgoing_none c

theorem getDgramOutSizeEvent_outgoing (lib : Library Conn Cfg) (c : Connection Conn)
    (key : ConnectionKey) : Outgoing c (c.getDgramOutSizeEvent lib key) := by
  unfold getDgramOutSizeEvent
  simp only
  split
  · exact outgoing_none c
  · exact ⟨⟨_, _, rfl⟩, fun _ => rfl⟩

theorem datagramEvents_spec (lib : Library Conn Cfg) (c : Connection Conn) (key : ConnectionKey) :
    (∃ outDrained outMaxSize, (c.datagramEvents lib key).1 =
      { c with
        dgramInDrained := c.dgramInDrained && lib.isDgramRecvQueueFull c.inner
        dgramOutDrained := outDrained
        dgramOutMaxSize := outMaxSize }) ∧
    ∀ k, (c.datagramEvents lib key).2.count (.inAvailable k) =
      if k = key ∧ c.dgramInDrained = true ∧ lib.isDgramRecvQueueFull c.inner = false then 1
      else 0 := by
  have hin : (if lib.isDgramRecvQueueFull c.inner then (c, none)
      else c.getDgramInAvailableEvent key) =
      ({ c with dgramInDrained := c.dgramInDrained && lib.isDgramRecvQueueFull c.inner },
        if c.dgramInDrained && !lib.isDgramRecvQueueFull c.inner then
          some (DatagramEvent.inAvailable key) else none) := by
    unfold getDgramInAvailableEvent
    have hsame {drained : Bool} (h : c.dgramInDrained = drained) :
        { c with dgramInDrained := drained } = c := by
      subst h
      rfl
    cases hdrained : c.dgramInDrained <;> cases lib.isDgramRecvQueueFull c.inner <;>
      simp [hsame hdrained]
  unfold datagramEvents
  rw [hin]
  generalize hc₁ : { c with
    dgramInDrained := c.dgramInDrained && lib.isDgramRecvQueueFull c.inner } = c₁
  have hout : Outgoing c₁ (if lib.isDgramSendQueueFull c₁.inner then (c₁, none)
      else c₁.getDgramOutAvailableEvent key) := by
    split
    · exact outgoing_none c₁
    · exact getDgramOutAvailableEvent_outgoing c₁ key
  simp only
  generalize (if lib.isDgramSendQueueFull c₁.inner then (c₁, none)
      else c₁.getDgramOutAvailableEvent key) = out at hout ⊢
  obtain ⟨c₂, outAvailable⟩ := out
  obtain ⟨⟨outDrained, outMaxSize, rfl⟩, hcount⟩ := hout
  have hsize := getDgramOutSizeEvent_outgoing lib
    { c₁ with dgramOutDrained := outDrained, dgramOutMaxSize := outMaxSize } key
  simp only
  generalize getDgramOutSizeEvent lib _ key = size at hsize ⊢
  obtain ⟨c₃, outSize⟩ := size
  obtain ⟨⟨outDrained', outMaxSize', rfl⟩, hcount'⟩ := hsize
  subst hc₁
  refine ⟨⟨outDrained', outMaxSize', rfl⟩, ?_⟩
  intro k
  rw [List.count_append, List.count_append, hcount k, hcount' k]
  by_cases hkey : k = key
  · subst hkey
    cases c.dgramInDrained <;> cases lib.isDgramRecvQueueFull c.inner <;> simp
  · grind

/-- What a poll does to a connection, and which events it pushes that an application waits for. The
flag of unidirectional streams is not cleared. -/
structure Polls (lib : Library Conn Cfg) (key : ConnectionKey) (c c' : Connection Conn)
    (events : List (Event ConnectionKey)) : Prop where
  inner : lib.Methods c.inner c'.inner
  verified : c'.peerAddressVerified = c.peerAddressVerified
  bidi : c'.streamsBidiExhausted = (c.streamsBidiExhausted && !c.offers lib true)
  uni : c'.streamsUniExhausted = c.streamsUniExhausted
  drained : c'.dgramInDrained = (c.dgramInDrained && lib.isDgramRecvQueueFull c'.inner)
  streams k bidirectional : events.count (.connection (.streamsAvailable k bidirectional)) =
    if k = key ∧ c.exhausted bidirectional = true ∧ c.offers lib bidirectional = true then 1 else 0
  datagrams k : events.count (.datagram (.inAvailable k)) =
    if k = key ∧ c.dgramInDrained = true ∧ lib.isDgramRecvQueueFull c'.inner = false then 1 else 0

theorem poll_polls (lib : Library Conn Cfg) (c : Connection Conn) (key : ConnectionKey) :
    Polls lib key c (c.poll lib key).1 (c.poll lib key).2 := by
  have hcleared : (c.getConnectionStreamsAvailableEvents lib key).1 =
      { c with streamsBidiExhausted := c.streamsBidiExhausted && !c.offers lib true } := by
    cases hflag : c.streamsBidiExhausted <;>
      simp [getConnectionStreamsAvailableEvents, offers, peerStreamsLeft, hflag]
  have hstreams := count_streamsAvailable lib c key
  unfold poll
  simp only [hcleared]
  obtain ⟨⟨outDrained, outMaxSize, hafter⟩, hdatagrams⟩ := datagramEvents_spec lib
    { c with
      inner := (lib.writableStreams (lib.readableStreams c.inner).1).1
      streamsBidiExhausted := c.streamsBidiExhausted && !c.offers lib true } key
  have hmethods : lib.Methods c.inner (lib.writableStreams (lib.readableStreams c.inner).1).1 :=
    .tail (.single (.readableStreams c.inner)) (.writableStreams _)
  exact {
    inner := by rw [hafter]; exact hmethods
    verified := by rw [hafter]
    bidi := by rw [hafter]
    uni := by rw [hafter]
    drained := by rw [hafter]
    streams := fun k bidirectional => (count_connection ..).trans (hstreams k bidirectional)
    datagrams := by
      intro k
      rw [hafter]
      exact (count_datagram ..).trans (hdatagrams k) }

/-- What an application waits for: streams of both directions, and datagrams. -/
def waits (c : Connection Conn) : Bool × Bool × Bool :=
  (c.streamsBidiExhausted, c.streamsUniExhausted, c.dgramInDrained)

theorem Edits.waits (h : Edits lib c c') : c'.waits = c.waits := by
  unfold Connection.waits
  rw [h.bidi, h.uni, h.drained]

/-- Nothing waits on a new connection. -/
def Idle (c : Connection Conn) : Prop := c.waits = (false, false, false)

theorem new_idle (lib : Library Conn Cfg) (inner : Conn) (verified : Bool) :
    (Connection.new lib inner verified).Idle :=
  rfl

end Connection

end Library

/-! ## Moves -/

/-- How a call of `dgram_recv` or `dgram_recv_zc` ended. -/
inductive ReadOutcome where
  /-- quiche had no datagram; `0` or `None` is returned. -/
  | missing
  /-- `dgram_recv` found an empty datagram, and returns `0` as well. -/
  | empty
  | other
  deriving DecidableEq, Repr

inductive Mark (Conn : Type) where
  /-- `stream_open_send` returned `StreamsExhausted`. -/
  | refused (key : ConnectionKey) (bidirectional : Bool)
  | read (key : ConnectionKey) (outcome : ReadOutcome)
  /-- `write_stream_dgram_events` found the connection in one state and left it in another, and pushed
  these events. -/
  | polled (key : ConnectionKey) (before after : Connection Conn)
      (events : List (Event ConnectionKey))

/-- The connection that a mark is about. -/
def Mark.key {Conn : Type} : Mark Conn → ConnectionKey
  | .refused key _ => key
  | .read key _ => key
  | .polled key .. => key

/-- The events that the move pushed. -/
def Mark.events {Conn : Type} : Mark Conn → List (Event ConnectionKey)
  | .polled _ _ _ events => events
  | _ => []

/-- What the connection waits for after the mark. -/
def Mark.waits {Conn Cfg : Type} (lib : Library Conn Cfg) :
    Mark Conn → Bool × Bool × Bool → Bool × Bool × Bool
  | .refused _ bidirectional, (bidi, uni, drained) =>
    (bidi || bidirectional, uni || !bidirectional, drained)
  | .read _ outcome, (bidi, uni, drained) => (bidi, uni, drained || outcome = .missing)
  | .polled _ before after _, (bidi, uni, drained) =>
    (bidi && !before.offers lib true, uni, drained && lib.isDgramRecvQueueFull after.inner)

namespace QuicheBackend

variable {Conn Cfg G T : Type} (env : Env Conn Cfg G T)

/-- A quiet move. -/
inductive Step : QuicheBackend Conn Cfg G T → QuicheBackend Conn Cfg G T → Prop
  | edit {b : QuicheBackend Conn Cfg G T} {key : ConnectionKey} {c c' : Connection Conn}
      (hget : b.connections.get key = some c) (hedits : c.Edits env.quiche c') :
      Step b (b.put key c')
  /-- Anything but the connections, their counters, and the events that an application waits for. -/
  | other {b b' : QuicheBackend Conn Cfg G T} (events : List (Event ConnectionKey))
      (hall : b'.connections.all = b.connections.all)
      (hserver : b'.connections.serverConnectionsCount = b.connections.serverConnectionsCount)
      (hunverified : b'.connections.serverUnverifiedConnectionsCount =
        b.connections.serverUnverifiedConnectionsCount)
      (hevents : b'.events = b.events ++ events) (hunheard : ∀ e ∈ events, e.wakes = false) :
      Step b b'
  | register {b : QuicheBackend Conn Cfg G T} {c : Connection Conn} {peerAddr : SocketAddr}
      {connections : Connections Conn} {key : ConnectionKey} (hidle : c.Idle)
      (hinsert : b.connections.insert env.quiche c peerAddr = some (connections, key)) :
      Step b { b with connections }
  | remove {b : QuicheBackend Conn Cfg G T} {c : Connection Conn} {connections : Connections Conn}
      {key : ConnectionKey}
      (hremove : b.connections.remove env.quiche key = some (connections, c)) :
      Step b { b with connections }
  | verify (b : QuicheBackend Conn Cfg G T) (key : ConnectionKey) :
      Step b { b with connections := b.connections.markVerified env.quiche key }

/-- The events that were pushed between two states. -/
def newEvents (b b' : QuicheBackend Conn Cfg G T) : List (Event ConnectionKey) :=
  b'.events.drop b.events.length

/-- A move that leaves a mark. -/
inductive Marked : QuicheBackend Conn Cfg G T → Mark Conn → QuicheBackend Conn Cfg G T → Prop
  | refuse {b : QuicheBackend Conn Cfg G T} {key : ConnectionKey} {c : Connection Conn}
      (hget : b.connections.get key = some c) (bidirectional : Bool) :
      Marked b (.refused key bidirectional) (b.put key (c.setStreamsExhausted bidirectional))
  | miss {b : QuicheBackend Conn Cfg G T} {key : ConnectionKey} {c : Connection Conn} {inner : Conn}
      (hget : b.connections.get key = some c) (hmethod : env.quiche.Method c.inner inner) :
      Marked b (.read key .missing) (b.put key { c with inner, dgramInDrained := true })
  | read {b : QuicheBackend Conn Cfg G T} {key : ConnectionKey} {c : Connection Conn} {inner : Conn}
      {outcome : ReadOutcome} (hget : b.connections.get key = some c)
      (hmethod : env.quiche.Method c.inner inner) (houtcome : outcome ≠ .missing) :
      Marked b (.read key outcome) (b.put key { c with inner })
  /-- The backend is closed, or there is no such connection. -/
  | fail (b : QuicheBackend Conn Cfg G T) (key : ConnectionKey) : Marked b (.read key .other) b
  | poll {b : QuicheBackend Conn Cfg G T} {key : ConnectionKey} {c c' : Connection Conn}
      (hget : b.connections.get key = some c)
      (hget' : (b.writeStreamDgramEvents env key).connections.get key = some c') :
      Marked b (.polled key c c' (newEvents b (b.writeStreamDgramEvents env key)))
        (b.writeStreamDgramEvents env key)

/-- From one state to another, with the marks on the way. -/
abbrev Moves : QuicheBackend Conn Cfg G T → List (Mark Conn) → QuicheBackend Conn Cfg G T → Prop :=
  Path (Step env) (Marked env)

abbrev Quiet (b b' : QuicheBackend Conn Cfg G T) : Prop := Moves env b [] b'

variable {env} {b b' b'' : QuicheBackend Conn Cfg G T} {key : ConnectionKey}
  {c c' : Connection Conn} {marks marks' : List (Mark Conn)}

theorem Quiet.of_step (h : Step env b b') : Quiet env b b' := .quiet (.nil b) h

theorem Quiet.trans (h : Quiet env b b') (h' : Quiet env b' b'') : Quiet env b b'' := h.append h'

theorem Quiet.moves (h : Quiet env b b') (h' : Moves env b' marks b'') : Moves env b marks b'' :=
  h.append h'

theorem Moves.quiet (h : Moves env b marks b') (h' : Quiet env b' b'') : Moves env b marks b'' := by
  have happend := h.append h'
  rw [List.append_nil] at happend
  exact happend

theorem Quiet.of_eq (hconnections : b'.connections = b.connections) (hevents : b'.events = b.events) :
    Quiet env b b' := by
  refine .of_step (.other [] ?_ ?_ ?_ ?_ ?_)
  · rw [hconnections]
  · rw [hconnections]
  · rw [hconnections]
  · rw [hevents, List.append_nil]
  · intro e he
    cases he

/-- The queue of active connections does not matter. -/
theorem Quiet.active {connections : Connections Conn}
    (h : ∃ active, connections = { b.connections with active }) :
    Quiet env b { b with connections } := by
  obtain ⟨active, rfl⟩ := h
  exact .of_step (.other [] rfl rfl rfl (List.append_nil _).symm nofun)

theorem Quiet.push (b : QuicheBackend Conn Cfg G T) {events : List (Event ConnectionKey)}
    (hunheard : ∀ e ∈ events, e.wakes = false) : Quiet env b (b.push events) :=
  .of_step (.other events rfl rfl rfl rfl hunheard)

theorem Quiet.edit (hget : b.connections.get key = some c) (hedits : c.Edits env.quiche c') :
    Quiet env b (b.put key c') :=
  .of_step (.edit hget hedits)

/-- A connection is written back and the events about it are pushed. -/
theorem Quiet.report {ε : Type} {wrap : ε → Event ConnectionKey} {r : Connection Conn × Option ε}
    (hget : b.connections.get key = some c) (h : c.Unheard env.quiche wrap r) :
    Quiet env b ((b.put key r.1).push (r.2.toList.map wrap)) := by
  exact (Quiet.edit hget h.1).trans (.push _ h.events)

/-- … and so are two, one after the other. -/
theorem Quiet.reports {ε : Type} {wrap : ε → Event ConnectionKey}
    {r r' : Connection Conn × Option ε} (hget : b.connections.get key = some c)
    (h : c.Unheard env.quiche wrap r) (h' : r.1.Unheard env.quiche wrap r') :
    Quiet env b ((b.put key r'.1).push ((r.2.toList ++ r'.2.toList).map wrap)) := by
  refine (Quiet.edit hget (h.1.trans h'.1)).trans (.push _ ?_)
  intro e he
  rw [List.map_append, List.mem_append] at he
  rcases he with he | he
  · exact h.events e he
  · exact h'.events e he

theorem foldl_quiet {α : Type} {f : QuicheBackend Conn Cfg G T → α → QuicheBackend Conn Cfg G T}
    (hf : ∀ b x, Quiet env b (f b x)) (xs : List α) (b : QuicheBackend Conn Cfg G T) :
    Quiet env b (xs.foldl f b) := by
  induction xs generalizing b with
  | nil => exact .nil b
  | cons x xs ih => exact (hf b x).trans (ih (f b x))

/-! ## What moves change -/

theorem writeStreamDgramEvents_eq (hget : b.connections.get key = some c) :
    b.writeStreamDgramEvents env key =
      (b.put key (c.poll env.quiche key).1).push (c.poll env.quiche key).2 := by
  unfold writeStreamDgramEvents
  rw [hget]
  rfl

theorem Marked.polled {before after : Connection Conn} {events : List (Event ConnectionKey)}
    (h : Marked env b (.polled key before after events) b') :
    b.connections.get key = some before ∧ before.Polls env.quiche key after events ∧
      b'.connections = b.connections.put key after ∧ b'.events = b.events ++ events := by
  cases h with
  | poll hget hget' =>
    rw [writeStreamDgramEvents_eq hget] at hget' ⊢
    have hpolls := before.poll_polls env.quiche key
    have hafter : (before.poll env.quiche key).1 = after :=
      Option.some.inj ((get_put hget _).symm.trans hget')
    have hevents : newEvents b ((b.put key after).push (before.poll env.quiche key).2) =
        (before.poll env.quiche key).2 := List.drop_left
    rw [hafter] at hpolls ⊢
    rw [hevents]
    exact ⟨hget, hpolls, rfl, rfl⟩

theorem all_of_remove {connections connections' : Connections Conn}
    (h : connections.remove env.quiche key = some (connections', c)) :
    connections'.all = connections.all.remove key := by
  simp only [Connections.remove, Option.bind_eq_bind, Option.bind_eq_some_iff] at h
  obtain ⟨c₀, -, h⟩ := h
  obtain ⟨rfl, -⟩ := Prod.mk.inj (Option.some.inj h)
  rfl

/-- A connection that is written back is one that was there. -/
theorem get_put_cases (hget : b.connections.get key = some c) {k : ConnectionKey}
    {c₁ : Connection Conn} (h : (b.connections.put key c').get k = some c₁) :
    (k = key ∧ c₁ = c') ∨ (k ≠ key ∧ b.connections.get k = some c₁) := by
  change (b.connections.all.set key c').get k = some c₁ at h
  rw [Slots.get_set (Option.isSome_of_eq_some hget)] at h
  split at h
  · next hk => exact .inl ⟨hk, (Option.some.inj h).symm⟩
  · next hk => exact .inr ⟨hk, h⟩

/-- After a quiet move a connection waits for what it waited for, or it is new. -/
theorem Step.get (h : Step env b b') {k : ConnectionKey} (hget : b'.connections.get k = some c') :
    (∃ c, b.connections.get k = some c ∧ c'.waits = c.waits) ∨
      (k = b.connections.all.slots.length ∧ c'.Idle) := by
  cases h with
  | edit hold hedits =>
    rcases get_put_cases hold hget with ⟨rfl, rfl⟩ | ⟨-, hget⟩
    · exact .inl ⟨_, hold, hedits.waits⟩
    · exact .inl ⟨c', hget, rfl⟩
  | other _ hall =>
    unfold Connections.get at hget
    rw [hall] at hget
    exact .inl ⟨c', hget, rfl⟩
  | register hidle hinsert =>
    obtain ⟨rfl, hall, -⟩ := Connections.insert_cases hinsert
    change Slots.get _ k = some c' at hget
    rw [hall, Slots.get_push] at hget
    split at hget
    · next hk =>
      cases hget
      exact .inr ⟨hk, hidle⟩
    · exact .inl ⟨c', hget, rfl⟩
  | remove hremove =>
    change Slots.get _ k = some c' at hget
    rw [all_of_remove hremove, Slots.get_remove] at hget
    split at hget
    · cases hget
    · exact .inl ⟨c', hget, rfl⟩
  | verify key =>
    unfold Connections.markVerified at hget
    cases hold : b.connections.get key with
    | none =>
      simp only [hold] at hget
      exact .inl ⟨c', hget, rfl⟩
    | some c =>
      simp only [hold] at hget
      split at hget
      · rcases get_put_cases hold hget with ⟨rfl, rfl⟩ | ⟨-, hget⟩
        · exact .inl ⟨c, hold, rfl⟩
        · exact .inl ⟨c', hget, rfl⟩
      · exact .inl ⟨c', hget, rfl⟩

theorem length_put (b : QuicheBackend Conn Cfg G T) (key : ConnectionKey) (c : Connection Conn) :
    (b.connections.put key c).all.slots.length = b.connections.all.slots.length :=
  List.length_set

theorem Step.length_le (h : Step env b b') :
    b.connections.all.slots.length ≤ b'.connections.all.slots.length := by
  cases h with
  | edit => exact (length_put ..).ge
  | other _ hall => exact (congrArg (List.length ∘ Slots.slots) hall).ge
  | register hidle hinsert =>
    obtain ⟨-, hall, -⟩ := Connections.insert_cases hinsert
    show _ ≤ (Slots.slots _).length
    rw [hall]
    simp [Slots.push]
  | remove hremove =>
    show _ ≤ (Slots.slots _).length
    rw [all_of_remove hremove]
    exact List.length_set.ge
  | verify key =>
    unfold Connections.markVerified
    split
    · exact le_refl _
    · split
      · exact (length_put ..).ge
      · exact le_refl _

/-- The connection that a mark is about was written back. -/
theorem waits_put {m : Mark Conn} (hold : b.connections.get m.key = some c)
    (hwaits : c'.waits = m.waits env.quiche c.waits) {k : ConnectionKey} {c₁ : Connection Conn}
    (hget : (b.connections.put m.key c').get k = some c₁) : ∃ c₀, b.connections.get k = some c₀ ∧
      c₁.waits = if m.key = k then m.waits env.quiche c₀.waits else c₀.waits := by
  rcases get_put_cases hold hget with ⟨rfl, rfl⟩ | ⟨hk, hget⟩
  · exact ⟨c, hold, by rw [if_pos rfl, hwaits]⟩
  · exact ⟨c₁, hget, by rw [if_neg (Ne.symm hk)]⟩

/-- After a marked move, a connection waits for what the mark says. -/
theorem Marked.get {m : Mark Conn} (h : Marked env b m b') {k : ConnectionKey}
    (hget : b'.connections.get k = some c') : ∃ c, b.connections.get k = some c ∧
      c'.waits = if m.key = k then m.waits env.quiche c.waits else c.waits := by
  cases h with
  | refuse hold bidirectional =>
    refine waits_put (m := .refused _ bidirectional) hold ?_ hget
    cases bidirectional <;> simp [Mark.waits, Connection.waits, Connection.setStreamsExhausted]
  | miss hold hmethod =>
    refine waits_put (m := .read _ .missing) hold ?_ hget
    simp [Mark.waits, Connection.waits]
  | read hold hmethod houtcome =>
    refine waits_put (m := .read _ _) hold ?_ hget
    simp [Mark.waits, Connection.waits, houtcome]
  | fail key => exact ⟨c', hget, by simp [Mark.waits]⟩
  | poll hold hafter =>
    obtain ⟨-, hpolls, hconnections, -⟩ := (Marked.poll hold hafter).polled
    rw [hconnections] at hget
    refine waits_put (m := .polled _ _ _ _) hold ?_ hget
    simp [Mark.waits, Connection.waits, hpolls.bidi, hpolls.uni, hpolls.drained]

theorem Marked.length_eq {m : Mark Conn} (h : Marked env b m b') :
    b'.connections.all.slots.length = b.connections.all.slots.length := by
  cases h with
  | refuse => exact length_put ..
  | miss => exact length_put ..
  | read => exact length_put ..
  | fail => rfl
  | poll hget =>
    rw [writeStreamDgramEvents_eq hget]
    exact length_put ..

/-- Nothing is waited for before there is a connection. -/
theorem Marked.waits_of_length_le {m : Mark Conn} (h : Marked env b m b')
    (hlength : b.connections.all.slots.length ≤ m.key) :
    m.waits env.quiche (false, false, false) = (false, false, false) := by
  have hold {c : Connection Conn} (hget : b.connections.get m.key = some c) : False :=
    absurd (Slots.lt_of_get hget) (Nat.not_lt.mpr hlength)
  cases h with
  | refuse hget => exact (hold hget).elim
  | miss hget => exact (hold hget).elim
  | read hget => exact (hold hget).elim
  | fail => rfl
  | poll hget => exact (hold hget).elim

/-- A quiet move pushes nothing that an application waits for. -/
theorem Step.events (h : Step env b b') :
    ∃ events, b'.events = b.events ++ events ∧ ∀ e ∈ events, e.wakes = false := by
  cases h with
  | other events _ _ _ hevents hunheard => exact ⟨events, hevents, hunheard⟩
  | edit => exact ⟨[], (List.append_nil _).symm, nofun⟩
  | register => exact ⟨[], (List.append_nil _).symm, nofun⟩
  | remove => exact ⟨[], (List.append_nil _).symm, nofun⟩
  | verify => exact ⟨[], (List.append_nil _).symm, nofun⟩

theorem Marked.events {m : Mark Conn} (h : Marked env b m b') :
    b'.events = b.events ++ m.events := by
  cases h with
  | poll hold hafter => exact (Marked.poll hold hafter).polled.2.2.2
  | refuse => exact (List.append_nil _).symm
  | miss => exact (List.append_nil _).symm
  | read => exact (List.append_nil _).symm
  | fail => exact (List.append_nil _).symm

/-! ## Functions below the operations -/

variable (env) in
theorem getMarkActive_quiet {connections : Connections Conn}
    (h : b.connections.getMarkActive key = some (connections, c)) :
    connections.get key = some c ∧ Quiet env b { b with connections } := by
  obtain ⟨c₁, hget, heq⟩ := Option.map_eq_some_iff.mp h
  obtain ⟨rfl, rfl⟩ := Prod.mk.inj heq
  exact ⟨hget, .active ⟨_, rfl⟩⟩

theorem markActive_quiet (b : QuicheBackend Conn Cfg G T) (key : ConnectionKey) :
    Quiet env b (b.markActive key) := by
  unfold markActive Connections.markActive
  apply Quiet.active
  split
  · exact ⟨_, rfl⟩
  · exact ⟨b.connections.active, rfl⟩

theorem forgetConnection_quiet (b : QuicheBackend Conn Cfg G T) (key : ConnectionKey) :
    Quiet env b (b.forgetConnection env key) := by
  unfold forgetConnection
  split
  · exact .nil b
  · next connections c hremove =>
    have hunheard := c.getCloseEvent_unheard env.quiche key
    generalize c.getCloseEvent env.quiche key = closed at hunheard ⊢
    refine (Quiet.of_step (.remove hremove)).trans ?_
    have hcancel : Quiet env { b with connections }
        { b with connections, time := cancelAll b.time closed.1 } := .of_eq rfl rfl
    exact (hcancel.trans (.push _ hunheard.events)).trans (.of_eq rfl rfl)

theorem scheduleTimer_quiet (b : QuicheBackend Conn Cfg G T) (key : ConnectionKey)
    (kind : TimerKind) (due : Connection Conn → Option Instant) :
    Quiet env b (b.scheduleTimer key kind due) := by
  unfold scheduleTimer
  split
  · exact .nil b
  · next c hget =>
    split
    · exact .nil b
    · next due _ =>
      have hpop := c.popTimerKey_edits env.quiche kind
      generalize c.popTimerKey kind = popped at hpop ⊢
      obtain ⟨c₁, previousKey⟩ := popped
      simp only
      generalize b.time.reschedule { connectionKey := key, kind } due previousKey = scheduled
      obtain ⟨time, timerKey⟩ := scheduled
      have htime : Quiet env b { b with time } := .of_eq rfl rfl
      exact htime.trans (.edit hget (hpop.trans (c₁.setTimerKey_edits env.quiche kind _)))

theorem scheduleEstablishTimeout_quiet
    (h : b.scheduleEstablishTimeout env key = some b') : Quiet env b b' := by
  unfold scheduleEstablishTimeout at h
  split at h
  · cases h
    exact .nil b
  · simp only at h
    split at h
    · cases h
      exact .nil b
    · obtain ⟨due, -, rfl⟩ := Option.map_eq_some_iff.mp h
      apply scheduleTimer_quiet

/-! ### Connection ids and paths -/

variable (env) in
theorem allocateLoop_methods (n : Nat) (cids : G) (tokens : T) (inner : Conn) :
    env.quiche.Methods inner (allocateLoop env n cids tokens inner).2.2 := by
  induction n generalizing cids tokens inner with
  | zero => exact .refl
  | succ n ih =>
    unfold allocateLoop
    simp only
    split
    · next inner₁ _ hresult => exact .head (.of_eq hresult (.newScid ..)) (ih ..)
    · next hresult => exact .single (.of_eq hresult (.newScid ..))

theorem updateScidsDict_quiet (b : QuicheBackend Conn Cfg G T) (key : ConnectionKey) :
    Quiet env b { b with connections := b.connections.updateScidsDict env.quiche key } := by
  unfold Connections.updateScidsDict
  split
  · exact .of_eq rfl rfl
  · next c hget =>
    -- the dictionaries are no concern of the application
    have hput : Quiet env b (b.put key { c with inner := (env.quiche.retiredScids c.inner).1 }) :=
      .edit hget (.method (.retiredScids c.inner))
    refine hput.trans (.of_step (.other [] rfl rfl rfl ?_ nofun))
    exact (List.append_nil _).symm

theorem allocateScids_quiet (b : QuicheBackend Conn Cfg G T) (key : ConnectionKey) :
    Quiet env b (b.allocateScids env key) := by
  unfold allocateScids
  split
  · exact .nil b
  · split
    · next server connections c _ hmark =>
      obtain ⟨hget, hactive⟩ := getMarkActive_quiet env hmark
      simp only
      split
      · have hloop := allocateLoop_methods env (env.quiche.scidsLeft c.inner)
          b.config.connectionIdGenerator server.tokenGenerator c.inner
        have hconfig (config : Config Cfg G T) :
            Quiet env { b with connections } { b with connections, config } := .of_eq rfl rfl
        refine Quiet.trans ?_ (updateScidsDict_quiet _ key)
        exact hactive.trans ((hconfig _).trans (.edit hget (.methods hloop)))
      · exact hactive
    · exact .nil b

theorem handlePathEvents_quiet (b : QuicheBackend Conn Cfg G T) (key : ConnectionKey) :
    Quiet env b (b.handlePathEvents env key) := by
  unfold handlePathEvents
  split
  · exact .nil b
  · next c hget =>
    have hmethod : env.quiche.Method c.inner (env.quiche.pathEvents c.inner).1 := .pathEvents c.inner
    generalize env.quiche.pathEvents c.inner = result at hmethod ⊢
    obtain ⟨inner, events⟩ := result
    refine (Quiet.edit hget (.method hmethod)).trans ?_
    simp only
    generalize b.put key { c with inner } = b₁
    -- a validated path verifies the peer, and a migrated peer gets new ids
    generalize hb₂ : (if events.contains .validated then
      { b₁ with connections := b₁.connections.markVerified env.quiche key } else b₁) = b₂
    have hverified : Quiet env b₁ b₂ := by
      rw [← hb₂]
      split
      · exact .of_step (.verify b₁ key)
      · exact .nil b₁
    refine hverified.trans ?_
    split
    · apply allocateScids_quiet
    · exact .nil b₂

theorem checkConnectionHandshakeProgress_quiet (b : QuicheBackend Conn Cfg G T)
    (key : ConnectionKey) : Quiet env b (b.checkConnectionHandshakeProgress env key) := by
  unfold checkConnectionHandshakeProgress
  split
  · exact .nil b
  · next c hget =>
    split
    · have hpop := c.popTimerKey_edits env.quiche .establishTimeout
      generalize c.popTimerKey .establishTimeout = popped at hpop ⊢
      obtain ⟨c₁, timerKey⟩ := popped
      refine Quiet.trans ?_ (allocateScids_quiet _ key)
      refine (Quiet.edit hget hpop).trans ?_
      cases timerKey with
      | none => exact .nil _
      | some timerKey => exact .of_eq rfl rfl
    · exact .nil b

/-! ### Scheduled events -/

theorem handleScheduledEvent_quiet (b : QuicheBackend Conn Cfg G T) (event : TimerEvent) :
    Quiet env b (b.handleScheduledEvent env event) := by
  unfold handleScheduledEvent
  simp only
  split
  · exact .nil b
  · next connections c hmark =>
    obtain ⟨hget, hactive⟩ := getMarkActive_quiet env hmark
    refine hactive.trans ?_
    generalize hb₁ : { b with connections } = b₁
    replace hget : b₁.connections.get event.connectionKey = some c := hb₁ ▸ hget
    split
    · exact .nil b₁
    · exact .edit hget (.method (.onTimeout c.inner))
    · split
      · exact .nil b₁
      · have hhalted := c.getHaltEvent_unheard env.quiche event.connectionKey .timeout
        generalize c.getHaltEvent event.connectionKey .timeout = halted at hhalted ⊢
        refine (Quiet.report hget hhalted).trans ?_
        split
        · exact .edit (get_put hget halted.1) (.method (.close ..))
        · apply forgetConnection_quiet

theorem handleScheduledEvents_quiet (b : QuicheBackend Conn Cfg G T) :
    Quiet env b (b.handleScheduledEvents env) := by
  unfold handleScheduledEvents
  have htime (time : EventTimer TimerEvent) : Quiet env b { b with time } := .of_eq rfl rfl
  exact (htime _).trans (foldl_quiet handleScheduledEvent_quiet _ _)

/-! ### Packets -/

theorem writePendingLoop_edits {now : Instant} {fuel : Nat} {io : Io} {path : Option Io.Path}
    {packet : Io.PendingPacket} {out : List Message} {written : Io.Written Conn}
    (h : Io.writePendingLoop .release env.quiche now fuel io c path packet out = some written) :
    c.Edits env.quiche written.connection := by
  induction fuel generalizing io c path packet out with
  | zero => cases h
  | succ fuel ih =>
    -- all ways out of the loop end here, but an error of `connection.send`
    have hfinish {inner : Conn} {io : Io} {result : Write}
        (hinner : env.quiche.Methods c.inner inner)
        (h : io.finishPending .release { c with inner } path packet out result = some written) :
        c.Edits env.quiche written.connection := by
      rw [Io.finishPending_connection h]
      exact .methods hinner
    unfold Io.writePendingLoop at h
    split at h
    · exact hfinish .refl h
    · split at h
      · exact hfinish .refl h
      · cases h
      · split at h
        · cases h
        · split at h
          · next hsend => exact hfinish (.single (.of_eq hsend (.send ..))) h
          · next hsend => exact hfinish (.single (.of_eq hsend (.send ..))) h
          · next hsend =>
            cases h
            exact .method (.of_eq hsend (.send ..))
          · next hsend => exact hfinish (.single (.of_eq hsend (.send ..))) h
          · next hsend =>
            split at h
            · cases h
            · exact (Connection.Edits.method (.of_eq hsend (.send ..))).trans (ih h)

theorem writePending_edits {io : Io} {out : List Message} {now : Instant}
    {written : Io.Written Conn} (h : io.writePending .release env.quiche c out now = some written) :
    c.Edits env.quiche written.connection := by
  unfold Io.writePending at h
  split at h
  · cases h
  · cases h
    exact .refl c
  · exact writePendingLoop_edits h

/-! ### New connections -/

theorem registerNewConnection_quiet {peerAddr : SocketAddr} (hidle : c.Idle)
    (h : b.registerNewConnection env c peerAddr = some (b', key)) : Quiet env b b' := by
  simp only [registerNewConnection, Option.bind_eq_bind, Option.bind_eq_some_iff] at h
  obtain ⟨⟨connections, key'⟩, hinsert, b₁, hestablish, h⟩ := h
  obtain ⟨rfl, rfl⟩ := Prod.mk.inj (Option.some.inj h)
  have hregister : Quiet env b { b with connections } := .of_step (.register hidle hinsert)
  have hschedule := (scheduleTimer_quiet { b with connections } key' .quicheTimeout fun c =>
    env.quiche.timeoutInstant c.inner).trans (scheduleEstablishTimeout_quiet hestablish)
  refine (hregister.trans hschedule).trans (.push b₁ ?_)
  intro e he
  cases List.mem_singleton.mp he
  rfl

theorem acceptConnection_quiet {server : ServerConfig Cfg T} {packet : Packet}
    {scid : ConnectionId} {token : Option Token}
    (h : b.acceptConnection env server packet scid token = some b') : Quiet env b b' := by
  unfold acceptConnection at h
  split at h
  have hconfig (config : Config Cfg G T) : Quiet env b { b with config } := .of_eq rfl rfl
  simp only at h
  split at h
  · cases h
    exact hconfig _
  · obtain ⟨⟨b₁, key⟩, hregister, rfl⟩ := Option.map_eq_some_iff.mp h
    have hregistered := registerNewConnection_quiet (Connection.new_idle ..) hregister
    exact ((hconfig _).trans hregistered).trans (.of_eq rfl rfl)

theorem respondWithRetry_quiet {server : ServerConfig Cfg T} {header : Header} {packet : Packet}
    {scid : ConnectionId} {out out' : List Message} {consumed : Bool}
    (h : b.respondWithRetry env server header packet scid out = some (b', out', consumed)) :
    Quiet env b b' := by
  simp only [respondWithRetry, Option.bind_eq_bind, Option.bind_eq_some_iff] at h
  obtain ⟨expiresAt, -, h⟩ := h
  split at h
  · cases h
    exact .of_eq rfl rfl
  · obtain ⟨⟨io, out₁, result⟩, -, h⟩ := Option.bind_eq_some_iff.mp h
    simp only at h
    split at h <;> cases h <;> exact .of_eq rfl rfl

theorem handleInitialPacketAsServer_quiet {header : Header} {packet : Packet}
    {out out' : List Message} {consumed : Bool}
    (h : b.handleInitialPacketAsServer env header packet out = some (b', out', consumed)) :
    Quiet env b b' := by
  have hconfig (config : Config Cfg G T) : Quiet env b { b with config } := .of_eq rfl rfl
  unfold handleInitialPacketAsServer at h
  split at h
  · cases h
    exact .nil b
  · split at h
    · obtain ⟨⟨io, out₁, result⟩, -, h⟩ := Option.bind_eq_some_iff.mp h
      cases h
      exact .of_eq rfl rfl
    · split at h
      · cases h
        exact .nil b
      · simp only at h
        split at h
        · cases h
          exact hconfig _
        · obtain ⟨b₁, haccept, heq⟩ := Option.map_eq_some_iff.mp h
          obtain ⟨rfl, -⟩ := Prod.mk.inj heq
          exact (hconfig _).trans (acceptConnection_quiet haccept)
        · split at h
          · obtain ⟨b₁, haccept, heq⟩ := Option.map_eq_some_iff.mp h
            obtain ⟨rfl, -⟩ := Prod.mk.inj heq
            exact (hconfig _).trans (acceptConnection_quiet haccept)
          · exact (hconfig _).trans (respondWithRetry_quiet h)

theorem handlePacketWithStatelessReset_quiet {header : Header} {packet : Packet}
    {out out' : List Message}
    (h : b.handlePacketWithStatelessReset env header packet out = some (b', out')) :
    Quiet env b b' := by
  unfold handlePacketWithStatelessReset at h
  split at h
  · cases h
    exact .nil b
  · obtain ⟨_, -, heq⟩ := Option.map_eq_some_iff.mp h
    cases heq
    exact .of_eq rfl rfl

end QuicheBackend

end Aquic.Backend.Quiche

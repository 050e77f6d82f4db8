import Aquic.Backend.Event
import Aquic.Backend.Quiche.Library
import Aquic.Backend.Time
import Aquic.Lib.Collections
import Mathlib.Logic.Function.Basic

/-!
# Connections of the quiche backend

`backend/quiche/connection.rs`: a connection with its context, and the collection of all connections
with its routing dictionaries and its queue of active connections.

The stable id of a connection is its key; the random trace that the source carries along for logging
does not take part in comparisons and is left out. Counters are `usize` and wrap.
-/

namespace Aquic.Backend.Quiche

open Aquic.Cid Aquic.Collections Aquic.Net Aquic.Stream Aquic.Timer Aquic.Word

/-- `slotmap` keys are never reused. -/
abbrev ConnectionKey := Nat

inductive TimerKind where
  /-- The pacing algorithm determined to make a delay between packets. -/
  | pacer
  /-- Timeout generated by quiche. -/
  | quicheTimeout
  /-- Connection establishment timeout. -/
  | establishTimeout
  deriving DecidableEq, Repr

structure TimerEvent where
  connectionKey : ConnectionKey
  kind : TimerKind
  deriving DecidableEq, Repr

/-! ## One connection -/

structure Connection (Conn : Type) where
  inner : Conn
  timerPacerKey : Option TimerKey
  timerQuicheTimeoutKey : Option TimerKey
  timerEstablishTimeoutKey : Option TimerKey
  streamBidiSequence : StreamId
  streamUniSequence : StreamId
  /-- The peer has verified his address against spoofing. -/
  peerAddressVerified : Bool
  streamsBidiExhausted : Bool
  streamsUniExhausted : Bool
  dgramInDrained : Bool
  dgramOutDrained : Bool
  /-- Last known maximum size for an outgoing datagram. -/
  dgramOutMaxSize : Nat
  /-- A close event or similar was sent. -/
  closedEventSent : Bool
  deriving DecidableEq

namespace Connection

variable {Conn Cfg : Type} (lib : Library Conn Cfg)

/-- `Connection::new`. -/
def new (quicheConnection : Conn) (peerAddressVerified : Bool) : Connection Conn :=
  let isClient := !lib.isServer quicheConnection
  { inner := quicheConnection
    timerPacerKey := none
    timerQuicheTimeoutKey := none
    timerEstablishTimeoutKey := none
    streamBidiSequence := .initial isClient true
    streamUniSequence := .initial isClient false
    peerAddressVerified := isClient || peerAddressVerified
    streamsBidiExhausted := false
    streamsUniExhausted := false
    dgramInDrained := false
    dgramOutDrained := false
    dgramOutMaxSize := 0
    closedEventSent := false }

def popTimerKey (c : Connection Conn) : TimerKind → Connection Conn × Option TimerKey
  | .pacer => ({ c with timerPacerKey := none }, c.timerPacerKey)
  | .quicheTimeout => ({ c with timerQuicheTimeoutKey := none }, c.timerQuicheTimeoutKey)
  | .establishTimeout => ({ c with timerEstablishTimeoutKey := none }, c.timerEstablishTimeoutKey)

def setTimerKey (c : Connection Conn) (kind : TimerKind) (key : Option TimerKey) :
    Connection Conn :=
  match kind with
  | .pacer => { c with timerPacerKey := key }
  | .quicheTimeout => { c with timerQuicheTimeoutKey := key }
  | .establishTimeout => { c with timerEstablishTimeoutKey := key }

def timerKey (c : Connection Conn) : TimerKind → Option TimerKey
  | .pacer => c.timerPacerKey
  | .quicheTimeout => c.timerQuicheTimeoutKey
  | .establishTimeout => c.timerEstablishTimeoutKey

/-- `get_last_local_stream_id`: the id that the next local stream gets, if it is not the first. -/
def getLastLocalStreamId (c : Connection Conn) (bidirectional : Bool) : Option StreamId :=
  let sequence := if bidirectional then c.streamBidiSequence else c.streamUniSequence
  sequence.previous.map fun _ => sequence

/-- `peer_streams_left`. -/
def peerStreamsLeft (c : Connection Conn) (bidirectional : Bool) : Nat :=
  if bidirectional then lib.peerStreamsLeftBidi c.inner else lib.peerStreamsLeftUni c.inner

/-- `allocate_stream_id`. -/
def allocateStreamId (c : Connection Conn) (bidirectional : Bool) :
    Option (Connection Conn × StreamId) :=
  if bidirectional then
    c.streamBidiSequence.next.map fun next =>
      ({ c with streamBidiSequence := next }, c.streamBidiSequence)
  else
    c.streamUniSequence.next.map fun next =>
      ({ c with streamUniSequence := next }, c.streamUniSequence)

/-- `set_streams_exhausted`. -/
def setStreamsExhausted (c : Connection Conn) (bidirectional : Bool) : Connection Conn :=
  if bidirectional then { c with streamsBidiExhausted := true }
  else { c with streamsUniExhausted := true }

/-- When the next packet can be sent to the peer, or `none` if it can be sent immediately. -/
def getNextReleaseTime (c : Connection Conn) (now : Instant) : Option Instant := do
  let decision ← lib.getNextReleaseTime c.inner
  if decision.canBurst then none
  let time ← decision.time now
  if (time.saturatingDurationSince now).nanos ≤ 50 * 10 ^ 3 then none
  some time

/-- `get_connection_streams_available_events`; only the bidirectional flag is cleared. -/
def getConnectionStreamsAvailableEvents (c : Connection Conn) (key : ConnectionKey) :
    Connection Conn × List (ConnectionEvent ConnectionKey) :=
  let bidi := c.streamsBidiExhausted && lib.peerStreamsLeftBidi c.inner != 0 &&
    c.streamBidiSequence.next.isSome
  let uni := c.streamsUniExhausted && lib.peerStreamsLeftUni c.inner != 0 &&
    c.streamUniSequence.next.isSome
  ({ c with streamsBidiExhausted := c.streamsBidiExhausted && !bidi },
    (if bidi then [.streamsAvailable key true] else []) ++
      if uni then [.streamsAvailable key false] else [])

def getDgramInAvailableEvent (c : Connection Conn) (key : ConnectionKey) :
    Connection Conn × Option (DatagramEvent ConnectionKey) :=
  if c.dgramInDrained then ({ c with dgramInDrained := false }, some (.inAvailable key))
  else (c, none)

def getDgramOutAvailableEvent (c : Connection Conn) (key : ConnectionKey) :
    Connection Conn × Option (DatagramEvent ConnectionKey) :=
  if c.dgramOutDrained then ({ c with dgramOutDrained := false }, some (.outAvailable key))
  else (c, none)

def getDgramOutSizeEvent (c : Connection Conn) (key : ConnectionKey) :
    Connection Conn × Option (DatagramEvent ConnectionKey) :=
  let maxSize := min ((lib.dgramMaxWritableLen c.inner).getD 0) (2 ^ 16 - 1)
  if c.dgramOutMaxSize = maxSize then (c, none)
  else ({ c with dgramOutMaxSize := maxSize }, some (.outNewSize key maxSize))

/-- A `Closed` or `Halted` event, if none was created previously. -/
def getCloseEvent (c : Connection Conn) (key : ConnectionKey) :
    Connection Conn × Option (ConnectionEvent ConnectionKey) :=
  if c.closedEventSent then
    (c, none)
  else
    let event : ConnectionEvent ConnectionKey :=
      if lib.isTimedOut c.inner then
        .halted key .timeout
      else
        match lib.localError c.inner, lib.peerError c.inner with
        | some error, _ => .closed key error.errorCode error.reason error.isApp true
        | none, some error => .closed key error.errorCode error.reason error.isApp false
        | none, none => .halted key .statelessReset
    ({ c with closedEventSent := true }, some event)

/-- A `Halted` event, if no close event was created previously. -/
def getHaltEvent (c : Connection Conn) (key : ConnectionKey) (kind : HaltKind) :
    Connection Conn × Option (ConnectionEvent ConnectionKey) :=
  if c.closedEventSent then (c, none)
  else ({ c with closedEventSent := true }, some (.halted key kind))

end Connection

/-! ## All connections -/

structure Connections (Conn : Type) where
  all : Slots (Connection Conn)
  /-- Source connection id (the peer's destination id) to key. -/
  cidDictionary : List UInt8 → Option ConnectionKey
  /-- Peer's address to key, for zero-length source connection ids. -/
  addrDictionary : SocketAddr → Option ConnectionKey
  /-- Connections that wait to be polled. -/
  active : LinkedHashSet ConnectionKey
  serverConnectionsCount : Nat
  serverUnverifiedConnectionsCount : Nat

namespace Connections

variable {Conn Cfg : Type} (lib : Library Conn Cfg)

/-- `Connections::new`. -/
def new : Connections Conn where
  all := .empty
  cidDictionary _ := none
  addrDictionary _ := none
  active := .empty
  serverConnectionsCount := 0
  serverUnverifiedConnectionsCount := 0

/-- Writes a connection back that was borrowed mutably. -/
def put (cs : Connections Conn) (key : ConnectionKey) (c : Connection Conn) : Connections Conn :=
  { cs with all := cs.all.set key c }

def get (cs : Connections Conn) (key : ConnectionKey) : Option (Connection Conn) := cs.all.get key

/-- `insert`; a source id that is too long panics. -/
def insert (cs : Connections Conn) (c : Connection Conn) (peerAddr : SocketAddr) :
    Option (Connections Conn × ConnectionKey) := do
  let sourceCid ← ConnectionId.tryFromSlice (lib.sourceId c.inner)
  let peerAddr :=
    (((lib.pathStats c.inner).find? (·.active)).map (·.peerAddr)).getD peerAddr
  let (all, key) := cs.all.push c
  let cs := { cs with all, active := cs.active.replace key }
  let cs :=
    if sourceCid.bytes.isEmpty then
      { cs with addrDictionary := Function.update cs.addrDictionary peerAddr (some key) }
    else
      { cs with cidDictionary := Function.update cs.cidDictionary sourceCid.bytes (some key) }
  let cs :=
    if lib.isServer c.inner then
      { cs with
        serverConnectionsCount := wrappingAdd usizeBits cs.serverConnectionsCount 1
        serverUnverifiedConnectionsCount :=
          if c.peerAddressVerified then cs.serverUnverifiedConnectionsCount
          else wrappingAdd usizeBits cs.serverUnverifiedConnectionsCount 1 }
    else
      cs
  some (cs, key)

/-- `mark_active`. -/
def markActive (cs : Connections Conn) (key : ConnectionKey) : Connections Conn :=
  if cs.all.contains key then { cs with active := cs.active.replace key } else cs

/-- `get_mark_active`. -/
def getMarkActive (cs : Connections Conn) (key : ConnectionKey) :
    Option (Connections Conn × Connection Conn) :=
  (cs.get key).map fun c => ({ cs with active := cs.active.replace key }, c)

/-- `find_connection_key`. -/
def findConnectionKey (cs : Connections Conn) (peerDcid : List UInt8) (peerAddr : SocketAddr) :
    Option ConnectionKey :=
  if peerDcid.isEmpty then cs.addrDictionary peerAddr else cs.cidDictionary peerDcid

/-- `next_active`. -/
def nextActive (cs : Connections Conn) : Connections Conn :=
  { cs with active := cs.active.popFront }

/-- `peek_active`: the collection afterwards; the connection it returns is at the front. -/
def peekActive (cs : Connections Conn) : Connections Conn :=
  { cs with active := cs.active.popUntil cs.all.contains }

/-- `mark_verified`. -/
def markVerified (cs : Connections Conn) (key : ConnectionKey) : Connections Conn :=
  match cs.get key with
  | none => cs
  | some c =>
    if lib.isServer c.inner && !c.peerAddressVerified then
      { cs.put key { c with peerAddressVerified := true } with
        serverUnverifiedConnectionsCount :=
          wrappingSub usizeBits cs.serverUnverifiedConnectionsCount 1 }
    else
      cs

/-- `update_scids_dict`; an id that is too long is logged and skipped. -/
def updateScidsDict (cs : Connections Conn) (key : ConnectionKey) : Connections Conn :=
  match cs.get key with
  | none => cs
  | some c =>
    let dictionary := (lib.sourceIds c.inner).foldl
      (fun dictionary cid =>
        if (ConnectionId.tryFromSlice cid).isSome then Function.update dictionary cid (some key)
        else dictionary)
      cs.cidDictionary
    let (inner, retired) := lib.retiredScids c.inner
    { cs.put key { c with inner } with
      cidDictionary := retired.foldl (fun dictionary cid => Function.update dictionary cid none)
        dictionary }

/-- `remove`. -/
def remove (cs : Connections Conn) (key : ConnectionKey) :
    Option (Connections Conn × Connection Conn) := do
  let c ← cs.get key
  let (inner, retired) := lib.retiredScids c.inner
  let cids := lib.sourceIds c.inner ++ retired
  let c := { c with inner }
  let validatedAddr := ((lib.pathStats inner).find? fun path =>
    lib.isPathValidated inner path.localAddr path.peerAddr).map (·.peerAddr)
  let isServer := lib.isServer inner
  let cs :=
    { all := cs.all.remove key
      active := cs.active.remove key
      cidDictionary := cids.foldl (fun dictionary cid => Function.update dictionary cid none)
        cs.cidDictionary
      -- without a validated path this is logged as a memory leak
      addrDictionary :=
        match cids.all List.isEmpty, validatedAddr with
        | true, some addr => Function.update cs.addrDictionary addr none
        | _, _ => cs.addrDictionary
      serverConnectionsCount :=
        if isServer then wrappingSub usizeBits cs.serverConnectionsCount 1
        else cs.serverConnectionsCount
      serverUnverifiedConnectionsCount :=
        if isServer && !c.peerAddressVerified then
          wrappingSub usizeBits cs.serverUnverifiedConnectionsCount 1
        else
          cs.serverUnverifiedConnectionsCount }
  some (cs, c)

theorem insert_spec {cs cs' : Connections Conn} {c : Connection Conn} {peerAddr : SocketAddr}
    {key : ConnectionKey} (h : cs.insert lib c peerAddr = some (cs', key)) :
    cs.get key = none ∧ ∀ k, cs'.get k = if k = key then some c else cs.get k := by
  simp only [insert, Option.bind_eq_bind, Option.bind_eq_some_iff] at h
  obtain ⟨sourceCid, -, h⟩ := h
  obtain ⟨rfl, rfl⟩ := Prod.mk.inj (Option.some.inj h)
  refine ⟨Slots.get_push_key cs.all c, fun k => ?_⟩
  -- the dictionaries and counters do not matter
  have hpush := Slots.get_push cs.all c k
  split <;> split <;> exact hpush

theorem remove_spec {cs : Connections Conn} {key : ConnectionKey} {c : Connection Conn}
    (h : cs.get key = some c) :
    ∃ cs' c', cs.remove lib key = some (cs', c') ∧ cs'.active = cs.active.remove key ∧
      ∀ k, cs'.get k = if k = key then none else cs.get k := by
  simp only [remove, h, Option.bind_eq_bind, Option.bind_some]
  exact ⟨_, _, rfl, rfl, fun k => Slots.get_remove cs.all key k⟩

end Connections

end Aquic.Backend.Quiche

import Aquic.Backend.Quinn.Library
import Aquic.Backend.Time
import Aquic.Lib.Collections

/-!
# Connections of the quinn backend

`backend/quinn/connection.rs`: a connection with its context, and the collection of all connections
with its queue of active connections.

Keys are handles of quinn's endpoint, which are reused; a connection id carries a version to tell the
connections under one handle apart. The random trace of an id is for logging and is left out.
-/

namespace Aquic.Backend.Quinn

open Aquic.Collections Aquic.Net Aquic.Timer

structure QuinnConnectionId where
  key : ConnectionKey
  version : UInt32
  deriving DecidableEq, Repr

structure Connection (Conn : Type) where
  inner : Conn
  timerQuinnTimeoutKey : Option TimerKey
  /-- Tells connections under one key apart. -/
  version : UInt32
  /-- A close event or similar was sent. -/
  closedEventSent : Bool
  /-- Last known maximum size for an outgoing datagram. -/
  dgramOutMaxSize : Nat
  deriving DecidableEq

namespace Connection

variable {Conn : Type}

def id (c : Connection Conn) (key : ConnectionKey) : QuinnConnectionId :=
  { key, version := c.version }

/-- `Connection::new`. -/
def new (quinnConnection : Conn) (version : UInt32) : Connection Conn where
  inner := quinnConnection
  timerQuinnTimeoutKey := none
  version := version
  closedEventSent := false
  dgramOutMaxSize := 0

def getDgramOutSizeEvent (lib : Library Conn) (c : Connection Conn) (key : ConnectionKey) :
    Connection Conn × Option (DatagramEvent QuinnConnectionId) :=
  let maxSize := min ((lib.datagramMaxSize c.inner).getD 0) (2 ^ 16 - 1)
  if c.dgramOutMaxSize = maxSize then (c, none)
  else ({ c with dgramOutMaxSize := maxSize }, some (.outNewSize (c.id key) maxSize))

/-- A `Closed` event, if no close event was created previously. -/
def getCloseEvent (c : Connection Conn) (key : ConnectionKey) (code : Nat) (reason : List UInt8)
    (isApplication isLocal : Bool) :
    Connection Conn × Option (ConnectionEvent QuinnConnectionId) :=
  if c.closedEventSent then (c, none)
  else
    ({ c with closedEventSent := true },
      some (.closed (c.id key) code reason isApplication isLocal))

/-- A `Halted` event, if no close event was created previously. -/
def getHaltEvent (c : Connection Conn) (key : ConnectionKey) (kind : HaltKind) :
    Connection Conn × Option (ConnectionEvent QuinnConnectionId) :=
  if c.closedEventSent then (c, none)
  else ({ c with closedEventSent := true }, some (.halted (c.id key) kind))

end Connection

structure Connections (Conn : Type) where
  all : Slots (Connection Conn)
  /-- Connections that wait to be polled. -/
  active : LinkedHashSet ConnectionKey
  /-- The version of the next connection. -/
  versionSequence : UInt32

namespace Connections

variable {Conn : Type}

/-- `Connections::new`. -/
def new : Connections Conn where
  all := .empty
  active := .empty
  versionSequence := 0

/-- `get` and `get_mut`. -/
def get (cs : Connections Conn) (id : QuinnConnectionId) : Option (Connection Conn) :=
  (cs.all.get id.key).filter fun c => c.version = id.version

/-- Writes a connection back that was borrowed mutably. -/
def put (cs : Connections Conn) (key : ConnectionKey) (c : Connection Conn) : Connections Conn :=
  { cs with all := cs.all.set key c }

/-- `get_mark_active`. -/
def getMarkActive (cs : Connections Conn) (id : QuinnConnectionId) :
    Option (Connections Conn × Connection Conn) :=
  (cs.get id).map fun c => ({ cs with active := cs.active.replace id.key }, c)

/-- `get_mark_active_raw`. -/
def getMarkActiveRaw (cs : Connections Conn) (key : ConnectionKey) :
    Option (Connections Conn × Connection Conn) :=
  (cs.all.get key).map fun c => ({ cs with active := cs.active.replace key }, c)

/-- `get_mark_active_if`. -/
def getMarkActiveIf (cs : Connections Conn) (id : QuinnConnectionId)
    (filter : Connection Conn → Bool) : Option (Connections Conn × Connection Conn) :=
  ((cs.get id).filter filter).map fun c => ({ cs with active := cs.active.replace id.key }, c)

/-- The keys of all connections, in the order of `all_iter_mark_active`. -/
def keys (cs : Connections Conn) : List ConnectionKey :=
  (List.range cs.all.slots.length).filter cs.all.contains

/-- `next_active`. -/
def nextActive (cs : Connections Conn) : Connections Conn :=
  { cs with active := cs.active.popFront }

/-- `peek_active`: the collection afterwards; the connection it returns is at the front. -/
def peekActive (cs : Connections Conn) : Connections Conn :=
  { cs with active := cs.active.popUntil cs.all.contains }

/-- `remove_raw`. -/
def removeRaw (cs : Connections Conn) (key : ConnectionKey) :
    Option (Connections Conn × Connection Conn) :=
  (cs.all.get key).map fun c =>
    ({ cs with all := cs.all.remove key, active := cs.active.remove key }, c)

/-- `remove`. -/
def remove (cs : Connections Conn) (id : QuinnConnectionId) :
    Option (Connections Conn × Connection Conn) :=
  (cs.get id).bind fun _ => cs.removeRaw id.key

/-- `insert_raw`: a connection that is still registered under the key is dropped silently. -/
def insertRaw (cs : Connections Conn) (key : ConnectionKey) (connection : Conn) :
    Connections Conn × QuinnConnectionId :=
  let version := cs.versionSequence
  let cs := ((cs.removeRaw key).map Prod.fst).getD cs
  ({ all := cs.all.insert key (.new connection version)
     active := cs.active.replace key
     versionSequence := version + 1 }, { key, version })

theorem get_id {cs : Connections Conn} {key : ConnectionKey} {c : Connection Conn}
    (h : cs.all.get key = some c) : cs.get (c.id key) = some c := by
  simp [get, Connection.id, h]

theorem remove_spec {cs : Connections Conn} {key : ConnectionKey} {c : Connection Conn}
    (h : cs.all.get key = some c) :
    cs.remove (c.id key) =
      some ({ cs with all := cs.all.remove key, active := cs.active.remove key }, c) := by
  rw [remove, get_id h, Option.bind_some, removeRaw]
  exact congrArg (Option.map _) h

end Connections

end Aquic.Backend.Quinn

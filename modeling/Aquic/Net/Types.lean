import Aquic.Lib.Net

/-!
# Messages and packets

`net/types.rs`: what goes to the socket and what comes from it. A message holds its data in a buffer
type of the backend.

Functions that differ in debug builds take the `Build`; `none` is a panic.
-/

namespace Aquic.Net

inductive Build where
  | debug
  | release
  deriving DecidableEq, Repr

/-- `debug_assert!`. -/
def debugAssert (build : Build) (p : Prop) [Decidable p] : Option Unit :=
  if build = .debug ∧ ¬ p then none else some ()

theorem debugAssert_release (p : Prop) [Decidable p] : debugAssert .release p = some () :=
  if_neg fun h => Build.noConfusion h.1

theorem debugAssert_pos (build : Build) {p : Prop} [Decidable p] (h : p) :
    debugAssert build p = some () :=
  if_neg fun hnot => hnot.2 h

/-- Explicit Congestion Notification. -/
inductive Ecn where
  | nEct
  | ect1
  | ect0
  | ce
  deriving DecidableEq, Repr

/-- The trait `Buf`. -/
class Buf (B : Type) where
  asSlice : B → List UInt8

structure SendMsg (B : Type) where
  buf : B
  fromAddr : IpAddr
  toAddr : SocketAddr
  ecn : Ecn
  segmentCount : Nat
  deriving DecidableEq, Repr

/-- `SendMsg::new`. In a debug build the two addresses have to be of one family. -/
def SendMsg.new {B : Type} [Buf B] (build : Build) (buf : B) (fromAddr : IpAddr) (toAddr : SocketAddr)
    (ecn : Ecn) (segmentCount : Nat) : Option (SendMsg B) :=
  let len := (Buf.asSlice buf).length
  if len = 0 then none
  else if 1 < segmentCount ∧ len % segmentCount ≠ 0 then none
  else if toAddr.isUnspecified then none
  else if build = .debug ∧ fromAddr.sameFamily toAddr.ip = false then none
  else some { buf, fromAddr, toAddr, ecn, segmentCount }

/-- A received packet. -/
structure Packet where
  fromAddr : SocketAddr
  toAddr : IpAddr
  ecn : Ecn
  payload : List UInt8
  deriving DecidableEq, Repr

end Aquic.Net

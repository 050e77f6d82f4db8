import Mathlib.Algebra.Group.Nat.Defs
import Mathlib.Data.Int.Basic

/-!
# Addresses and wall-clock time

The types of the standard library that tokens and packets mention. A `SystemTime` is a signed number
of nanoseconds since the Unix epoch; what matters of it is its order, and its conversion to and from
whole milliseconds.
-/

namespace Aquic.Net

inductive IpAddr where
  | v4 (octets : Vector UInt8 4)
  | v6 (octets : Vector UInt8 16)
  deriving DecidableEq, Repr

/-- The octets in network order. -/
def IpAddr.octets : IpAddr → List UInt8
  | .v4 octets => octets.toList
  | .v6 octets => octets.toList

def IpAddr.localhost : IpAddr := .v4 #v[127, 0, 0, 1]

/-- Both are of version 4, or both of version 6. -/
def IpAddr.sameFamily : IpAddr → IpAddr → Bool
  | .v4 _, .v4 _ => true
  | .v6 _, .v6 _ => true
  | _, _ => false

/-- `0.0.0.0` or `::`. -/
def IpAddr.isUnspecified (ip : IpAddr) : Bool := ip.octets.all (· == 0)

/-- The two families differ in length, so the octets determine the address. -/
theorem IpAddr.octets_injective : Function.Injective IpAddr.octets := by
  intro a b h
  have hlen := congrArg List.length h
  cases a with
  | v4 x =>
    cases b with
    | v4 y => exact congrArg IpAddr.v4 (Vector.toList_inj.mp h)
    | v6 y => simp [octets] at hlen
  | v6 x =>
    cases b with
    | v4 y => simp [octets] at hlen
    | v6 y => exact congrArg IpAddr.v6 (Vector.toList_inj.mp h)

structure SocketAddr where
  ip : IpAddr
  port : Nat
  deriving DecidableEq, Repr

/-- The address is `0.0.0.0` or `::`, or the port is zero. -/
def SocketAddr.isUnspecified (addr : SocketAddr) : Bool :=
  addr.ip.octets.all (· == 0) || addr.port == 0

/-- Nanoseconds since the Unix epoch. -/
abbrev SystemTime := Int

namespace SystemTime

/-- `UNIX_EPOCH + Duration::from_millis(millis)`. -/
def ofMillis (millis : Nat) : SystemTime := millis * 1000000

/-- Whole milliseconds since the epoch, if they fit into an `u64`. -/
def toMillis (time : SystemTime) : Option Nat :=
  if 0 ≤ time ∧ (time / 1000000).toNat < 2 ^ 64 then some (time / 1000000).toNat else none

/-- The time without its fraction of a millisecond. -/
def truncMillis (time : SystemTime) : SystemTime := time / 1000000 * 1000000

/-- A time that can be written as an `u64` number of milliseconds. -/
def Representable (time : SystemTime) : Prop :=
  0 ≤ time ∧ (time / 1000000).toNat < 2 ^ 64

instance (time : SystemTime) : Decidable (Representable time) :=
  inferInstanceAs (Decidable (_ ∧ _))

theorem toMillis_of_representable {time : SystemTime} (h : Representable time) :
    toMillis time = some (time / 1000000).toNat :=
  if_pos h

theorem toMillis_of_not_representable {time : SystemTime} (h : ¬ Representable time) :
    toMillis time = none :=
  if_neg h

theorem ofMillis_toNat {time : SystemTime} (h : Representable time) :
    ofMillis (time / 1000000).toNat = truncMillis time := by
  have hnonneg : 0 ≤ time / 1000000 := Int.ediv_nonneg h.1 (by decide)
  unfold ofMillis truncMillis
  rw [Int.toNat_of_nonneg hnonneg]

end SystemTime

end Aquic.Net

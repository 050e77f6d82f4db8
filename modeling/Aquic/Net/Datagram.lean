import Aquic.Lib.Segments
import Aquic.Net.Types

/-!
# Datagrams

What a message puts on the wire: the socket cuts its buffer into as many datagrams as it has segments.
-/

namespace Aquic.Net

open Aquic.Segments

/-- One outgoing UDP datagram. -/
structure Datagram where
  fromAddr : IpAddr
  toAddr : SocketAddr
  ecn : Ecn
  payload : List UInt8
  deriving DecidableEq, Repr

/-- The datagrams of a message, in order. -/
def SendMsg.datagrams {B : Type} [Buf B] (msg : SendMsg B) : List Datagram :=
  (split msg.segmentCount (Buf.asSlice msg.buf)).map fun payload =>
    { fromAddr := msg.fromAddr, toAddr := msg.toAddr, ecn := msg.ecn, payload }

/-- Messages are made for a buffer that holds whole segments, and a destination of the right family. -/
theorem SendMsg.new_eq_some {B : Type} [Buf B] {build : Build} {buf : B} {fromAddr : IpAddr}
    {toAddr : SocketAddr} (ecn : Ecn) {segmentCount : Nat} (hbuf : Buf.asSlice buf ≠ [])
    (hcount : segmentCount ∣ (Buf.asSlice buf).length) (hto : toAddr.isUnspecified = false)
    (hfamily : build = .debug → fromAddr.sameFamily toAddr.ip = true) :
    SendMsg.new build buf fromAddr toAddr ecn segmentCount =
      some { buf, fromAddr, toAddr, ecn, segmentCount } := by
  have hlength : (Buf.asSlice buf).length ≠ 0 := fun h => hbuf (List.length_eq_zero_iff.mp h)
  have hto : ¬ toAddr.isUnspecified = true := by
    rw [hto]
    exact Bool.false_ne_true
  have hfamily : ¬ (build = .debug ∧ fromAddr.sameFamily toAddr.ip = false) := by
    rintro ⟨hdebug, hother⟩
    exact Bool.false_ne_true (hother.symm.trans (hfamily hdebug))
  rw [SendMsg.new, if_neg hlength, if_neg fun h => h.2 (Nat.mod_eq_zero_of_dvd hcount), if_neg hto,
    if_neg hfamily]

/-- In a debug build there is no message between addresses of two families. -/
theorem SendMsg.new_otherFamily {B : Type} [Buf B] {buf : B} {fromAddr : IpAddr} {toAddr : SocketAddr}
    (ecn : Ecn) (segmentCount : Nat) (h : fromAddr.sameFamily toAddr.ip = false) :
    SendMsg.new .debug buf fromAddr toAddr ecn segmentCount = none := by
  unfold SendMsg.new
  simp only [h, and_self, if_true, ite_self]

end Aquic.Net

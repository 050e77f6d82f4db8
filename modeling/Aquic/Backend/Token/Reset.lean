import Aquic.Lib.Bytes
import Aquic.Lib.Word

/-!
# Stateless reset packets

`write_stateless_reset_packet` of `backend/token/mod.rs`. Lengths are `usize` and wrap.
-/

namespace Aquic.Tokens

open Aquic.Bytes Aquic.Word

/-- The bytes that are written to the beginning of `out`, if any. -/
def writeStatelessResetPacket (rng : Rng) (peerPacketLen maxPacketLen : Nat)
    (resetToken : Vector UInt8 16) (outLen : Nat) : Rng × Option (List UInt8) :=
  if peerPacketLen < 21 then
    (rng, none)
  else
    let unpredictableMax := min (wrappingSub usizeBits peerPacketLen (1 + 16 + 1))
      (wrappingSub usizeBits maxPacketLen (1 + 16))
    if unpredictableMax < 4 then
      (rng, none)
    else
      let (rng, draw) := rng.next
      let unpredictableLength := 4 + draw % (unpredictableMax - 4 + 1)
      let packetLength := wrappingAdd usizeBits (wrappingAdd usizeBits 1 unpredictableLength) 16
      if outLen < packetLength then
        (rng, none)
      else
        let (rng, byte) := rng.next
        let (rng, unpredictable) := rng.fillBytes unpredictableLength
        let fixed := UInt8.ofNat byte &&& 0b00111111 ||| 0b01000000
        (rng, some (fixed :: unpredictable ++ resetToken.toList))

end Aquic.Tokens

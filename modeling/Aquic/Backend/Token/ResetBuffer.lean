import Aquic.Backend.Token.Reset
import Aquic.Net.Types

/-!
# Stateless resets in their buffer

`write_stateless_reset_packet` with the buffer that it writes into, in both builds: debug builds check
the arithmetic, release builds wrap.

The packet has to be smaller than the one that it answers, and not longer than its maximum, and each limit
costs a subtraction. Packets of less than 21 bytes are not answered, so the first one is safe. Nothing
guards the second one: a maximum below 17 bytes is a panic in debug builds, and no limit in release
builds.
-/

namespace Aquic.Tokens

open Aquic.Bytes Aquic.Net Aquic.Word

/-- `a - b` -/
def usizeSub (build : Build) (a b : Nat) : Option Nat :=
  (debugAssert build (b ≤ a)).map fun _ => wrappingSub usizeBits a b

/-- `a + b` -/
def usizeAdd (build : Build) (a b : Nat) : Option Nat :=
  (debugAssert build (a + b < 2 ^ usizeBits)).map fun _ => wrappingAdd usizeBits a b

/-- `out[offset..(offset + bytes.len())].copy_from_slice(bytes)`; `none` is a panic. -/
def copyInto (out : List UInt8) (offset : Nat) (bytes : List UInt8) : Option (List UInt8) :=
  if offset + bytes.length ≤ out.length then
    some (out.take offset ++ bytes ++ out.drop (offset + bytes.length))
  else
    none

/-- The masked byte: the fixed bits, and six bits of noise. -/
def fixedBits (byte : Nat) : UInt8 := UInt8.ofNat byte &&& 0b00111111 ||| 0b01000000

/-- What is written, at `offset`s that begin at 0 and end behind the token. -/
def copyPacket (out : List UInt8) (fixed : UInt8) (unpredictable resetToken : List UInt8) :
    Option (List UInt8) := do
  let out ← copyInto out 0 [fixed]
  let out ← copyInto out 1 unpredictable
  copyInto out (1 + unpredictable.length) resetToken

/-- The function, from the range of lengths on: its upper end is `unpredictableMax`. -/
def writeUnpredictable (build : Build) (rng : Rng) (unpredictableMax : Nat)
    (resetToken : Vector UInt8 16) (out : List UInt8) :
    Option (Rng × List UInt8 × Option Nat) :=
  if unpredictableMax < 4 then
    some (rng, out, none)
  else
    let (rng, draw) := rng.next
    let unpredictableLength := 4 + draw % (unpredictableMax - 4 + 1)
    (usizeAdd build 1 unpredictableLength).bind fun sum =>
    (usizeAdd build sum 16).bind fun packetLength =>
    if out.length < packetLength then
      some (rng, out, none)
    else
      let (rng, byte) := rng.next
      let (rng, unpredictable) := rng.fillBytes unpredictableLength
      (copyPacket out (fixedBits byte) unpredictable resetToken.toList).map fun out =>
        (rng, out, some (1 + unpredictableLength + 16))

/-- `write_stateless_reset_packet`: the buffer afterwards, and how many bytes of it are the packet. -/
def writeStatelessResetInto (build : Build) (rng : Rng) (peerPacketLen maxPacketLen : Nat)
    (resetToken : Vector UInt8 16) (out : List UInt8) :
    Option (Rng × List UInt8 × Option Nat) :=
  if peerPacketLen < 21 then
    some (rng, out, none)
  else
    (usizeSub build peerPacketLen (1 + 16 + 1)).bind fun peerMax =>
    (usizeSub build maxPacketLen (1 + 16)).bind fun outMax =>
    writeUnpredictable build rng (min peerMax outMax) resetToken out

/-! ## Arithmetic that does not overflow -/

theorem usizeSub_of_le (build : Build) {a b : Nat} (h : b ≤ a) :
    usizeSub build a b = some (a - b) := by
  unfold usizeSub debugAssert
  rw [if_neg (by simp [h]), Option.map_some, wrappingSub_of_le h]

theorem usizeAdd_of_lt (build : Build) {a b : Nat} (h : a + b < 2 ^ usizeBits) :
    usizeAdd build a b = some (a + b) := by
  unfold usizeAdd debugAssert
  rw [if_neg (by simp [h]), Option.map_some, wrappingAdd_of_lt h]

/-- A debug build stops at an underflow. -/
theorem usizeSub_debug {a b : Nat} (h : a < b) : usizeSub .debug a b = none := by
  unfold usizeSub debugAssert
  rw [if_pos ⟨rfl, Nat.not_le.mpr h⟩]
  rfl

theorem usizeSub_release (a b : Nat) : usizeSub .release a b = some (wrappingSub usizeBits a b) := by
  unfold usizeSub debugAssert
  rw [if_neg (fun h => nomatch h.1)]
  rfl

/-! ## The packet -/

/-- What is written after `done` bytes stands right behind them. -/
theorem copyInto_append (done bytes rest : List UInt8) (h : bytes.length ≤ rest.length) :
    copyInto (done ++ rest) done.length bytes =
      some (done ++ bytes ++ rest.drop bytes.length) := by
  unfold copyInto
  rw [if_pos (by simpa using h), List.take_left, List.drop_append,
    List.drop_of_length_le (Nat.le_add_right ..), Nat.add_sub_cancel_left, List.nil_append]

/-- The three slices are written one behind the other. -/
theorem copyPacket_eq (out : List UInt8) (fixed : UInt8) (unpredictable resetToken : List UInt8)
    (h : 1 + unpredictable.length + resetToken.length ≤ out.length) :
    copyPacket out fixed unpredictable resetToken =
      some (fixed :: unpredictable ++ resetToken ++
        out.drop (1 + unpredictable.length + resetToken.length)) := by
  have hfixed : copyInto out 0 [fixed] = some ([fixed] ++ out.drop 1) :=
    copyInto_append [] [fixed] out (by simp; omega)
  have hnoise : copyInto ([fixed] ++ out.drop 1) 1 unpredictable = some _ :=
    copyInto_append [fixed] unpredictable (out.drop 1) (by rw [List.length_drop]; omega)
  rw [List.drop_drop] at hnoise
  have htoken := copyInto_append ([fixed] ++ unpredictable) resetToken
    (out.drop (1 + unpredictable.length)) (by rw [List.length_drop]; omega)
  rw [List.drop_drop, List.length_append, List.length_singleton] at htoken
  unfold copyPacket
  simp only [hfixed, hnoise, Option.bind_eq_bind, Option.bind_some]
  exact htoken

/-- The noise of a packet, with the generator after it. -/
def noise (rng : Rng) (unpredictableMax : Nat) : Rng × List UInt8 :=
  rng.next.1.next.1.fillBytes (4 + rng.next.2 % (unpredictableMax - 4 + 1))

theorem length_noise (rng : Rng) (unpredictableMax : Nat) :
    (noise rng unpredictableMax).2.length = 4 + rng.next.2 % (unpredictableMax - 4 + 1) :=
  Rng.fillBytes_length ..

theorem length_noise_le (rng : Rng) {unpredictableMax : Nat} (h : 4 ≤ unpredictableMax) :
    (noise rng unpredictableMax).2.length ≤ unpredictableMax := by
  have hdraw : rng.next.2 % (unpredictableMax - 4 + 1) < unpredictableMax - 4 + 1 :=
    Nat.mod_lt _ (Nat.succ_pos _)
  rw [length_noise]
  omega

theorem le_length_noise (rng : Rng) (unpredictableMax : Nat) :
    4 ≤ (noise rng unpredictableMax).2.length := by
  rw [length_noise]
  exact Nat.le_add_right ..

/-- The bytes of a packet. -/
def resetBytes (rng : Rng) (unpredictableMax : Nat) (resetToken : Vector UInt8 16) : List UInt8 :=
  fixedBits rng.next.1.next.2 :: (noise rng unpredictableMax).2 ++ resetToken.toList

theorem length_resetBytes (rng : Rng) (unpredictableMax : Nat) (resetToken : Vector UInt8 16) :
    (resetBytes rng unpredictableMax resetToken).length =
      1 + (noise rng unpredictableMax).2.length + 16 := by
  unfold resetBytes
  rw [List.length_append, List.length_cons, Vector.length_toList, Nat.add_comm 1]

/-- **What is written**, and when: no build panics, and none wraps, as long as the range is that of a
packet. -/
theorem writeUnpredictable_eq (build : Build) (rng : Rng) {unpredictableMax : Nat}
    (resetToken : Vector UInt8 16) (out : List UInt8)
    (hmin : 4 ≤ unpredictableMax) (hmax : unpredictableMax + 17 < 2 ^ usizeBits) :
    writeUnpredictable build rng unpredictableMax resetToken out =
      if out.length < (resetBytes rng unpredictableMax resetToken).length then
        some (rng.next.1, out, none)
      else
        some ((noise rng unpredictableMax).1,
          resetBytes rng unpredictableMax resetToken ++
            out.drop (resetBytes rng unpredictableMax resetToken).length,
          some (resetBytes rng unpredictableMax resetToken).length) := by
  have hle := length_noise_le rng hmin
  have hlen := length_noise rng unpredictableMax
  have hsum : usizeAdd build 1 (4 + rng.next.2 % (unpredictableMax - 4 + 1)) =
      some (1 + (noise rng unpredictableMax).2.length) := by
    rw [hlen]
    exact usizeAdd_of_lt build (by omega)
  have htotal : usizeAdd build (1 + (noise rng unpredictableMax).2.length) 16 =
      some (1 + (noise rng unpredictableMax).2.length + 16) :=
    usizeAdd_of_lt build (by omega)
  rw [length_resetBytes]
  unfold writeUnpredictable
  rw [if_neg (Nat.not_lt.mpr hmin)]
  simp only [hsum, htotal, Option.bind_some]
  split
  · rfl
  · next hout =>
    have hcopy := copyPacket_eq out (fixedBits rng.next.1.next.2) (noise rng unpredictableMax).2
      resetToken.toList (by rw [Vector.length_toList]; omega)
    rw [Vector.length_toList] at hcopy
    refine (congrArg (Option.map _) hcopy).trans ?_
    rw [hlen]
    rfl

/-- Both functions agree: in release builds, the packet is written over the beginning of the buffer. -/
theorem writeStatelessResetInto_release (rng : Rng) {peerPacketLen : Nat} (maxPacketLen : Nat)
    (resetToken : Vector UInt8 16) (out : List UInt8) (hpeer : peerPacketLen < 2 ^ usizeBits) :
    writeStatelessResetInto .release rng peerPacketLen maxPacketLen resetToken out =
      let packet := writeStatelessResetPacket rng peerPacketLen maxPacketLen resetToken out.length
      some (packet.1, (packet.2.map fun bytes => bytes ++ out.drop bytes.length).getD out,
        packet.2.map List.length) := by
  unfold writeStatelessResetInto writeStatelessResetPacket
  by_cases hshort : peerPacketLen < 21
  · simp only [if_pos hshort]
    rfl
  · simp only [if_neg hshort, usizeSub_release, Option.bind_some]
    have hpeerMax : wrappingSub usizeBits peerPacketLen (1 + 16 + 1) = peerPacketLen - 18 :=
      wrappingSub_of_le (by omega)
    have hlimit := Nat.min_le_left (wrappingSub usizeBits peerPacketLen (1 + 16 + 1))
      (wrappingSub usizeBits maxPacketLen (1 + 16))
    generalize min (wrappingSub usizeBits peerPacketLen (1 + 16 + 1))
      (wrappingSub usizeBits maxPacketLen (1 + 16)) = unpredictableMax at hlimit ⊢
    rw [hpeerMax] at hlimit
    by_cases hmin : unpredictableMax < 4
    · unfold writeUnpredictable
      simp only [if_pos hmin]
      rfl
    · have hmin' := Nat.not_lt.mp hmin
      have hle := length_noise_le rng hmin'
      have hlength : wrappingAdd usizeBits (wrappingAdd usizeBits 1
          (4 + rng.next.2 % (unpredictableMax - 4 + 1))) 16 =
          (resetBytes rng unpredictableMax resetToken).length := by
        rw [length_resetBytes, length_noise]
        rw [length_noise] at hle
        rw [wrappingAdd_of_lt (w := usizeBits) (a := 1) (by omega), wrappingAdd_of_lt (by omega)]
      rw [writeUnpredictable_eq .release rng resetToken out hmin' (by omega)]
      simp only [if_neg hmin, hlength]
      split
      · rfl
      · rfl

/-! ## Well-formed packets -/

/-- A stateless reset of `n` bytes at the beginning of `out`, which was `before`. -/
structure IsReset (peerPacketLen maxPacketLen : Nat) (resetToken : Vector UInt8 16)
    (before out : List UInt8) (n : Nat) : Prop where
  minimum : 21 ≤ n
  /-- Two endpoints do not answer each other forever. -/
  smaller : n < peerPacketLen
  maximum : n ≤ maxPacketLen
  fits : n ≤ before.length
  fixed : ∃ byte ∈ out.head?, byte &&& 0b11000000 = 0b01000000
  token : (out.take n).drop (n - 16) = resetToken.toList
  unchanged : out.drop n = before.drop n

/-- The function does not panic, and what it writes is a stateless reset. -/
def WritesReset (peerPacketLen maxPacketLen : Nat) (resetToken : Vector UInt8 16)
    (before : List UInt8) (result : Option (Rng × List UInt8 × Option Nat)) : Prop :=
  ∃ rng out length, result = some (rng, out, length) ∧
    ∀ n ∈ length, IsReset peerPacketLen maxPacketLen resetToken before out n

theorem fixedBits_and (byte : Nat) : fixedBits byte &&& 0b11000000 = 0b01000000 := by
  have hall : ∀ b : BitVec 8,
      (b &&& 0b00111111#8 ||| 0b01000000#8) &&& 0b11000000#8 = 0b01000000#8 := by
    decide
  exact UInt8.eq_of_toBitVec_eq (hall (UInt8.ofNat byte).toBitVec)

/-- The bytes of a packet are a reset, in every buffer that they fit into. -/
theorem isReset_resetBytes (rng : Rng) {peerPacketLen maxPacketLen unpredictableMax : Nat}
    (resetToken : Vector UInt8 16) {before : List UInt8} (hmin : 4 ≤ unpredictableMax)
    (hpeer : unpredictableMax + 18 ≤ peerPacketLen) (hmax : unpredictableMax + 17 ≤ maxPacketLen)
    (hfits : (resetBytes rng unpredictableMax resetToken).length ≤ before.length) :
    IsReset peerPacketLen maxPacketLen resetToken before
      (resetBytes rng unpredictableMax resetToken ++
        before.drop (resetBytes rng unpredictableMax resetToken).length)
      (resetBytes rng unpredictableMax resetToken).length := by
  have hlength := length_resetBytes rng unpredictableMax resetToken
  have hle := length_noise_le rng hmin
  have hge := le_length_noise rng unpredictableMax
  refine ⟨by omega, by omega, by omega, hfits, ⟨_, rfl, fixedBits_and _⟩, ?_, List.drop_left ..⟩
  rw [List.take_left, hlength, Nat.add_sub_cancel]
  unfold resetBytes
  exact List.drop_left' (by rw [List.length_cons, Nat.add_comm])

/-- **Stateless resets are well formed exactly if the second subtraction does not underflow**, whatever
is drawn. An underflow is a panic in debug builds. -/
theorem writes_reset_iff (rng : Rng) (peerPacketLen maxPacketLen : Nat)
    (resetToken : Vector UInt8 16) (out : List UInt8) (hpeer : peerPacketLen < 2 ^ usizeBits) :
    (∀ build, WritesReset peerPacketLen maxPacketLen resetToken out
      (writeStatelessResetInto build rng peerPacketLen maxPacketLen resetToken out)) ↔
      peerPacketLen < 21 ∨ 17 ≤ maxPacketLen := by
  unfold writeStatelessResetInto
  by_cases hshort : peerPacketLen < 21
  · simp only [if_pos hshort]
    exact ⟨fun _ => .inl hshort, fun _ _ => ⟨_, _, _, rfl, fun n hn => nomatch hn⟩⟩
  · have hpeerMax (build : Build) : usizeSub build peerPacketLen (1 + 16 + 1) = _ :=
      usizeSub_of_le build (by omega)
    simp only [if_neg hshort, hpeerMax, Option.bind_some]
    refine Iff.trans ?_ (or_iff_right hshort).symm
    constructor
    · intro h
      by_contra hmax
      obtain ⟨_, _, _, hresult, -⟩ := h .debug
      rw [usizeSub_debug (Nat.not_le.mp hmax)] at hresult
      cases hresult
    · intro hmax build
      rw [usizeSub_of_le build hmax, Option.bind_some]
      have hleft := Nat.min_le_left (peerPacketLen - (1 + 16 + 1)) (maxPacketLen - (1 + 16))
      have hright := Nat.min_le_right (peerPacketLen - (1 + 16 + 1)) (maxPacketLen - (1 + 16))
      generalize min (peerPacketLen - (1 + 16 + 1)) (maxPacketLen - (1 + 16)) = unpredictableMax
        at hleft hright ⊢
      by_cases hmin : unpredictableMax < 4
      · unfold writeUnpredictable
        rw [if_pos hmin]
        exact ⟨_, _, _, rfl, fun n hn => nomatch hn⟩
      · have hmin' := Nat.not_lt.mp hmin
        rw [writeUnpredictable_eq build rng resetToken out hmin' (by omega)]
        split
        · exact ⟨_, _, _, rfl, fun n hn => nomatch hn⟩
        · next hfits =>
          refine ⟨_, _, _, rfl, fun n hn => ?_⟩
          cases hn
          exact isReset_resetBytes rng resetToken hmin' (by omega) (by omega)
            (Nat.not_lt.mp hfits)

/-- A small packet is answered from a buffer of 40 bytes, in both builds. -/
theorem writes_reset_smallest :
    WritesReset 22 40 (Vector.replicate 16 9) (List.replicate 40 0)
      (writeStatelessResetInto .debug ⟨id, 0⟩ 22 40 (Vector.replicate 16 9) (List.replicate 40 0)) ∧
    WritesReset 22 40 (Vector.replicate 16 9) (List.replicate 40 0)
      (writeStatelessResetInto .release ⟨id, 0⟩ 22 40 (Vector.replicate 16 9)
        (List.replicate 40 0)) := by
  have hwrites := (writes_reset_iff ⟨id, 0⟩ 22 40 (Vector.replicate 16 9) (List.replicate 40 0)
    (by decide)).mpr (.inr (by decide))
  exact ⟨hwrites .debug, hwrites .release⟩

/-- A maximum of 16 bytes: debug builds panic, release builds write 21 bytes. -/
theorem reset_underflow :
    writeStatelessResetInto .debug ⟨id, 0⟩ 22 16 (Vector.replicate 16 9) (List.replicate 40 0) =
      none ∧
    (writeStatelessResetInto .release ⟨id, 0⟩ 22 16 (Vector.replicate 16 9)
      (List.replicate 40 0)).map (·.2.2) = some (some 21) ∧
    ¬ ∀ build, WritesReset 22 16 (Vector.replicate 16 9) (List.replicate 40 0)
      (writeStatelessResetInto build ⟨id, 0⟩ 22 16 (Vector.replicate 16 9)
        (List.replicate 40 0)) := by
  refine ⟨by decide, by decide, fun h => ?_⟩
  obtain ⟨_, _, _, hresult, -⟩ := h .debug
  cases hresult.symm.trans
    (by decide : writeStatelessResetInto .debug ⟨id, 0⟩ 22 16 (Vector.replicate 16 9)
      (List.replicate 40 0) = none)

end Aquic.Tokens

import Aquic.Lib.Bytes

/-!
# Connection ids

`backend/cid/mod.rs` and `backend/cid/common.rs`: a connection id is an array of `MAX_CID_LEN` bytes
together with a length. Two ids are equal when their used parts are, so the model keeps the used part
only. The bound on the length is part of the type: no constructor of the source exceeds it.
-/

namespace Aquic.Cid

open Aquic.Bytes

/-- Maximum connection id length. -/
def maxCidLen : Nat := 20

structure ConnectionId where
  bytes : List UInt8
  len_le : bytes.length ≤ maxCidLen
  deriving DecidableEq, Repr

namespace ConnectionId

/-- `try_from_slice`. -/
def tryFromSlice (slice : List UInt8) : Option ConnectionId :=
  if h : slice.length ≤ maxCidLen then some ⟨slice, h⟩ else none

/-- The loop of `try_from_iter`: `mark` bytes have been written, and the loop ends at
`MAX_CID_LEN` without another look at the iterator. -/
def tryFromIterLoop : (room : Nat) → (written : List UInt8) → written.length + room = maxCidLen →
    List UInt8 → Option ConnectionId
  | 0, _, _, _ => none
  | room + 1, written, h, [] => some ⟨written, by omega⟩
  | room + 1, written, h, byte :: iter =>
    tryFromIterLoop room (written ++ [byte]) (by simp; omega) iter

/-- `try_from_iter`. -/
def tryFromIter (iter : List UInt8) : Option ConnectionId :=
  tryFromIterLoop maxCidLen [] (Nat.zero_add _) iter

theorem tryFromIterLoop_eq (room : Nat) (written : List UInt8)
    (h : written.length + room = maxCidLen) (iter : List UInt8) :
    (tryFromIterLoop room written h iter).map bytes =
      if iter.length < room then some (written ++ iter) else none := by
  induction iter generalizing room written with
  | nil =>
    cases room with
    | zero => rfl
    | succ room => simp [tryFromIterLoop]
  | cons byte iter ih =>
    cases room with
    | zero => rfl
    | succ room =>
      rw [tryFromIterLoop, ih]
      simp

/-- **The iterator constructor is narrower than the slice constructor**: it refuses ids of the
maximum length. -/
theorem tryFromIter_eq_some_iff (iter : List UInt8) (cid : ConnectionId) :
    tryFromIter iter = some cid ↔ iter.length < maxCidLen ∧ cid.bytes = iter := by
  have hloop := tryFromIterLoop_eq maxCidLen [] (Nat.zero_add _) iter
  constructor
  · intro h
    unfold tryFromIter at h
    rw [h] at hloop
    split at hloop
    · next hlt => exact ⟨hlt, by simpa using hloop⟩
    · simp at hloop
  · rintro ⟨hlt, rfl⟩
    rw [if_pos hlt] at hloop
    obtain ⟨cid', hcid', hbytes⟩ := Option.map_eq_some_iff.mp hloop
    have : cid' = cid := by
      cases cid'
      cases cid
      simpa using hbytes
    exact this ▸ hcid'

end ConnectionId

/-- The trait `ConnectionIdGenerator`, as far as a backend uses it. Ids are random: `generate` passes
a state `σ` along. -/
structure ConnectionIdGenerator (σ : Type) where
  generate : σ → σ × ConnectionId
  cidLen : σ → Nat

/-- `RandomIdGenerator`: purely random ids of one length, which may be zero. -/
structure RandomIdGenerator where
  length : Nat
  length_le : length ≤ maxCidLen
  rng : Rng

def randomIds : ConnectionIdGenerator RandomIdGenerator where
  generate g :=
    ({ g with rng := (g.rng.fillBytes g.length).1 },
      ⟨(g.rng.fillBytes g.length).2, by rw [Rng.fillBytes_length]; exact g.length_le⟩)
  cidLen g := g.length

end Aquic.Cid

import Aquic.Lib.Run
import Aquic.Util.BipBuffer.Layout
import Mathlib.Data.List.Perm.Basic

/-!
# Invariants of a buffer in use

What is worth saying about a buffer speaks about its indices, the live reservation and the live
non-empty commits, in no particular order. `Invariant` lists what such a property has to survive:
one clause for each of `reserve`, `commit`, the drop of a reservation and `decommit`. From these
clauses `Invariant.of_reachable` derives that it holds in every state of a run.

A property may need the run to keep to some `Conditions`. They restrict what is reserved, committed
and dropped, by the state right before the step.
-/

namespace Aquic.BipBuf

open Aquic.Run

/-- Conditions on the steps of a run. -/
structure Conditions where
  /-- On `reserve(request, _)`. -/
  reserve : BipBufferInner → Nat → Prop
  /-- On `try_commit(len)`, where the reservation is long enough. -/
  commit : BipBufferInner → Reservation → Nat → Prop
  /-- On the drop of a non-empty slice. -/
  drop : Commit → Prop
  [decReserve : ∀ b request, Decidable (reserve b request)]
  [decCommit : ∀ b r len, Decidable (commit b r len)]
  [decDrop : ∀ c, Decidable (drop c)]

namespace Conditions

attribute [instance] decReserve decCommit decDrop

/-- A step that meets the conditions. -/
def Met (k : Conditions) (s : Bip) : Op → Prop
  | .reserve request _ => k.reserve s.inner request
  | .tryCommit len => ∀ r ∈ s.reservation, len ≤ r.len → k.commit s.inner r len
  | .dropReservation => True
  | .dropCommit i => ∀ c ∈ s.commits[i]?, c.len ≠ 0 → k.drop c

instance (k : Conditions) : DecidableRel k.Met := fun s op =>
  match op with
  | .reserve request _ => k.decReserve s.inner request
  | .tryCommit _ => inferInstanceAs (Decidable (∀ r ∈ s.reservation, _ → _))
  | .dropReservation => .isTrue trivial
  | .dropCommit i => inferInstanceAs (Decidable (∀ c ∈ s.commits[i]?, _ → _))

end Conditions

/-- The slices that hold memory: an empty one is never released. -/
def Bip.live (s : Bip) : List Commit := s.commits.filter fun c => c.len ≠ 0

/-- What a property of the indices, the reservation and the live non-empty commits has to survive
to hold throughout every run under the conditions `k`. -/
structure Invariant (k : Conditions)
    (P : BipBufferInner → Option Reservation → List Commit → Prop) : Prop where
  new {length b} : BipBufferInner.new length = some b → P b none []
  perm {b res live live'} : P b res live → live.Perm live' → P b res live'
  /-- A reservation never leaves the range in which indices do not wrap around. -/
  bounded {b r live} : P b (some r) live → r.start ≤ r.stop ∧ r.stop < 2 ^ 63
  noWrap {b r len} : k.commit b r len → b.commitIdSequence + 1 < 2 ^ 64
  reserve {b b' r live request strict} : P b none live → k.reserve b request →
    b.reserve request strict = .ok (b', some r) → P b' (some r) live
  commit {b r live len} : P b (some r) live → k.commit b r len → r.start + len ≤ r.stop →
    P (b.advance r len) (some (r.advance len)) (live ++ b.occupied r len)
  unreserve {b res live} : P b res live → P { b with reserved := false } none live
  decommit {b res c live} : P b res (c :: live) → c.len ≠ 0 → k.drop c → P (b.decommit c).1 res live

section

variable {s : Bip} {r : Reservation} {len : Nat}

/-- `try_commit` without wrap-around. -/
theorem tryCommit_eq (hr : r.start ≤ r.stop) (hlt : r.stop < 2 ^ 63)
    (hseq : s.inner.commitIdSequence + 1 < 2 ^ 64) (hlen : r.start + len ≤ r.stop) :
    s.tryCommit r len =
      { inner := s.inner.advance r len
        reservation := some (r.advance len)
        commits := s.commits ++ [s.inner.nextCommit r len] } := by
  have hmin : min (add r.start len) r.stop = r.start + len := by
    rw [add_eq (by omega), Nat.min_eq_left hlen]
  unfold Bip.tryCommit
  rw [commit_eq hr hlt hseq hlen]
  simp only [hmin]
  rfl

theorem tryCommit_of_long (hlen : r.len < len) : s.tryCommit r len = s := by
  unfold Bip.tryCommit BipBufferInner.commit
  rw [if_pos hlen]

theorem nextCommit_len (b : BipBufferInner) (r : Reservation) (len : Nat) :
    (b.nextCommit r len).len = len := by
  unfold Commit.len BipBufferInner.nextCommit
  rw [sub_eq (by simp)]
  simp

theorem filter_nextCommit (b : BipBufferInner) (r : Reservation) (len : Nat) :
    [b.nextCommit r len].filter (fun c => c.len ≠ 0) = b.occupied r len := by
  unfold BipBufferInner.occupied
  rw [List.filter_singleton, nextCommit_len]
  by_cases h : len = 0 <;> simp [h]

/-- The live commits with one of them in front. -/
theorem perm_cons_eraseIdx {i : Nat} {c : Commit} (hc : s.commits[i]? = some c) :
    s.commits.Perm (c :: s.commits.eraseIdx i) := by
  obtain ⟨hi, rfl⟩ := List.getElem?_eq_some_iff.mp hc
  exact (List.getElem_cons_eraseIdx_perm hi).symm

end

/-! ## The rule -/

/-- The property holds, and `reserved` says whether there is a live reservation. -/
structure Holds (P : BipBufferInner → Option Reservation → List Commit → Prop) (s : Bip) :
    Prop where
  reserved : s.inner.reserved = s.reservation.isSome
  holds : P s.inner s.reservation s.live

section

variable {k : Conditions} {P : BipBufferInner → Option Reservation → List Commit → Prop} {s : Bip}

theorem Invariant.holds_reserve (hP : Invariant k P) (h : Holds P s) {request : Nat}
    {strict : Bool} (hk : k.reserve s.inner request) :
    Holds P (s.step (.reserve request strict)).1 := by
  unfold Bip.step
  simp only
  split
  · exact h
  · exact h
  · next inner r hok =>
    obtain ⟨hres, hinner, -⟩ := reserve_ok hok
    have hnone : s.reservation = none := by
      have := h.reserved
      rw [hres] at this
      simpa using this.symm
    have hholds := h.holds
    rw [hnone] at hholds
    exact ⟨by simp [hinner], hP.reserve hholds hk hok⟩

theorem Invariant.holds_tryCommit (hP : Invariant k P) (h : Holds P s) {len : Nat}
    (hk : k.Met s (.tryCommit len)) : Holds P (s.step (.tryCommit len)).1 := by
  unfold Bip.step
  simp only
  split
  · exact h
  · next r hr =>
    rcases Nat.lt_or_ge r.len len with hlong | hfits
    · rw [tryCommit_of_long hlong]
      exact h
    · have hk := hk r hr hfits
      have hholds := h.holds
      rw [hr] at hholds
      obtain ⟨hle, hlt⟩ := hP.bounded hholds
      have hlen : r.start + len ≤ r.stop := by
        unfold Reservation.len at hfits
        rw [sub_eq hle] at hfits
        omega
      rw [tryCommit_eq hle hlt (hP.noWrap hk) hlen]
      refine ⟨?_, ?_⟩
      · have hreserved : (s.inner.advance r len).reserved = s.inner.reserved := by
          unfold BipBufferInner.advance
          cases r.region <;> rfl
        rw [hreserved, h.reserved, hr]
        rfl
      · unfold Bip.live
        rw [List.filter_append, filter_nextCommit]
        exact hP.commit hholds hk hlen

theorem Invariant.holds_dropReservation (hP : Invariant k P) (h : Holds P s) :
    Holds P (s.step .dropReservation).1 := by
  unfold Bip.step
  simp only
  split
  · exact h
  · exact ⟨rfl, hP.unreserve h.holds⟩

/-- The live non-empty commits with one of them in front. -/
theorem Invariant.holds_cons (hP : Invariant k P) (h : Holds P s) {i : Nat} {c : Commit}
    (hc : s.commits[i]? = some c) (hlen : c.len ≠ 0) :
    P s.inner s.reservation (c :: (s.commits.eraseIdx i).filter fun c => c.len ≠ 0) := by
  have hperm := (perm_cons_eraseIdx hc).filter fun c => c.len ≠ 0
  rw [List.filter_cons_of_pos (by simp [hlen])] at hperm
  exact hP.perm h.holds hperm

theorem Invariant.holds_dropCommit (hP : Invariant k P) (h : Holds P s) {i : Nat}
    (hk : k.Met s (.dropCommit i)) : Holds P (s.step (.dropCommit i)).1 := by
  unfold Bip.step
  simp only
  split
  · exact h
  · next c hc =>
    refine ⟨by rw [(decommit_frame s.inner c).2]; exact h.reserved, ?_⟩
    by_cases hlen : c.len = 0
    · have hsame : (s.inner.decommit c).1 = s.inner := by
        simp [BipBufferInner.decommit, hlen]
      have hperm := (perm_cons_eraseIdx hc).filter fun c => c.len ≠ 0
      rw [List.filter_cons_of_neg (by simp [hlen])] at hperm
      rw [hsame]
      exact hP.perm h.holds hperm
    · exact hP.decommit (hP.holds_cons h hc hlen) hlen (hk c hc hlen)

/-- **The invariant rule of the buffer.** -/
theorem Invariant.of_reachable (hP : Invariant k P)
    (h : Reachable Bip.Init k.Met Bip.exec s) : Holds P s := by
  refine h.invariant ?_ fun s op s' hs hk hexec => ?_
  · rintro s ⟨length, hnew⟩
    obtain ⟨b, hb, rfl⟩ := Option.map_eq_some_iff.mp hnew
    refine ⟨?_, hP.new hb⟩
    unfold BipBufferInner.new at hb
    split at hb
    · cases hb
      rfl
    · cases hb
  · cases hexec
    cases op with
    | reserve request strict => exact hP.holds_reserve hs hk
    | tryCommit len => exact hP.holds_tryCommit hs hk
    | dropReservation => exact hP.holds_dropReservation hs
    | dropCommit i => exact hP.holds_dropCommit hs hk

end

end Aquic.BipBuf

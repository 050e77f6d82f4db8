import Aquic.Util.BipBuffer.Rule
import Mathlib.Order.CompletePartialOrder
import Mathlib.Order.Interval.Set.Disjoint

/-!
# Memory handed out by a bip buffer

The slices of a buffer are built with unsafe code from the ranges the indices describe. This module
says when these ranges are safe: the live reservation and the live non-empty commits are pairwise
disjoint and lie inside the buffer, in every state that a run reaches as long as

* a reservation that is made while region B reaches beyond the start of region A fits behind B.
  There `a_start - b_end` underflows, and the reservation is as long as the caller asked for;
* the commit ids do not wrap around.

Without the first condition a reservation can lie outside of the buffer: a reservation of region B
that is still live when region A is drained goes on extending B, after B has become A
(`reservation_out_of_buffer`).
-/

namespace Aquic.BipBuf

open Aquic.Word Aquic.Run

/-- The bytes a `BipSliceMut` gives access to. -/
def Reservation.range (r : Reservation) : Set Nat := Set.Ico r.start (r.start + r.len)

/-- The bytes a `BipSlice` or a `BipView` gives access to. -/
def Commit.range (c : Commit) : Set Nat := Set.Ico c.start (c.start + c.len)

/-- All memory that is handed out: the live reservation, and the live non-empty commits. -/
def Bip.ranges (s : Bip) : List (Set Nat) :=
  (s.reservation.map Reservation.range).toList ++ s.live.map Commit.range

/-- **The conditions on a run**: a reservation fits where an underflow may put it, and no commit id
is used twice. -/
def InBounds : Conditions where
  reserve := ReserveFits
  commit b _ _ := b.commitIdSequence + 1 < 2 ^ 64
  drop _ := True

/-- Nothing is said of the memory of commits that were released before their turn, except that it
stays occupied. -/
theorem layout_invariant :
    Invariant InBounds fun b res live => Layout b res (live ++ b.decommitTombstones) where
  new {length b} h := by
    obtain ⟨htiled, hts⟩ := Tiled.new h
    exact .inl ⟨[], [], by simp [hts], htiled, by simp⟩
  perm h hp := h.perm (hp.append_right _)
  bounded h := ⟨h.reservation.1, Nat.lt_of_le_of_lt h.reservation.2 h.length_lt⟩
  noWrap hseq := hseq
  reserve h hfits hok := by
    have h' := h.reserve hfits hok
    obtain ⟨-, rfl, -⟩ := reserve_ok hok
    exact h'
  commit h hseq hlen := by
    refine (h.commit hseq hlen).perm ?_
    rw [advance_tombstones, List.append_assoc, List.append_assoc]
    exact List.perm_append_comm.append_left _
  unreserve {b _ _} h := h.unreserve.frame false b.decommitTombstones
  decommit h hlen _ := h.decommit hlen

/-! ## The ranges are safe -/

theorem Commit.range_eq {c : Commit} (h : c.start ≤ c.stop) : c.range = Set.Ico c.start c.stop := by
  unfold Commit.range Commit.len
  rw [sub_eq h, Nat.add_sub_cancel' h]

theorem Reservation.range_eq {r : Reservation} (h : r.start ≤ r.stop) :
    r.range = Set.Ico r.start r.stop := by
  unfold Reservation.range Reservation.len
  rw [sub_eq h, Nat.add_sub_cancel' h]

theorem disjoint_Ico {a b c d : Nat} (h : b ≤ c ∨ d ≤ a) :
    Disjoint (Set.Ico a b) (Set.Ico c d) := by
  rw [Set.Ico_disjoint_Ico]
  omega

theorem Ico_subset_buffer {a b n : Nat} (h : b ≤ n) : Set.Ico a b ⊆ Set.Ico 0 n :=
  Set.Ico_subset_Ico (Nat.zero_le a) h

/-- **Memory regions never alias**: in every state of a run under `InBounds` the live reservation
and the live non-empty commits are pairwise disjoint and inside of the buffer. -/
theorem ranges_disjoint {s : Bip} (h : Reachable Bip.Init InBounds.Met Bip.exec s) :
    s.ranges.Pairwise Disjoint ∧ ∀ r ∈ s.ranges, r ⊆ Set.Ico 0 s.inner.length := by
  have hlayout := (layout_invariant.of_reachable h).holds
  have hout : ∀ c ∈ s.live, c ∈ s.live ++ s.inner.decommitTombstones := fun c hc =>
    List.mem_append_left _ hc
  have hrange : ∀ c ∈ s.live, c.range = Set.Ico c.start c.stop :=
    fun c hc => Commit.range_eq (hlayout.inside (hout c hc)).1.le
  unfold Bip.ranges
  refine ⟨List.pairwise_append.mpr ⟨?_, ?_, ?_⟩, ?_⟩
  · cases s.reservation <;> simp
  · refine List.pairwise_map.mpr (List.Pairwise.imp_of_mem ?_
      (hlayout.disjoint.sublist (List.sublist_append_left ..)))
    intro c d hc hd hcd
    rw [hrange c hc, hrange d hd]
    exact disjoint_Ico hcd
  · intro x hx y hy
    obtain ⟨r, hr, rfl⟩ : ∃ r, s.reservation = some r ∧ r.range = x := by simpa using hx
    obtain ⟨c, hc, rfl⟩ := List.mem_map.mp hy
    rw [hr] at hlayout
    rw [hrange c hc, Reservation.range_eq hlayout.reservation.1]
    exact (disjoint_Ico (hlayout.reservation_disjoint (hout c hc))).symm
  · intro x hx
    rcases List.mem_append.mp hx with hx | hx
    · obtain ⟨r, hr, rfl⟩ : ∃ r, s.reservation = some r ∧ r.range = x := by simpa using hx
      rw [hr] at hlayout
      rw [Reservation.range_eq hlayout.reservation.1]
      exact Ico_subset_buffer hlayout.reservation.2
    · obtain ⟨c, hc, rfl⟩ := List.mem_map.mp hx
      rw [hrange c hc]
      exact Ico_subset_buffer (hlayout.inside (hout c hc)).2

/-- A run that wraps around: the reservation of region B and the rest of region A are live. -/
theorem ranges_disjoint_wrapped :
    ∃ s, Reachable Bip.Init InBounds.Met Bip.exec s ∧
      s.reservation = some { start := 10, stop := 40, region := .B } ∧ s.commits.length = 2 ∧
      s.ranges.Pairwise Disjoint := by
  have hrun : ∃ s, Reachable Bip.Init InBounds.Met Bip.exec s ∧
      decide (s.reservation = some { start := 10, stop := 40, region := .B } ∧
        s.commits.length = 2) = true :=
    exists_reachable (Bip.new 100) (fun s h => ⟨100, h⟩)
      [.reserve 100 false, .tryCommit 0, .tryCommit 50, .tryCommit 50, .dropReservation,
        .dropCommit 0, .dropCommit 0, .reserve 40 true, .tryCommit 10] (by decide +kernel)
  obtain ⟨s, h, hs⟩ := hrun
  obtain ⟨hr, hlen⟩ := of_decide_eq_true hs
  exact ⟨s, h, hr, hlen, (ranges_disjoint h).1⟩

/-- Region A is drained while a reservation of region B is live. The next commit of this reservation
extends B beyond the start of A, `a_start - b_end` underflows, and a reservation of 1000 bytes is
granted in a buffer of 100 bytes. -/
theorem reservation_out_of_buffer :
    ∃ s, Reachable Bip.Init anyStep Bip.exec s ∧ s.inner.length = 100 ∧
      ¬ ∀ r ∈ s.ranges, r ⊆ Set.Ico 0 s.inner.length := by
  have hrun : ∃ s, Reachable Bip.Init anyStep Bip.exec s ∧
      decide (s.reservation = some { start := 20, stop := 1020, region := .B } ∧
        s.inner.length = 100) = true :=
    exists_reachable (Bip.new 100) (fun s h => ⟨100, h⟩)
      [.reserve 100 false, .tryCommit 0, .tryCommit 50, .tryCommit 50, .dropReservation,
        .dropCommit 0, .dropCommit 0, .reserve 40 false, .tryCommit 10, .dropCommit 0,
        .tryCommit 10, .dropReservation, .reserve 1000 false] (by decide +kernel)
  obtain ⟨s, h, hs⟩ := hrun
  obtain ⟨hr, hlen⟩ := of_decide_eq_true hs
  refine ⟨s, h, hlen, fun hall => ?_⟩
  have hmem : Set.Ico 20 1020 ∈ s.ranges := by
    refine List.mem_append_left _ ?_
    rw [hr, Option.map_some, Reservation.range_eq (by decide)]
    simp
  have hsub := hall _ hmem (show 500 ∈ Set.Ico 20 1020 by simp)
  simp [hlen] at hsub

end Aquic.BipBuf

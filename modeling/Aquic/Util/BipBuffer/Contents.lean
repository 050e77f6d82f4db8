import Aquic.Util.BipBuffer.Disjoint

/-!
# What the slices of a bip buffer hold

A `BipSliceMut` is written to, a `BipSlice` or a `BipView` is read, and both are ranges of one block of
memory, whose parts are handed out again and again. Since the ranges never alias, a write through the
reservation goes to the reservation alone: a slice reads for all of its life what was in the reservation
when it was committed.

`Filled` is a buffer in use together with its bytes.
-/

namespace Aquic.BipBuf

open Aquic.Run

structure Filled where
  bip : Bip
  bytes : List UInt8
  /-- History: what was committed with each of the slices that have not been dropped. -/
  committed : List (List UInt8)
  deriving DecidableEq, Repr

inductive FilledOp where
  | buffer (op : Op)
  /-- An assignment to the `i`-th byte of the live `BipSliceMut`. -/
  | write (i : Nat) (byte : UInt8)
  deriving DecidableEq, Repr

namespace Filled

/-- `BipBuffer::new`: the memory is zeroed. -/
def new (length : Nat) : Option Filled :=
  (Bip.new length).map fun bip => { bip, bytes := List.replicate length 0, committed := [] }

/-- `slice::from_raw_parts`. -/
def read (s : Filled) (start len : Nat) : List UInt8 := (s.bytes.drop start).take len

/-- `Deref for BipSliceMut`. -/
def contents (s : Filled) (r : Reservation) : List UInt8 := s.read r.start r.len

/-- `Deref for BipSlice` and `Deref for BipView`. -/
def slice (s : Filled) (c : Commit) : List UInt8 := s.read c.start c.len

/-- What an operation of the buffer does to the history. -/
def record (s : Filled) : Op → List (List UInt8)
  | .tryCommit len =>
    match s.bip.reservation with
    | none => s.committed
    | some r =>
      match s.bip.inner.commit r len with
      | none => s.committed
      | some _ => s.committed ++ [(s.contents r).take len]
  | .dropCommit i => s.committed.eraseIdx i
  | _ => s.committed

/-- `none` is an index out of bounds, or a write without a reservation. -/
def exec (s : Filled) : FilledOp → Option Filled
  | .buffer op => some { s with bip := (s.bip.step op).1, committed := s.record op }
  | .write i byte =>
    match s.bip.reservation with
    | none => none
    | some r =>
      if i < r.len then some { s with bytes := s.bytes.set (r.start + i) byte } else none

/-- The buffers right after `BipBuffer::new`. -/
def Init (s : Filled) : Prop := ∃ length, new length = some s

/-- The conditions under which the ranges are safe. -/
def Met (s : Filled) : FilledOp → Prop
  | .buffer op => InBounds.Met s.bip op
  | .write .. => True

instance : DecidableRel Met := fun s op =>
  match op with
  | .buffer op => inferInstanceAs (Decidable (InBounds.Met s.bip op))
  | .write .. => .isTrue trivial

variable {s s' : Filled}

/-! ## The buffer without its bytes -/

theorem reachable_bip (h : Reachable Init Met exec s) :
    Reachable Bip.Init InBounds.Met Bip.exec s.bip := by
  induction h with
  | init hinit =>
    obtain ⟨length, hnew⟩ := hinit
    obtain ⟨bip, hbip, rfl⟩ := Option.map_eq_some_iff.mp hnew
    exact .init ⟨length, hbip⟩
  | @step s s' op _ hmet hexec ih =>
    cases op with
    | buffer op =>
      cases hexec
      exact ih.step hmet rfl
    | write i byte =>
      simp only [exec] at hexec
      split at hexec
      · cases hexec
      · split at hexec <;> cases hexec
        exact ih

theorem layout_bip (h : Reachable Init Met exec s) :
    Layout s.bip.inner s.bip.reservation (s.bip.live ++ s.bip.inner.decommitTombstones) :=
  (layout_invariant.of_reachable (reachable_bip h)).holds

theorem length_step (bip : Bip) (op : Op) : (bip.step op).1.inner.length = bip.inner.length := by
  cases op with
  | reserve request strict =>
    simp only [Bip.step]
    split
    · rfl
    · rfl
    · next hok =>
      obtain ⟨-, rfl, -⟩ := reserve_ok hok
      rfl
  | tryCommit len =>
    simp only [Bip.step, Bip.tryCommit, BipBufferInner.commit]
    cases bip.reservation with
    | none => rfl
    | some r =>
      dsimp only
      by_cases hlen : r.len < len
      · rw [if_pos hlen]
      · rw [if_neg hlen]
        cases r.region <;> rfl
  | dropReservation =>
    simp only [Bip.step]
    cases bip.reservation <;> rfl
  | dropCommit i =>
    simp only [Bip.step]
    cases bip.commits[i]? with
    | none => rfl
    | some c => exact (decommit_frame bip.inner c).1

/-! ## Reading -/

/-- A byte outside of the range that is read. -/
theorem take_drop_set {l : List UInt8} {i start len : Nat} (byte : UInt8)
    (h : i < start ∨ start + len ≤ i) :
    ((l.set i byte).drop start).take len = (l.drop start).take len := by
  rcases h with h | h
  · rw [List.drop_set_of_lt h]
  · rw [List.drop_set, if_neg (by omega), List.take_set_of_le (by omega)]

/-- A byte inside of it. -/
theorem take_drop_set_add {l : List UInt8} {i start len : Nat} (byte : UInt8) :
    ((l.set (start + i) byte).drop start).take len = ((l.drop start).take len).set i byte := by
  rw [List.drop_set, if_neg (by omega), List.take_set, Nat.add_sub_cancel_left]

theorem length_read {start len : Nat} (h : start + len ≤ s.bytes.length) :
    (s.read start len).length = len := by
  unfold read
  rw [List.length_take, List.length_drop]
  omega

/-! ## The invariant -/

/-- The slices hold what was committed. -/
structure Intact (s : Filled) : Prop where
  length : s.bytes.length = s.bip.inner.length
  committed : s.committed = s.bip.commits.map s.slice

theorem Intact.tryCommit (h : Intact s) (hlayout : Layout s.bip.inner s.bip.reservation
      (s.bip.live ++ s.bip.inner.decommitTombstones)) {len : Nat}
    (hmet : InBounds.Met s.bip (.tryCommit len)) :
    s.record (.tryCommit len) = (s.bip.step (.tryCommit len)).1.commits.map s.slice := by
  simp only [record, Bip.step]
  cases hr : s.bip.reservation with
  | none => exact h.committed
  | some r =>
    rw [hr] at hlayout
    obtain ⟨hle, hstop⟩ := hlayout.reservation
    have hlength := hlayout.length_lt
    by_cases hlen : len ≤ r.len
    · have hlen' := hlen
      unfold Reservation.len at hlen'
      rw [sub_eq hle] at hlen'
      have hseq : s.bip.inner.commitIdSequence + 1 < 2 ^ 64 := hmet r hr hlen
      dsimp only
      rw [tryCommit_eq hle (by omega) hseq (by omega), commit_eq hle (by omega) hseq (by omega)]
      have hslice : s.slice (s.bip.inner.nextCommit r len) = (s.contents r).take len := by
        unfold slice contents read
        rw [nextCommit_len, List.take_take, Nat.min_eq_left hlen]
        rfl
      simp only [List.map_append, List.map_cons, List.map_nil, hslice, h.committed]
    · dsimp only
      rw [tryCommit_of_long (by omega)]
      unfold BipBufferInner.commit
      rw [if_pos (by omega)]
      exact h.committed

theorem Intact.buffer (h : Intact s) (hlayout : Layout s.bip.inner s.bip.reservation
      (s.bip.live ++ s.bip.inner.decommitTombstones)) {op : Op} (hmet : InBounds.Met s.bip op) :
    Intact { s with bip := (s.bip.step op).1, committed := s.record op } where
  length := h.length.trans (length_step s.bip op).symm
  committed := by
    cases op with
    | tryCommit len => exact h.tryCommit hlayout hmet
    | reserve request strict =>
      simp only [Bip.step]
      split <;> exact h.committed
    | dropReservation =>
      simp only [Bip.step]
      split <;> exact h.committed
    | dropCommit i =>
      simp only [record, Bip.step, h.committed, List.eraseIdx_map]
      split
      · next hnone =>
        rw [List.eraseIdx_of_length_le (List.getElem?_eq_none_iff.mp hnone)]
        rfl
      · rfl

/-- The live slices are not written to. -/
theorem Intact.write (h : Intact s) {r : Reservation}
    (hlayout : Layout s.bip.inner (some r) (s.bip.live ++ s.bip.inner.decommitTombstones))
    {i : Nat} (hi : i < r.len) (byte : UInt8) :
    Intact { s with bytes := s.bytes.set (r.start + i) byte } where
  length := by rw [List.length_set, h.length]
  committed := by
    have hle := hlayout.reservation.1
    unfold Reservation.len at hi
    rw [sub_eq hle] at hi
    refine h.committed.trans (List.map_congr_left fun c hc => ?_)
    unfold slice read
    by_cases hempty : c.len = 0
    · simp [hempty]
    · have hlive : c ∈ s.bip.live ++ s.bip.inner.decommitTombstones := by
        apply List.mem_append_left
        exact List.mem_filter.mpr ⟨hc, by simpa using hempty⟩
      obtain ⟨hlt, -⟩ := hlayout.inside hlive
      have hdisjoint := hlayout.reservation_disjoint hlive
      have hlen : c.len = c.stop - c.start := sub_eq hlt.le
      rw [take_drop_set byte (by omega)]

theorem intact (h : Reachable Init Met exec s) : Intact s := by
  induction h with
  | init hinit =>
    obtain ⟨length, hnew⟩ := hinit
    obtain ⟨bip, hbip, rfl⟩ := Option.map_eq_some_iff.mp hnew
    obtain ⟨inner, hinner, rfl⟩ := Option.map_eq_some_iff.mp hbip
    unfold BipBufferInner.new at hinner
    split at hinner <;> cases hinner
    exact ⟨List.length_replicate, rfl⟩
  | @step s s' op hs hmet hexec ih =>
    have hlayout := layout_bip hs
    cases op with
    | buffer op =>
      cases hexec
      exact ih.buffer hlayout hmet
    | write i byte =>
      simp only [exec] at hexec
      split at hexec
      · cases hexec
      · next r hr =>
        split at hexec
        · next hi =>
          cases hexec
          rw [hr] at hlayout
          exact ih.write hlayout hi byte
        · cases hexec

/-- **A slice keeps its bytes.** In every run in which the ranges are safe, each slice that has not been
dropped reads the bytes that were in the reservation when it was committed, all of them inside of the
buffer, whatever has been reserved, written, committed and dropped since. A write changes the one byte of
the reservation that it is meant for. -/
theorem slices_keep_their_bytes (h : Reachable Init Met exec s) :
    s.committed = s.bip.commits.map s.slice ∧ (∀ c ∈ s.bip.commits, (s.slice c).length = c.len) ∧
      ∀ r ∈ s.bip.reservation, ∀ i byte s', s.exec (.write i byte) = some s' →
        s'.bip = s.bip ∧ s'.committed = s.committed ∧ s'.contents r = (s.contents r).set i byte := by
  have hintact := intact h
  have hlayout := layout_bip h
  refine ⟨hintact.committed, fun c hc => ?_, ?_⟩
  · by_cases hempty : c.len = 0
    · simp [slice, read, hempty]
    · have hlive : c ∈ s.bip.live ++ s.bip.inner.decommitTombstones := by
        apply List.mem_append_left
        exact List.mem_filter.mpr ⟨hc, by simpa using hempty⟩
      obtain ⟨hlt, hstop⟩ := hlayout.inside hlive
      have hlen : c.len = c.stop - c.start := sub_eq hlt.le
      apply length_read
      rw [hintact.length]
      omega
  · intro r hr i byte s' hexec
    simp only [exec, Option.mem_def.mp hr, Option.ite_none_right_eq_some] at hexec
    obtain ⟨-, hexec⟩ := hexec
    cases hexec
    exact ⟨rfl, rfl, take_drop_set_add byte⟩

/-- Region B is written to while a slice of region A lives on. -/
theorem slices_keep_their_bytes_wrapped : ∃ s : Filled, Reachable Init Met exec s ∧
    s.committed = [[], [7, 8], [9]] ∧ s.bip.commits.map s.slice = [[], [7, 8], [9]] := by
  have hrun : ∃ s : Filled, Reachable Init Met exec s ∧
      decide (s.committed = [[], [7, 8], [9]]) = true :=
    exists_reachable (new 4) (fun s h => ⟨4, h⟩)
      [.buffer (.reserve 4 false), .buffer (.tryCommit 0), .write 0 5, .write 1 6, .write 2 7, .write 3 8,
        .buffer (.tryCommit 2), .buffer (.tryCommit 2), .buffer .dropReservation,
        .buffer (.dropCommit 1), .buffer (.reserve 1 true), .write 0 9, .buffer (.tryCommit 1)]
      (by decide +kernel)
  obtain ⟨s, hs, hp⟩ := hrun
  have hcommitted := of_decide_eq_true hp
  exact ⟨s, hs, hcommitted, (slices_keep_their_bytes hs).1 ▸ hcommitted⟩

end Filled

end Aquic.BipBuf

import Aquic.Util.BipBuffer.Rule

/-!
# Releasing slices of a bip buffer

Space comes back in the order of the commit ids. Two things can go wrong when slices are dropped:
the release panics, or the space does not come back. Both are about ids that are never released.

* The first commit has id 0, but the first id that is expected back is 1. A first commit that is not
  empty therefore stays at the front of region A for ever, and the second one, when its turn comes,
  does not start where the region does (`second_drop_panics`).
* An empty commit consumes an id, and its drop does not release it. Everything that is committed
  behind it is parked as a tombstone for ever (`space_lost_behind_empty_commit`).
* A reservation that outlives the draining of region A commits to a place where the region does not
  end any more.

Where the commits of a run continue their regions and these ids are avoided, no release panics
(`release_never_panics`), and all space comes back (`space_comes_back`).
-/

namespace Aquic.BipBuf

open Aquic.Run

section

variable {b : BipBufferInner} {out : List Commit} {res : Option Reservation} {c : Commit}

/-! ## The loop over the tombstones -/

/-- A property of the buffer and the tombstones that survives the release of the commit whose turn
it is, and the release succeeds. -/
structure Releases (Q : BipBufferInner → List Commit → Prop) : Prop where
  frame {b ts} (ts' : List Commit) : Q b ts → Q { b with decommitTombstones := ts' } ts
  noLag {b c ts} : Q b (c :: ts) → b.decommitNextId ≤ c.id
  release {b c ts} : Q b (c :: ts) → c.id = b.decommitNextId →
    ∃ b', b.decommitSingle c = .ok b' ∧
      { b' with decommitNextId := add b'.decommitNextId 1 } = b.pop c ∧ Q (b.pop c) ts

/-- The loop does not panic, keeps the property, and stops before a tombstone whose turn has not
come. -/
theorem Releases.drain {Q : BipBufferInner → List Commit → Prop} (hQ : Releases Q)
    {ts : List Commit} (h : Q b ts) :
    (BipBufferInner.drainTombstones ts b).2 = none ∧
    Q (BipBufferInner.drainTombstones ts b).1
      (BipBufferInner.drainTombstones ts b).1.decommitTombstones ∧
    ∀ t ∈ (BipBufferInner.drainTombstones ts b).1.decommitTombstones.head?,
      t.id ≠ (BipBufferInner.drainTombstones ts b).1.decommitNextId := by
  induction ts generalizing b with
  | nil => exact ⟨rfl, hQ.frame [] h, by simp [BipBufferInner.drainTombstones]⟩
  | cons c ts ih =>
    unfold BipBufferInner.drainTombstones
    split
    · next hid =>
      have := hQ.noLag h
      refine ⟨if_neg (by omega), hQ.frame (c :: ts) h, ?_⟩
      rintro _ ⟨⟩
      exact hid
    · next hid =>
      obtain ⟨b', hok, hpop, h'⟩ := hQ.release h (by simpa using hid)
      rw [hok]
      simp only [hpop]
      exact ih h'

theorem orderly_releases (res : Option Reservation) (live : List Commit) :
    Releases fun b ts => Orderly b res (live ++ ts) where
  frame {b _} ts' h := h.frame b.reserved ts'
  noLag h := (h.pending (by simp)).1
  release h hid := (h.perm List.perm_middle).release hid

/-- A slice that is released before its turn becomes a tombstone. -/
theorem decommit_of_ne (hlen : c.len ≠ 0) (hid : c.id ≠ b.decommitNextId) :
    b.decommit c = ({ b with decommitTombstones :=
      b.decommitTombstones.orderedInsert (fun c d => c.id ≤ d.id) c }, none) := by
  unfold BipBufferInner.decommit
  rw [if_neg hlen, if_pos hid]

/-- The commit whose turn it is is released, and then the tombstones behind it. -/
theorem Orderly.decommit_eq (h : Orderly b res (c :: out)) (hlen : c.len ≠ 0)
    (hid : c.id = b.decommitNextId) :
    b.decommit c = BipBufferInner.drainTombstones b.decommitTombstones (b.pop c) := by
  obtain ⟨b', hok, hpop, -⟩ := h.release hid
  unfold BipBufferInner.decommit
  rw [if_neg hlen, if_neg (by simpa using hid), hok]
  simp only [hpop]
  rw [(decommitSingle_frame hok).2.2.2]

/-- Dropping a slice of an orderly buffer does not panic, and leaves an orderly buffer. -/
theorem Orderly.decommit {live : List Commit} (hlen : c.len ≠ 0)
    (h : Orderly b res (c :: (live ++ b.decommitTombstones))) :
    (b.decommit c).2 = none ∧
    Orderly (b.decommit c).1 res (live ++ (b.decommit c).1.decommitTombstones) := by
  by_cases hid : c.id = b.decommitNextId
  · rw [h.decommit_eq hlen hid]
    obtain ⟨b', -, -, h'⟩ := h.release hid
    obtain ⟨hpanic, hdrained, -⟩ := (orderly_releases res live).drain h'
    exact ⟨hpanic, hdrained⟩
  · rw [decommit_of_ne hlen hid]
    exact ⟨rfl, (h.frame b.reserved _).perm (perm_insert ..)⟩

/-! ## No release panics -/

/-- **The conditions on a run**: commits continue their regions, and the second commit is not
dropped when it lies behind a first one. -/
def Continuing : Conditions where
  reserve _ _ := True
  commit b r len := Continues b r len ∧ b.commitIdSequence + 1 < 2 ^ 64
  drop c := c.id = 1 → c.start = 0

/-- Orderly, or the first commit was not empty: then nothing is released at all, for it is the
second one that is waited for. -/
def Calm (b : BipBufferInner) (res : Option Reservation) (out : List Commit) : Prop :=
  Orderly b res out ∨
  Loose b res out ∧ Stuck b out ∧ b.decommitNextId = 1 ∧ ∀ r ∈ res, r.region = .A

theorem Stuck.perm {out' : List Commit} (h : Stuck b out) (hp : out.Perm out') : Stuck b out' :=
  ⟨h.1, h.2.1, fun c hc => h.2.2 c (hp.mem_iff.mpr hc)⟩

theorem Calm.perm {out' : List Commit} (h : Calm b res out) (hp : out.Perm out') :
    Calm b res out' :=
  h.imp (·.perm hp) fun ⟨hloose, hstuck, hrest⟩ => ⟨hloose.perm hp, hstuck.perm hp, hrest⟩

theorem Calm.frame (h : Calm b res out) (reserved : Bool) (ts : List Commit) :
    Calm { b with reserved, decommitTombstones := ts } res out :=
  h.imp (·.frame reserved ts) fun ⟨hloose, hrest⟩ => ⟨hloose.frame reserved ts, hrest⟩

theorem Calm.layout (h : Calm b res out) : Layout b res out := h.imp_right (·.1)

theorem Calm.reserve {b' : BipBufferInner} {r : Reservation} {request : Nat} {strict : Bool}
    (h : Calm b none out) (hok : b.reserve request strict = .ok (b', some r)) :
    Calm b (some r) out := by
  refine h.imp (·.reserve hok) fun ⟨hloose, hstuck, hnext, _⟩ => ?_
  have hbLen : b.bLen = 0 := hloose.bLen_eq.trans hstuck.1
  refine ⟨hloose.reserve (fun _ hB => by omega) hok, hstuck, hnext, ?_⟩
  rintro _ ⟨⟩
  obtain ⟨-, -, -, rfl⟩ := reserve_ok hok
  -- nothing is in front of region A, so the reservation goes behind it
  rcases reserveInit_cases b request with ⟨hB, -⟩ | ⟨-, -, heq⟩ | ⟨-, hlt, -⟩
  · omega
  · simp [heq]
  · have := hstuck.2.1
    omega

/-- A reservation of region A does not touch region B. -/
theorem Loose.stuck_of_region {r : Reservation} (h : Loose b (some r) out) (hr : r.region = .A) :
    Stuck b out := by
  refine h.mode.resolve_right fun hover => ?_
  have := hover.2.2 r rfl
  simp [hr] at this

theorem advance_next (b : BipBufferInner) (r : Reservation) (len : Nat) :
    (b.advance r len).decommitNextId = b.decommitNextId := by
  unfold BipBufferInner.advance
  cases r.region <;> rfl

theorem Calm.commit {r : Reservation} {len : Nat} (h : Calm b (some r) out)
    (hcont : Continues b r len) (hseq : b.commitIdSequence + 1 < 2 ^ 64)
    (hlen : r.start + len ≤ r.stop) :
    Calm (b.advance r len) (some (r.advance len)) (out ++ b.occupied r len) := by
  rcases h with h | ⟨hloose, -, hnext, hregion⟩
  · by_cases hnext : len = 0 ∨ b.decommitNextId ≤ b.commitIdSequence
    · exact .inl (h.commit hseq hlen hcont hnext)
    · have hfresh := h.fresh
      have hfirst : 0 < len ∧ b.commitIdSequence = 0 ∧ b.decommitNextId = 1 := by omega
      have hregion : r.region = .A := by
        obtain ⟨oa, ob, -, htiled, -⟩ := h
        cases hr : r.region with
        | A => rfl
        | B =>
          have hA := (hcont.2 hr).2
          obtain ⟨rfl, -⟩ := htiled.eq_nil_of_fresh hfirst.2.1
          have : b.aStart = b.aEnd := htiled.tilesA
          omega
      have hloose := h.commit_loose hlen (.inr hfirst)
      refine .inr ⟨hloose, hloose.stuck_of_region hregion, ?_, ?_⟩
      · rw [advance_next, hfirst.2.2]
      · rintro _ ⟨⟩
        exact hregion
  · have hloose := hloose.commit hlen
    have hregion := hregion r rfl
    refine .inr ⟨hloose, hloose.stuck_of_region hregion, ?_, ?_⟩
    · rw [advance_next, hnext]
    · rintro _ ⟨⟩
      exact hregion

theorem Calm.decommit {live : List Commit} (hlen : c.len ≠ 0) (hdrop : c.id = 1 → c.start = 0)
    (h : Calm b res (c :: (live ++ b.decommitTombstones))) :
    (b.decommit c).2 = none ∧
    Calm (b.decommit c).1 res (live ++ (b.decommit c).1.decommitTombstones) := by
  rcases h with h | h
  · obtain ⟨hpanic, h'⟩ := h.decommit hlen
    exact ⟨hpanic, .inl h'⟩
  · have hid : c.id ≠ b.decommitNextId := by
      obtain ⟨-, hstuck, hnext, -⟩ := h
      intro hid
      exact hstuck.2.2 c (by simp) (hdrop (by omega)) hid
    rw [decommit_of_ne hlen hid]
    exact ⟨rfl, (Calm.frame (.inr h) b.reserved _).perm (perm_insert ..)⟩

theorem calm_invariant :
    Invariant Continuing fun b res live => Calm b res (live ++ b.decommitTombstones) where
  new h := by
    obtain ⟨htiled, hts⟩ := Tiled.new h
    exact .inl ⟨[], [], by simp [hts], htiled, by simp⟩
  perm h hp := h.perm (hp.append_right _)
  bounded h :=
    ⟨h.layout.reservation.1, Nat.lt_of_le_of_lt h.layout.reservation.2 h.layout.length_lt⟩
  noWrap hk := hk.2
  reserve {b _ _ _ _ _} h _ hok := by
    have h' := h.reserve hok
    obtain ⟨-, rfl, -⟩ := reserve_ok hok
    exact h'.frame true b.decommitTombstones
  commit h hk hlen := by
    refine (h.commit hk.1 hk.2 hlen).perm ?_
    rw [advance_tombstones, List.append_assoc, List.append_assoc]
    exact List.perm_append_comm.append_left _
  unreserve {b _ _} h := by
    refine Calm.frame ?_ false b.decommitTombstones
    exact h.imp (·.unreserve) fun ⟨hloose, hstuck, hnext, _⟩ =>
      ⟨hloose.unreserve, hstuck, hnext, by simp⟩
  decommit h hlen hdrop := (h.decommit hlen hdrop).2

end

theorem reserve_error {b : BipBufferInner} {request : Nat} {strict : Bool} {panic : Panic}
    (h : b.reserve request strict = .error panic) : panic = .reserved := by
  unfold BipBufferInner.reserve at h
  split at h
  · cases h
    rfl
  · simp only at h
    split at h <;> cases h

/-- **Releasing never panics**: in a run under `Continuing` no operation ends in one of the two
panics of `decommit`. -/
theorem release_never_panics {s : Bip} (h : Reachable Bip.Init Continuing.Met Bip.exec s) {op : Op}
    (hk : Continuing.Met s op) :
    (s.step op).2 ≠ some .tombstoneLag ∧ (s.step op).2 ≠ some .outOfOrder := by
  have hs := calm_invariant.of_reachable h
  cases op with
  | reserve request strict =>
    unfold Bip.step
    simp only
    split
    · next panic hpanic => simp [reserve_error hpanic]
    · simp
    · simp
  | tryCommit len =>
    unfold Bip.step
    cases s.reservation <;> simp
  | dropReservation =>
    unfold Bip.step
    cases s.reservation <;> simp
  | dropCommit i =>
    unfold Bip.step
    simp only
    split
    · simp
    · next c hc =>
      by_cases hlen : c.len = 0
      · simp [BipBufferInner.decommit, hlen]
      · have hcalm := calm_invariant.holds_cons hs hc hlen
        rw [(hcalm.decommit hlen (hk c hc hlen)).1]
        simp

/-- A run that meets the conditions: the first commit is empty, and a slice in the middle is dropped
before its turn. -/
theorem release_never_panics_early_drop :
    ∃ s, Reachable Bip.Init Continuing.Met Bip.exec s ∧ s.inner.decommitTombstones ≠ [] ∧
      (s.step (.dropCommit 0)).2 ≠ some .tombstoneLag ∧
      (s.step (.dropCommit 0)).2 ≠ some .outOfOrder := by
  have hrun : ∃ s, Reachable Bip.Init Continuing.Met Bip.exec s ∧
      decide (s.inner.decommitTombstones ≠ [] ∧ Continuing.Met s (.dropCommit 0)) = true :=
    exists_reachable (Bip.new 100) (fun s h => ⟨100, h⟩)
      [.reserve 100 false, .tryCommit 0, .tryCommit 50, .tryCommit 50, .dropReservation,
        .dropCommit 0, .dropCommit 1] (by decide +kernel)
  obtain ⟨s, h, hs⟩ := hrun
  obtain ⟨hts, hk⟩ := of_decide_eq_true hs
  exact ⟨s, h, hts, release_never_panics h hk⟩

/-- Two slices of ten bytes are committed and dropped in this order: the first becomes a tombstone,
the second, whose turn it is, is out of order. -/
theorem second_drop_panics :
    ∃ s, Reachable Bip.Init anyStep Bip.exec s ∧
      (s.step (.dropCommit 0)).2 = some .outOfOrder := by
  have hrun : ∃ s, Reachable Bip.Init anyStep Bip.exec s ∧
      decide ((s.step (.dropCommit 0)).2 = some .outOfOrder) = true :=
    exists_reachable (Bip.new 100) (fun s h => ⟨100, h⟩)
      [.reserve 100 false, .tryCommit 10, .tryCommit 10, .dropReservation, .dropCommit 0]
      (by decide +kernel)
  obtain ⟨s, h, hs⟩ := hrun
  exact ⟨s, h, of_decide_eq_true hs⟩

/-! ## All space comes back -/

/-- **The conditions on a run**: commits continue their regions, and exactly the first commit is
empty. -/
def Gapless : Conditions where
  reserve _ _ := True
  commit b r len :=
    Continues b r len ∧ b.commitIdSequence + 1 < 2 ^ 64 ∧ (len = 0 ↔ b.commitIdSequence = 0)
  drop _ := True

/-- Every id that is expected back belongs to memory that is occupied; id 0 is not expected. -/
def Complete (b : BipBufferInner) (out : List Commit) : Prop :=
  0 < b.decommitNextId ∧
  ∀ i, b.decommitNextId ≤ i → i < b.commitIdSequence → ∃ c ∈ out, c.id = i

/-- The tombstones are in order, and none of them has its turn. -/
def Parked (b : BipBufferInner) : Prop :=
  b.decommitTombstones.Pairwise (fun c d => c.id ≤ d.id) ∧
  ∀ t ∈ b.decommitTombstones, t.id ≠ b.decommitNextId

section

variable {b : BipBufferInner} {out : List Commit} {res : Option Reservation} {c : Commit}

theorem Complete.perm {out' : List Commit} (h : Complete b out) (hp : out.Perm out') :
    Complete b out' := by
  refine ⟨h.1, fun i hle hlt => ?_⟩
  obtain ⟨c, hc, hid⟩ := h.2 i hle hlt
  exact ⟨c, hp.mem_iff.mp hc, hid⟩

theorem Complete.pop (h : Complete b (c :: out)) (hid : c.id = b.decommitNextId) :
    Complete (b.pop c) out := by
  refine ⟨Nat.succ_pos _, fun i hle hlt => ?_⟩
  rw [pop_next] at hle
  rw [pop_seq] at hlt
  obtain ⟨d, hd, rfl⟩ := h.2 i (by omega) hlt
  rcases List.mem_cons.mp hd with rfl | hd
  · omega
  · exact ⟨d, hd, rfl⟩

theorem complete_releases (res : Option Reservation) (live : List Commit) :
    Releases fun b ts => Orderly b res (live ++ ts) ∧ Complete b (live ++ ts) ∧
      ts.Pairwise fun c d => c.id ≤ d.id where
  frame {b _} ts' h := ⟨h.1.frame b.reserved ts', h.2⟩
  noLag h := (orderly_releases res live).noLag h.1
  release h hid := by
    obtain ⟨b', hok, hpop, h'⟩ := (orderly_releases res live).release h.1 hid
    exact ⟨b', hok, hpop, h', (h.2.1.perm List.perm_middle).pop hid, (List.pairwise_cons.mp h.2.2).2⟩

theorem Parked.insert (h : Parked b) (hid : c.id ≠ b.decommitNextId) :
    Parked { b with decommitTombstones :=
      b.decommitTombstones.orderedInsert (fun c d => c.id ≤ d.id) c } := by
  have : Std.Total fun c d : Commit => c.id ≤ d.id := ⟨fun c d => Nat.le_total c.id d.id⟩
  have : IsTrans Commit fun c d => c.id ≤ d.id := ⟨fun _ _ _ => Nat.le_trans⟩
  refine ⟨h.1.orderedInsert c _, ?_⟩
  intro t ht
  rcases (List.mem_orderedInsert ..).mp ht with rfl | ht
  · exact hid
  · exact h.2 t ht

/-- When the lowest tombstone does not have its turn, no tombstone does. -/
theorem Orderly.parked {live : List Commit} (h : Orderly b res (live ++ b.decommitTombstones))
    (hsorted : b.decommitTombstones.Pairwise fun c d => c.id ≤ d.id)
    (hhead : ∀ t ∈ b.decommitTombstones.head?, t.id ≠ b.decommitNextId) : Parked b := by
  refine ⟨hsorted, fun t ht => ?_⟩
  cases hts : b.decommitTombstones with
  | nil => simp [hts] at ht
  | cons d ts =>
    rw [hts] at ht hsorted hhead h
    have hd := hhead d rfl
    have hle := (h.pending (c := d) (by simp)).1
    rcases List.mem_cons.mp ht with rfl | ht
    · exact hd
    · have := (List.pairwise_cons.mp hsorted).1 t ht
      omega

/-- Nothing is lost: an orderly buffer, whose pending ids all belong to occupied memory, and whose
tombstones all wait for a slice that is live. -/
structure Tight (b : BipBufferInner) (res : Option Reservation) (live : List Commit) : Prop where
  orderly : Orderly b res (live ++ b.decommitTombstones)
  complete : Complete b (live ++ b.decommitTombstones)
  parked : Parked b

theorem Tight.decommit {live : List Commit} (hlen : c.len ≠ 0) (h : Tight b res (c :: live)) :
    Tight (b.decommit c).1 res live := by
  by_cases hid : c.id = b.decommitNextId
  · rw [h.orderly.decommit_eq hlen hid]
    obtain ⟨b', -, -, h'⟩ := h.orderly.release hid
    obtain ⟨-, ⟨horderly, hcomplete, hsorted⟩, hhead⟩ := (complete_releases res live).drain
      ⟨h', h.complete.pop hid, h.parked.1⟩
    exact ⟨horderly, hcomplete, horderly.parked hsorted hhead⟩
  · rw [decommit_of_ne hlen hid]
    exact ⟨(h.orderly.frame b.reserved _).perm (perm_insert ..),
      Complete.perm h.complete (perm_insert ..), h.parked.insert hid⟩

theorem advance_seq (b : BipBufferInner) (r : Reservation) (len : Nat) :
    (b.advance r len).commitIdSequence = b.commitIdSequence + 1 := by
  unfold BipBufferInner.advance
  cases r.region <;> rfl

/-- Only the first commit, whose id nobody waits for, may be empty. -/
theorem Complete.commit {r : Reservation} {len : Nat} (h : Complete b out)
    (hlen : len = 0 ↔ b.commitIdSequence = 0) :
    Complete (b.advance r len) (out ++ b.occupied r len) := by
  obtain ⟨hpos, h⟩ := h
  refine ⟨by rwa [advance_next], fun i hle hlt => ?_⟩
  rw [advance_next] at hle
  rw [advance_seq] at hlt
  rcases Nat.lt_succ_iff_lt_or_eq.mp hlt with hlt | rfl
  · obtain ⟨c, hc, hid⟩ := h i hle hlt
    exact ⟨c, List.mem_append_left _ hc, hid⟩
  · refine ⟨b.nextCommit r len, List.mem_append_right _ ?_, rfl⟩
    unfold BipBufferInner.occupied
    rw [if_neg (by omega)]
    simp

theorem Tight.commit {r : Reservation} {len : Nat} {live : List Commit} (h : Tight b (some r) live)
    (hk : Gapless.commit b r len) (hlen : r.start + len ≤ r.stop) :
    Tight (b.advance r len) (some (r.advance len)) (live ++ b.occupied r len) := by
  obtain ⟨hcont, hseq, hfirst⟩ := hk
  have hfresh := h.orderly.fresh
  have hperm : ((live ++ b.decommitTombstones) ++ b.occupied r len).Perm
      ((live ++ b.occupied r len) ++ (b.advance r len).decommitTombstones) := by
    rw [advance_tombstones, List.append_assoc, List.append_assoc]
    exact List.perm_append_comm.append_left _
  refine ⟨(h.orderly.commit hseq hlen hcont (by omega)).perm hperm,
    (h.complete.commit hfirst).perm hperm, ?_⟩
  unfold Parked
  rw [advance_tombstones, advance_next]
  exact h.parked

theorem tight_invariant : Invariant Gapless Tight where
  new {_ b} h := by
    obtain ⟨htiled, hts⟩ := Tiled.new h
    have horderly : Orderly b none ([] ++ b.decommitTombstones) :=
      ⟨[], [], by simp [hts], htiled, by simp⟩
    refine ⟨horderly, ⟨?_, ?_⟩, by simp [hts], by simp [hts]⟩
    all_goals
      unfold BipBufferInner.new at h
      split at h <;> cases h
    · exact Nat.one_pos
    · intro i _ hlt
      exact absurd hlt (Nat.not_lt_zero i)
  perm h hp := ⟨h.orderly.perm (hp.append_right _), h.complete.perm (hp.append_right _), h.parked⟩
  bounded h := by
    have hlayout : Layout _ _ _ := .inl h.orderly
    exact ⟨hlayout.reservation.1, Nat.lt_of_le_of_lt hlayout.reservation.2 hlayout.length_lt⟩
  noWrap hk := hk.2.1
  reserve {b _ _ _ _ _} h _ hok := by
    have h' := h.orderly.reserve hok
    obtain ⟨-, rfl, -⟩ := reserve_ok hok
    exact ⟨h'.frame true b.decommitTombstones, h.complete, h.parked⟩
  commit h hk hlen := h.commit hk hlen
  unreserve {b _ _} h :=
    ⟨h.orderly.unreserve.frame false b.decommitTombstones, h.complete, h.parked⟩
  decommit h hlen _ := h.decommit hlen

/-- With no slice left, no tombstone is left either: the lowest pending id would be its turn. -/
theorem Tight.eq_nil (h : Tight b res []) :
    b.decommitTombstones = [] ∧ Tiled b [] [] := by
  have hnil : b.decommitTombstones = [] := by
    refine List.eq_nil_iff_forall_not_mem.mpr fun t ht => ?_
    obtain ⟨hle, hlt⟩ := h.orderly.pending (c := t) (by simpa using ht)
    obtain ⟨d, hd, hid⟩ := h.complete.2 b.decommitNextId le_rfl (by omega)
    exact h.parked.2 d (by simpa using hd) hid
  obtain ⟨oa, ob, hperm, htiled, -⟩ := h.orderly
  rw [hnil] at hperm
  obtain ⟨rfl, rfl⟩ := List.append_eq_nil_iff.mp (List.Perm.eq_nil hperm)
  exact ⟨hnil, htiled⟩

theorem Tiled.available_eq (h : Tiled b [] []) : b.available = b.length := by
  have hA := h.aStart_eq rfl
  have hAend : b.aStart = b.aEnd := h.tilesA
  have hB := h.bEnd_eq_zero
  unfold BipBufferInner.available
  rw [h.bLen_eq, if_neg (by omega), sub_eq h.aEnd_le]
  omega

end

/-- **All space comes back**: in a run under `Gapless`, once no slice is live, the whole buffer is
available again and no tombstone is left; what is reserved does not count as occupied. -/
theorem space_comes_back {s : Bip} (h : Reachable Bip.Init Gapless.Met Bip.exec s)
    (hcommits : s.commits = []) :
    s.inner.available = s.inner.length ∧ s.inner.decommitTombstones = [] := by
  have htight := (tight_invariant.of_reachable h).holds
  have hlive : s.live = [] := by simp [Bip.live, hcommits]
  rw [hlive] at htight
  obtain ⟨hts, htiled⟩ := htight.eq_nil
  exact ⟨htiled.available_eq, hts⟩

/-- Slices are dropped in the reverse order. -/
theorem space_comes_back_reversed :
    ∃ s, Reachable Bip.Init Gapless.Met Bip.exec s ∧ s.inner.commitIdSequence = 3 ∧
      s.commits = [] ∧ s.reservation = none ∧ s.inner.available = s.inner.length := by
  have hrun : ∃ s, Reachable Bip.Init Gapless.Met Bip.exec s ∧
      decide (s.inner.commitIdSequence = 3 ∧ s.commits = [] ∧ s.reservation = none) = true :=
    exists_reachable (Bip.new 100) (fun s h => ⟨100, h⟩)
      [.reserve 100 false, .tryCommit 0, .tryCommit 50, .tryCommit 50, .dropReservation,
        .dropCommit 2, .dropCommit 1, .dropCommit 0] (by decide +kernel)
  obtain ⟨s, h, hs⟩ := hrun
  obtain ⟨hseq, hcommits, hreservation⟩ := of_decide_eq_true hs
  exact ⟨s, h, hseq, hcommits, hreservation, (space_comes_back h hcommits).1⟩

/-- Ten bytes are committed behind an empty commit, and everything is dropped: the ten bytes stay
occupied. -/
theorem space_lost_behind_empty_commit :
    ∃ s, Reachable Bip.Init anyStep Bip.exec s ∧ s.commits = [] ∧ s.reservation = none ∧
      ¬ (s.inner.available = s.inner.length ∧ s.inner.decommitTombstones = []) := by
  have hrun : ∃ s, Reachable Bip.Init anyStep Bip.exec s ∧
      decide (s.commits = [] ∧ s.reservation = none ∧
        ¬ (s.inner.available = s.inner.length ∧ s.inner.decommitTombstones = [])) = true :=
    exists_reachable (Bip.new 100) (fun s h => ⟨100, h⟩)
      [.reserve 100 false, .tryCommit 0, .tryCommit 0, .tryCommit 10, .dropReservation,
        .dropCommit 0, .dropCommit 0, .dropCommit 0] (by decide +kernel)
  obtain ⟨s, h, hs⟩ := hrun
  exact ⟨s, h, of_decide_eq_true hs⟩

end Aquic.BipBuf

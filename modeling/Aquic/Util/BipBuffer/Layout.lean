import Aquic.Lib.Tiling
import Aquic.Util.BipBuffer.Basic

/-!
# The layout of a bip buffer

What the indices of the buffer say about the memory that is still occupied: the non-empty commits
that are live, and those released early that wait as tombstones. There are two layouts.

* `Tiled`: the one the design intends. The occupied commits of region A cut it into consecutive
  pieces, so do those of region B, B lies before A, and the ids grow along A and then along B. The
  commit whose turn it is sits at the very front of A, so that its release cannot fail.
* `Loose`: what is left when a reservation outlives the draining of region A, or when the first
  commit, which is never released, is not empty. The occupied commits are disjoint and lie below
  the end of the last region, nothing more.

`Layout` is the disjunction, and every operation keeps it. The layout does not mention `reserved`
and the tombstones (`Layout.frame`).
-/

namespace Aquic.BipBuf

open Aquic.Word Aquic.Tiling

/-! ## Index arithmetic without wrap-around -/

theorem sub_eq {a b : Nat} (h : b ≤ a) : sub a b = a - b := by
  unfold sub
  exact wrappingSub_of_le h

/-- An underflow leaves a huge number. -/
theorem sub_of_lt {a b : Nat} (hb : b < 2 ^ 63) (h : a < b) : sub a b + b = a + 2 ^ 64 := by
  unfold sub
  exact wrappingSub_of_lt (hb.le.trans (by decide)) h

theorem sub_eq_zero_iff {a b : Nat} (hb : b < 2 ^ 63) : sub a b = 0 ↔ a = b := by
  unfold sub
  exact wrappingSub_eq_zero (hb.trans (by decide))

theorem add_eq {a b : Nat} (h : a + b < 2 ^ 64) : add a b = a + b := by
  unfold add
  exact wrappingAdd_of_lt h

/-! ## The two layouts -/

/-- The commits `oa` tile region A and `ob` tile region B, in the order of their ids. -/
structure Tiled (b : BipBufferInner) (oa ob : List Commit) : Prop where
  length_lt : b.length < 2 ^ 63
  tilesA : Tiles Commit.start Commit.stop b.aStart oa b.aEnd
  tilesB : Tiles Commit.start Commit.stop 0 ob b.bEnd
  bStart : b.bStart = 0
  aEnd_le : b.aEnd ≤ b.length
  bEnd_le : b.bEnd ≤ b.aStart
  /-- An empty region A starts at the beginning, for it was B before. -/
  aStart_eq : oa = [] → b.aStart = 0
  sorted : (oa ++ ob).Pairwise fun c d => c.id < d.id
  pending : ∀ c ∈ oa ++ ob, b.decommitNextId ≤ c.id ∧ c.id < b.commitIdSequence
  seq_lt : b.commitIdSequence < 2 ^ 64
  /-- Before the first commit the expected id is ahead of the sequence. -/
  fresh : b.decommitNextId ≤ b.commitIdSequence ∨ b.commitIdSequence = 0 ∧ b.decommitNextId = 1

/-- Where the live reservation of a tiled buffer may be: right behind its region as long as region
A has not been drained meanwhile, and behind everything otherwise. -/
def Placed (b : BipBufferInner) (oa ob : List Commit) (r : Reservation) : Prop :=
  r.start ≤ r.stop ∧
  match r.region with
  | .A => ob = [] ∧ (r.start = b.aEnd ∨ oa = []) ∧ b.aEnd ≤ r.start ∧ r.stop ≤ b.length
  | .B => (r.start = b.bEnd ∧ oa ≠ [] ∧ r.stop ≤ b.aStart) ∨
      (ob = [] ∧ b.aEnd ≤ r.start ∧ r.stop ≤ b.length)

/-- The end of the last region. -/
def BipBufferInner.top (b : BipBufferInner) : Nat := max b.aEnd b.bEnd

/-- Nothing can be released: both regions start at 0, but the commit whose turn it is does not. -/
def Stuck (b : BipBufferInner) (out : List Commit) : Prop :=
  b.bEnd = 0 ∧ b.aStart = 0 ∧ ∀ c ∈ out, c.start = 0 → c.id ≠ b.decommitNextId

/-- Region B reaches beyond region A: a reservation of B was committed after A became B. -/
def Overlapped (b : BipBufferInner) (res : Option Reservation) : Prop :=
  0 < b.bEnd ∧ b.aEnd ≤ b.bEnd ∧ ∀ r ∈ res, r.region = .B

/-- The occupied commits are disjoint and below `top`, the live reservation is above it. -/
structure Loose (b : BipBufferInner) (res : Option Reservation) (out : List Commit) : Prop where
  length_lt : b.length < 2 ^ 63
  bStart : b.bStart = 0
  inside : ∀ c ∈ out, b.aStart ≤ c.start ∧ c.start < c.stop ∧ c.stop ≤ b.top
  disjoint : out.Pairwise fun c d => c.stop ≤ d.start ∨ d.stop ≤ c.start
  top_pos : 0 < b.top
  top_le : b.top ≤ b.length
  aStart_le : b.aStart ≤ b.top
  above : ∀ r ∈ res, b.top ≤ r.start ∧ r.start ≤ r.stop ∧ r.stop ≤ b.length
  mode : Stuck b out ∨ Overlapped b res

/-- The occupied commits, in some order, tile the two regions. -/
def Orderly (b : BipBufferInner) (res : Option Reservation) (out : List Commit) : Prop :=
  ∃ oa ob, (oa ++ ob).Perm out ∧ Tiled b oa ob ∧ ∀ r ∈ res, Placed b oa ob r

/-- The memory occupied by `out`, with the live reservation `res`. -/
def Layout (b : BipBufferInner) (res : Option Reservation) (out : List Commit) : Prop :=
  Orderly b res out ∨ Loose b res out

section

variable {b : BipBufferInner} {oa ob out : List Commit} {res : Option Reservation}
  {r : Reservation} {c : Commit}

theorem Tiled.frame (h : Tiled b oa ob) (reserved : Bool) (ts : List Commit) :
    Tiled { b with reserved, decommitTombstones := ts } oa ob :=
  ⟨h.length_lt, h.tilesA, h.tilesB, h.bStart, h.aEnd_le, h.bEnd_le, h.aStart_eq, h.sorted,
    h.pending, h.seq_lt, h.fresh⟩

theorem Loose.frame (h : Loose b res out) (reserved : Bool) (ts : List Commit) :
    Loose { b with reserved, decommitTombstones := ts } res out :=
  ⟨h.length_lt, h.bStart, h.inside, h.disjoint, h.top_pos, h.top_le, h.aStart_le, h.above, h.mode⟩

theorem Orderly.frame (h : Orderly b res out) (reserved : Bool) (ts : List Commit) :
    Orderly { b with reserved, decommitTombstones := ts } res out := by
  obtain ⟨oa, ob, hperm, htiled, hplaced⟩ := h
  exact ⟨oa, ob, hperm, htiled.frame reserved ts, hplaced⟩

/-- The layout says nothing about `reserved` and the tombstones. -/
theorem Layout.frame (h : Layout b res out) (reserved : Bool) (ts : List Commit) :
    Layout { b with reserved, decommitTombstones := ts } res out :=
  h.imp (·.frame reserved ts) (·.frame reserved ts)

theorem Loose.perm {out' : List Commit} (h : Loose b res out) (hp : out.Perm out') :
    Loose b res out' where
  length_lt := h.length_lt
  bStart := h.bStart
  inside c hc := h.inside c (hp.mem_iff.mpr hc)
  disjoint := (hp.pairwise_iff fun hcd => hcd.symm).mp h.disjoint
  top_pos := h.top_pos
  top_le := h.top_le
  aStart_le := h.aStart_le
  above := h.above
  mode := h.mode.imp_left fun ⟨h₁, h₂, h₃⟩ => ⟨h₁, h₂, fun c hc => h₃ c (hp.mem_iff.mpr hc)⟩

theorem Orderly.perm {out' : List Commit} (h : Orderly b res out) (hp : out.Perm out') :
    Orderly b res out' := by
  obtain ⟨oa, ob, hperm, htiled, hplaced⟩ := h
  exact ⟨oa, ob, hperm.trans hp, htiled, hplaced⟩

theorem Layout.perm {out' : List Commit} (h : Layout b res out) (hp : out.Perm out') :
    Layout b res out' :=
  h.imp (·.perm hp) (·.perm hp)

theorem Orderly.unreserve (h : Orderly b res out) : Orderly b none out := by
  obtain ⟨oa, ob, hperm, htiled, -⟩ := h
  exact ⟨oa, ob, hperm, htiled, by simp⟩

theorem Loose.unreserve (h : Loose b res out) : Loose b none out where
  length_lt := h.length_lt
  bStart := h.bStart
  inside := h.inside
  disjoint := h.disjoint
  top_pos := h.top_pos
  top_le := h.top_le
  aStart_le := h.aStart_le
  above := by simp
  mode := h.mode.imp_right fun ⟨hB, hAB, _⟩ => ⟨hB, hAB, by simp⟩

/-- Dropping the reservation. -/
theorem Layout.unreserve (h : Layout b res out) : Layout b none out :=
  h.imp (·.unreserve) (·.unreserve)

/-- A new buffer. -/
theorem Tiled.new {length : Nat} (h : BipBufferInner.new length = some b) :
    Tiled b [] [] ∧ b.decommitTombstones = [] := by
  unfold BipBufferInner.new at h
  split at h
  · next hlength =>
    cases h
    exact ⟨⟨hlength, rfl, rfl, rfl, Nat.zero_le _, Nat.le_refl _, fun _ => rfl, .nil, by simp,
      Nat.two_pow_pos 64, .inr ⟨rfl, rfl⟩⟩, rfl⟩
  · cases h

/-! ## What the layout says about memory -/

theorem Tiled.bounds (h : Tiled b oa ob) :
    b.aStart ≤ b.aEnd ∧ b.aEnd < 2 ^ 63 ∧ b.bEnd < 2 ^ 63 := by
  have := h.tilesA.le
  have := h.aEnd_le
  have := h.bEnd_le
  have := h.length_lt
  omega

theorem Tiled.inside (h : Tiled b oa ob) (hc : c ∈ oa ++ ob) :
    c.start < c.stop ∧ c.stop ≤ b.aEnd := by
  have := h.bounds
  have := h.bEnd_le
  rcases List.mem_append.mp hc with hc | hc
  · have := h.tilesA.mem hc
    omega
  · have := h.tilesB.mem hc
    omega

/-- Region B comes first, region A behind it. -/
theorem Tiled.disjoint (h : Tiled b oa ob) :
    (oa ++ ob).Pairwise fun c d => c.stop ≤ d.start ∨ d.stop ≤ c.start := by
  refine List.pairwise_append.mpr ⟨h.tilesA.pairwise.imp .inl, h.tilesB.pairwise.imp .inl, ?_⟩
  intro c hc d hd
  have := h.tilesA.mem hc
  have := h.tilesB.mem hd
  have := h.bEnd_le
  omega

theorem Layout.length_lt (h : Layout b res out) : b.length < 2 ^ 63 := by
  rcases h with ⟨oa, ob, -, h, -⟩ | h
  · exact h.length_lt
  · exact h.length_lt

theorem Layout.inside (h : Layout b res out) (hc : c ∈ out) :
    c.start < c.stop ∧ c.stop ≤ b.length := by
  rcases h with ⟨oa, ob, hperm, h, -⟩ | h
  · have := h.inside (hperm.mem_iff.mpr hc)
    have := h.aEnd_le
    omega
  · have := h.inside c hc
    have := h.top_le
    omega

theorem Layout.disjoint (h : Layout b res out) :
    out.Pairwise fun c d => c.stop ≤ d.start ∨ d.stop ≤ c.start := by
  rcases h with ⟨oa, ob, hperm, h, -⟩ | h
  · exact (hperm.pairwise_iff fun hcd => hcd.symm).mp h.disjoint
  · exact h.disjoint

theorem Layout.reservation (h : Layout b (some r) out) : r.start ≤ r.stop ∧ r.stop ≤ b.length := by
  rcases h with ⟨oa, ob, -, h, hplaced⟩ | h
  · obtain ⟨hle, hplaced⟩ := hplaced r rfl
    have := h.bounds
    have := h.aEnd_le
    cases hr : r.region <;> simp only [hr] at hplaced <;> omega
  · exact (h.above r rfl).2

/-- The live reservation does not touch an occupied commit. -/
theorem Layout.reservation_disjoint (h : Layout b (some r) out) (hc : c ∈ out) :
    c.stop ≤ r.start ∨ r.stop ≤ c.start := by
  rcases h with ⟨oa, ob, hperm, h, hplaced⟩ | h
  · obtain ⟨hle, hplaced⟩ := hplaced r rfl
    have hbounds := h.bounds
    have hbEnd := h.bEnd_le
    have hc := hperm.mem_iff.mpr hc
    rcases List.mem_append.mp hc with hc' | hc'
    · have := h.tilesA.mem hc'
      cases hr : r.region <;> simp only [hr] at hplaced <;> omega
    · have := h.tilesB.mem hc'
      have hob : ob ≠ [] := List.ne_nil_of_mem hc'
      cases hr : r.region <;> simp only [hr, hob, false_and, or_false] at hplaced
      omega
  · have := h.above r rfl
    have := h.inside c hc
    omega

/-! ## Reserving -/

/-- What an unlucky underflow of `aStart - bEnd` may do: the reservation is cut off by the request
alone, which has to fit behind region B. -/
def ReserveFits (b : BipBufferInner) (request : Nat) : Prop :=
  b.reserved = false → 0 < b.bLen → b.aStart < b.bEnd → b.bEnd + request ≤ b.length

instance (b : BipBufferInner) (request : Nat) : Decidable (ReserveFits b request) :=
  inferInstanceAs (Decidable (_ → _ → _ → _))

/-- The three places `reserve` chooses from: behind B, behind A, or in front of A. -/
theorem reserveInit_cases (b : BipBufferInner) (request : Nat) :
    (0 < b.bLen ∧ b.reserveInit request = (b.bEnd, sub b.aStart b.bEnd, .B)) ∨
    (b.bLen = 0 ∧ (request ≤ sub b.length b.aEnd ∨ b.aStart ≤ sub b.length b.aEnd) ∧
      b.reserveInit request = (b.aEnd, max b.aStart (sub b.length b.aEnd), .A)) ∨
    (b.bLen = 0 ∧ sub b.length b.aEnd < b.aStart ∧
      b.reserveInit request = (0, max b.aStart (sub b.length b.aEnd), .B)) := by
  unfold BipBufferInner.reserveInit
  split
  · next hB => exact .inl ⟨hB, rfl⟩
  · next hB =>
    have hB : b.bLen = 0 := by omega
    simp only
    split
    · next hfit => exact .inr (.inl ⟨hB, .inl hfit, rfl⟩)
    · split
      · next hafter => exact .inr (.inl ⟨hB, .inr hafter, rfl⟩)
      · next hbefore => exact .inr (.inr ⟨hB, by omega, rfl⟩)

/-- What a successful `reserve` returns. -/
theorem reserve_ok {b' : BipBufferInner} {request : Nat} {strict : Bool}
    (h : b.reserve request strict = .ok (b', some r)) :
    b.reserved = false ∧ b' = { b with reserved := true } ∧
    (b.reserveInit request).2.1 ≠ 0 ∧
    r = { start := (b.reserveInit request).1
          stop := add (b.reserveInit request).1 (min (b.reserveInit request).2.1 request)
          region := (b.reserveInit request).2.2 } := by
  unfold BipBufferInner.reserve at h
  split at h
  · cases h
  · next hres =>
    simp only at h
    split at h
    · simp at h
    · next hguard =>
      simp only [Except.ok.injEq, Prod.mk.injEq, Option.some.injEq] at h
      exact ⟨by simpa using hres, h.1.symm, fun h0 => hguard (.inl h0), h.2.symm⟩

theorem Tiled.bLen_eq (h : Tiled b oa ob) : b.bLen = b.bEnd := by
  unfold BipBufferInner.bLen
  rw [h.bStart, sub_eq (Nat.zero_le _), Nat.sub_zero]

theorem Tiled.ob_eq_nil (h : Tiled b oa ob) (hB : b.bEnd = 0) : ob = [] := by
  have htiles := h.tilesB
  rw [hB] at htiles
  exact htiles.eq_nil

theorem Tiled.oa_ne_nil (h : Tiled b oa ob) (hpos : 0 < b.aStart) : oa ≠ [] := by
  intro hnil
  have := h.aStart_eq hnil
  omega

/-- In a tiled buffer every reservation is well placed. -/
theorem Tiled.reserve (h : Tiled b oa ob) {b' : BipBufferInner} {request : Nat} {strict : Bool}
    (hok : b.reserve request strict = .ok (b', some r)) : Placed b oa ob r := by
  obtain ⟨-, -, hpos, rfl⟩ := reserve_ok hok
  obtain ⟨hAle, hAlt, hBlt⟩ := h.bounds
  have hL := h.length_lt
  have hLe := h.aEnd_le
  have hBle := h.bEnd_le
  have hafter := sub_eq hLe
  have hbLen := h.bLen_eq
  rcases reserveInit_cases b request with ⟨hB, heq⟩ | ⟨hB, hchoice, heq⟩ | ⟨hB, hchoice, heq⟩
  · have hgap := sub_eq hBle
    simp only [heq] at hpos ⊢
    rw [add_eq (by omega)]
    exact ⟨by simp, .inl ⟨rfl, h.oa_ne_nil (by omega), by simp only; omega⟩⟩
  · simp only [heq]
    rw [add_eq (by omega)]
    exact ⟨by simp, h.ob_eq_nil (by omega), .inl rfl, le_rfl, by simp only; omega⟩
  · simp only [heq]
    rw [add_eq (by omega)]
    exact ⟨by simp, .inl ⟨by simp only; omega, h.oa_ne_nil (by omega), by simp only; omega⟩⟩

theorem Loose.bLen_eq (h : Loose b res out) : b.bLen = b.bEnd := by
  unfold BipBufferInner.bLen
  rw [h.bStart, sub_eq (Nat.zero_le _), Nat.sub_zero]

theorem Loose.place (h : Loose b none out)
    (habove : b.top ≤ r.start ∧ r.start ≤ r.stop ∧ r.stop ≤ b.length)
    (hregion : 0 < b.bEnd → r.region = .B) : Loose b (some r) out where
  length_lt := h.length_lt
  bStart := h.bStart
  inside := h.inside
  disjoint := h.disjoint
  top_pos := h.top_pos
  top_le := h.top_le
  aStart_le := h.aStart_le
  above := by rintro _ ⟨⟩; exact habove
  mode := h.mode.imp_right fun ⟨hB, hAB, _⟩ => ⟨hB, hAB, by rintro _ ⟨⟩; exact hregion hB⟩

/-- In a loose buffer a reservation goes above everything, if the request fits there. -/
theorem Loose.reserve (h : Loose b none out) {b' : BipBufferInner} {request : Nat} {strict : Bool}
    (hfits : ReserveFits b request) (hok : b.reserve request strict = .ok (b', some r)) :
    Loose b (some r) out := by
  obtain ⟨hres, -, hpos, rfl⟩ := reserve_ok hok
  clear hok
  have hL := h.length_lt
  have htop : b.top = max b.aEnd b.bEnd := rfl
  have htopL := h.top_le
  have hA := h.aStart_le
  have hbLen := h.bLen_eq
  rcases reserveInit_cases b request with ⟨hB, heq⟩ | ⟨hB, hchoice, heq⟩ | ⟨hB, hchoice, heq⟩
  · -- behind B, where the room that is left has underflowed
    obtain ⟨hB0, hAB, -⟩ := h.mode.resolve_left fun hstuck => by
      have := hstuck.1
      omega
    simp only [heq] at hpos ⊢
    have hlt : b.aStart < b.bEnd := by
      rcases Nat.lt_or_ge b.aStart b.bEnd with hlt | hge
      · exact hlt
      · exact absurd ((sub_eq_zero_iff (by omega)).mpr (by omega)) hpos
    have hroom := hfits hres hB hlt
    have hgap := sub_of_lt (by omega) hlt
    have hmin : min (sub b.aStart b.bEnd) request = request := by omega
    rw [hmin, add_eq (by omega)]
    exact h.place (by simp only; omega) fun _ => rfl
  · have hafter := sub_eq (a := b.length) (b := b.aEnd) (by omega)
    simp only [heq]
    rw [add_eq (by omega)]
    refine h.place (by simp only; omega) fun hB0 => ?_
    omega
  · obtain ⟨-, hA0, -⟩ := h.mode.resolve_right fun hover => by
      have := hover.1
      omega
    omega

theorem Orderly.reserve (h : Orderly b none out) {b' : BipBufferInner} {request : Nat}
    {strict : Bool} (hok : b.reserve request strict = .ok (b', some r)) :
    Orderly b (some r) out := by
  obtain ⟨oa, ob, hperm, h, -⟩ := h
  refine ⟨oa, ob, hperm, h, ?_⟩
  rintro _ ⟨⟩
  exact h.reserve hok

theorem Layout.reserve (h : Layout b none out) {b' : BipBufferInner} {request : Nat} {strict : Bool}
    (hfits : ReserveFits b request) (hok : b.reserve request strict = .ok (b', some r)) :
    Layout b' (some r) out := by
  have hb' := (reserve_ok hok).2.1
  have hlayout : Layout b (some r) out := h.imp (·.reserve hok) (·.reserve hfits hok)
  rw [hb']
  exact hlayout.frame true b.decommitTombstones

/-! ## Committing -/

/-- The commit of the first `len` bytes of a reservation. -/
def BipBufferInner.nextCommit (b : BipBufferInner) (r : Reservation) (len : Nat) : Commit :=
  { id := b.commitIdSequence, start := r.start, stop := r.start + len }

/-- The buffer after the first `len` bytes of a reservation have been committed. -/
def BipBufferInner.advance (b : BipBufferInner) (r : Reservation) (len : Nat) : BipBufferInner :=
  match r.region with
  | .A => { b with commitIdSequence := b.commitIdSequence + 1, aEnd := r.start + len }
  | .B => { b with commitIdSequence := b.commitIdSequence + 1, bEnd := r.start + len }

theorem advance_tombstones (b : BipBufferInner) (r : Reservation) (len : Nat) :
    (b.advance r len).decommitTombstones = b.decommitTombstones := by
  unfold BipBufferInner.advance
  cases r.region <;> rfl

/-- What remains of the reservation. -/
def Reservation.advance (r : Reservation) (len : Nat) : Reservation :=
  { r with start := r.start + len }

theorem commit_eq {len : Nat} (hr : r.start ≤ r.stop) (hlt : r.stop < 2 ^ 63)
    (hseq : b.commitIdSequence + 1 < 2 ^ 64) (hlen : r.start + len ≤ r.stop) :
    b.commit r len = some (b.advance r len, b.nextCommit r len) := by
  unfold BipBufferInner.commit Reservation.len
  rw [sub_eq hr, if_neg (by omega)]
  have hmin : min len (r.stop - r.start) = len := by omega
  simp only [hmin, add_eq hseq, add_eq (a := r.start) (b := len) (by omega)]
  unfold BipBufferInner.advance BipBufferInner.nextCommit
  cases r.region <;> rfl

/-- The commit goes to the end of its region, and region B is used only while A is not empty. It is
what a reservation loses when it outlives the draining of region A. -/
def Continues (b : BipBufferInner) (r : Reservation) (len : Nat) : Prop :=
  (r.region = .A → r.start = b.aEnd) ∧
  (r.region = .B → r.start = b.bEnd ∧ (len = 0 ∨ b.aStart < b.aEnd))

instance (b : BipBufferInner) (r : Reservation) (len : Nat) : Decidable (Continues b r len) :=
  inferInstanceAs (Decidable (_ ∧ _))

/-- The ids of a tiled buffer stay in order when the newest one is added at the end. -/
theorem Tiled.sorted_append {xs : List Commit} (h : Tiled b oa ob) (hxs : xs = oa ++ ob)
    (hid : c.id = b.commitIdSequence) : (xs ++ [c]).Pairwise fun c d => c.id < d.id := by
  subst hxs
  refine List.pairwise_append.mpr ⟨h.sorted, List.pairwise_singleton .., ?_⟩
  intro d hd e he
  obtain rfl : e = c := by simpa using he
  have := (h.pending d hd).2
  omega

theorem Tiled.pending_append {xs : List Commit} (h : Tiled b oa ob) (hxs : xs = oa ++ ob)
    (hid : c.id = b.commitIdSequence) (hnext : b.decommitNextId ≤ b.commitIdSequence) :
    ∀ d ∈ xs ++ [c], b.decommitNextId ≤ d.id ∧ d.id < b.commitIdSequence + 1 := by
  subst hxs
  intro d hd
  rcases List.mem_append.mp hd with hd | hd
  · have := h.pending d hd
    omega
  · obtain rfl : d = c := by simpa using hd
    omega

theorem Tiled.bEnd_eq_zero (h : Tiled b oa []) : b.bEnd = 0 := h.tilesB.symm

/-- A zero-length commit at the end of its region only consumes an id. -/
theorem Tiled.commit_zero (h : Tiled b oa ob) (hp : Placed b oa ob r)
    (hseq : b.commitIdSequence + 1 < 2 ^ 64) (hcont : Continues b r 0) :
    Tiled (b.advance r 0) oa ob ∧ Placed (b.advance r 0) oa ob (r.advance 0) := by
  have hpending : ∀ d ∈ oa ++ ob, b.decommitNextId ≤ d.id ∧ d.id < b.commitIdSequence + 1 :=
    fun d hd => ⟨(h.pending d hd).1, Nat.lt_succ_of_lt (h.pending d hd).2⟩
  have hfresh : b.decommitNextId ≤ b.commitIdSequence + 1 := by
    have := h.fresh
    omega
  unfold BipBufferInner.advance Reservation.advance
  cases hr : r.region with
  | A =>
    have hstart : r.start = b.aEnd := hcont.1 hr
    refine ⟨⟨h.length_lt, ?_, h.tilesB, h.bStart, ?_, h.bEnd_le, h.aStart_eq, h.sorted, hpending,
      hseq, .inl hfresh⟩, ?_⟩
    · simpa [hstart] using h.tilesA
    · simpa [hstart] using h.aEnd_le
    · simpa [Placed, hr, hstart] using hp
  | B =>
    have hstart : r.start = b.bEnd := (hcont.2 hr).1
    refine ⟨⟨h.length_lt, h.tilesA, ?_, h.bStart, h.aEnd_le, ?_, h.aStart_eq, h.sorted, hpending,
      hseq, .inl hfresh⟩, ?_⟩
    · simpa [hstart] using h.tilesB
    · simpa [hstart] using h.bEnd_le
    · simpa [Placed, hr, hstart] using hp

/-- A non-empty commit at the end of its region becomes the last tile. -/
theorem Tiled.commit_pos (h : Tiled b oa ob) (hp : Placed b oa ob r)
    (hseq : b.commitIdSequence + 1 < 2 ^ 64) {len : Nat} (hlen : r.start + len ≤ r.stop)
    (hpos : 0 < len) (hcont : Continues b r len)
    (hnext : b.decommitNextId ≤ b.commitIdSequence) :
    ∃ oa' ob', (oa' ++ ob') = (oa ++ ob) ++ [b.nextCommit r len] ∧
      Tiled (b.advance r len) oa' ob' ∧ Placed (b.advance r len) oa' ob' (r.advance len) := by
  have hL := h.length_lt
  obtain ⟨hrle, hp⟩ := hp
  unfold BipBufferInner.advance Reservation.advance
  cases hr : r.region with
  | A =>
    have hstart : r.start = b.aEnd := hcont.1 hr
    obtain ⟨rfl, -, -, hstop⟩ : ob = [] ∧ _ := by simpa only [hr] using hp
    refine ⟨oa ++ [b.nextCommit r len], [], by simp, ⟨h.length_lt, ?_, h.tilesB, h.bStart, ?_,
      h.bEnd_le, by simp, ?_, ?_, hseq, .inl (by simp only; omega)⟩, by simpa using hlen, ?_⟩
    · refine Tiles.append (x := b.nextCommit r len) ?_ ?_
      · simpa only [BipBufferInner.nextCommit, hstart] using h.tilesA
      · simpa only [BipBufferInner.nextCommit] using Nat.lt_add_of_pos_right hpos
    · simp only
      omega
    · simpa using h.sorted_append (List.append_nil oa).symm rfl
    · simpa using h.pending_append (List.append_nil oa).symm rfl hnext
    · simp only [true_and, true_or]
      omega
  | B =>
    obtain ⟨hstart, hA⟩ := hcont.2 hr
    have hoa : oa ≠ [] := by
      rintro rfl
      have : b.aStart = b.aEnd := h.tilesA
      omega
    have hstop : r.stop ≤ b.aStart := by
      rcases (by simpa only [hr] using hp : _ ∨ _) with ⟨-, -, hstop⟩ | ⟨rfl, haEnd, -⟩
      · exact hstop
      · have := h.bEnd_eq_zero
        omega
    refine ⟨oa, ob ++ [b.nextCommit r len], by simp, ⟨h.length_lt, h.tilesA, ?_, h.bStart,
      h.aEnd_le, ?_, h.aStart_eq, ?_, ?_, hseq, .inl (by simp only; omega)⟩, by simpa using hlen, ?_⟩
    · refine Tiles.append (x := b.nextCommit r len) ?_ ?_
      · simpa only [BipBufferInner.nextCommit, hstart] using h.tilesB
      · simpa only [BipBufferInner.nextCommit] using Nat.lt_add_of_pos_right hpos
    · simp only
      omega
    · simpa using h.sorted_append rfl rfl
    · simpa using h.pending_append rfl rfl hnext
    · exact .inl ⟨rfl, hoa, hstop⟩

/-- The piece of memory a commit of `len` bytes occupies. -/
def BipBufferInner.occupied (b : BipBufferInner) (r : Reservation) (len : Nat) : List Commit :=
  if len = 0 then [] else [b.nextCommit r len]

theorem mem_occupied {len : Nat} (hc : c ∈ b.occupied r len) :
    0 < len ∧ c = b.nextCommit r len := by
  unfold BipBufferInner.occupied at hc
  split at hc
  · simp at hc
  · exact ⟨by omega, by simpa using hc⟩

theorem pairwise_occupied {R : Commit → Commit → Prop} (b : BipBufferInner) (r : Reservation)
    (len : Nat) : (b.occupied r len).Pairwise R := by
  unfold BipBufferInner.occupied
  split
  · exact .nil
  · exact List.pairwise_singleton ..

/-- A commit of a reservation above everything that is occupied leads to a loose buffer, when the
region it goes to then starts below everything and reaches up to the commit. -/
theorem Loose.of_commit {len : Nat} (hL : b.length < 2 ^ 63) (hb : b.bStart = 0)
    (hlen : r.start + len ≤ r.stop) (hstop : r.stop ≤ b.length) (hpos : 0 < r.start + len)
    (htop : b.top ≤ r.start) (hA : b.aStart ≤ b.top)
    (hinside : ∀ c ∈ out, b.aStart ≤ c.start ∧ c.start < c.stop ∧ c.stop ≤ b.top)
    (hdisjoint : out.Pairwise fun c d => c.stop ≤ d.start ∨ d.stop ≤ c.start)
    (hmode : r.region = .A → Stuck (b.advance r len) (out ++ b.occupied r len)) :
    Loose (b.advance r len) (some (r.advance len)) (out ++ b.occupied r len) := by
  have hAend : b.aEnd ≤ b.top := Nat.le_max_left ..
  have hBend : b.bEnd ≤ b.top := Nat.le_max_right ..
  have hadvance : (b.advance r len).length = b.length ∧ (b.advance r len).aStart = b.aStart ∧
      (b.advance r len).bStart = b.bStart ∧ (b.advance r len).top = r.start + len := by
    unfold BipBufferInner.top BipBufferInner.advance
    cases r.region <;> simp only [true_and] <;> omega
  obtain ⟨hlength, haStart, hbStart, htop'⟩ := hadvance
  refine ⟨by omega, by omega, ?_, ?_, by omega, by omega, by omega, ?_, ?_⟩
  · intro c hc
    rcases List.mem_append.mp hc with hc | hc
    · have := hinside c hc
      omega
    · obtain ⟨hpos, rfl⟩ := mem_occupied hc
      simp only [BipBufferInner.nextCommit]
      omega
  · refine List.pairwise_append.mpr ⟨hdisjoint, pairwise_occupied .., ?_⟩
    intro c hc d hd
    obtain ⟨-, rfl⟩ := mem_occupied hd
    have := hinside c hc
    exact .inl (by simp only [BipBufferInner.nextCommit]; omega)
  · rintro _ ⟨⟩
    simp only [Reservation.advance]
    omega
  · cases hr : r.region with
    | A => exact .inl (hmode hr)
    | B =>
      refine .inr ⟨?_, ?_, ?_⟩
      · simpa [BipBufferInner.advance, hr] using hpos
      · simp only [BipBufferInner.advance, hr]
        omega
      · rintro _ ⟨⟩
        exact hr

theorem Loose.commit {len : Nat} (h : Loose b (some r) out) (hlen : r.start + len ≤ r.stop) :
    Loose (b.advance r len) (some (r.advance len)) (out ++ b.occupied r len) := by
  obtain ⟨habove, hrle, hstop⟩ := h.above r rfl
  have htop := h.top_pos
  refine .of_commit h.length_lt h.bStart hlen hstop (by omega) habove h.aStart_le h.inside
    h.disjoint fun hr => ?_
  rcases h.mode with ⟨hB, hA, hstuck⟩ | ⟨-, -, hregion⟩
  · refine ⟨by simpa [BipBufferInner.advance, hr] using hB,
      by simpa [BipBufferInner.advance, hr] using hA, ?_⟩
    intro c hc hc0
    rcases List.mem_append.mp hc with hc | hc
    · simpa [BipBufferInner.advance, hr] using hstuck c hc hc0
    · obtain ⟨-, rfl⟩ := mem_occupied hc
      simp only [BipBufferInner.nextCommit] at hc0
      omega
  · exact absurd (hregion r rfl) (by simp [hr])

theorem Tiled.eq_nil_of_fresh (h : Tiled b oa ob) (hseq : b.commitIdSequence = 0) :
    oa = [] ∧ ob = [] := by
  rw [← List.append_eq_nil_iff, List.eq_nil_iff_forall_not_mem]
  intro c hc
  have := (h.pending c hc).2
  omega

/-- A reservation that has outlived the draining of region A, or the very first commit. -/
theorem Tiled.commit_loose {len : Nat} (h : Tiled b oa ob) (hp : Placed b oa ob r)
    (hlen : r.start + len ≤ r.stop)
    (hloose : ¬ Continues b r len ∨
      0 < len ∧ b.commitIdSequence = 0 ∧ b.decommitNextId = 1) :
    Loose (b.advance r len) (some (r.advance len)) ((oa ++ ob) ++ b.occupied r len) := by
  obtain ⟨hrle, hp⟩ := hp
  have htop : b.top = max b.aEnd b.bEnd := rfl
  have hbounds := h.bounds
  have hBle := h.bEnd_le
  have hinside : ∀ c ∈ oa ++ ob, b.bEnd = 0 → b.aStart ≤ c.start ∧ c.start < c.stop ∧
      c.stop ≤ b.top := by
    intro c hc hB
    rw [h.ob_eq_nil hB, List.append_nil] at hc
    have := h.tilesA.mem hc
    omega
  cases hr : r.region with
  | A =>
    simp only [hr] at hp
    obtain ⟨rfl, hend, habove, hstop⟩ := hp
    have hB := h.bEnd_eq_zero
    have hoa : oa = [] := by
      rcases hloose with hcont | ⟨-, hseq, -⟩
      · exact hend.resolve_left fun heq => hcont ⟨fun _ => heq, by simp [hr]⟩
      · exact (h.eq_nil_of_fresh hseq).1
    have hA := h.aStart_eq hoa
    have hAend : b.aStart = b.aEnd := by
      have := h.tilesA
      rwa [hoa] at this
    have hfirst : 0 < r.start ∨ 0 < len ∧ b.commitIdSequence = 0 ∧ b.decommitNextId = 1 := by
      rcases hloose with hcont | hfirst
      · refine .inl (Nat.pos_of_ne_zero fun h0 => hcont ⟨fun _ => by omega, by simp [hr]⟩)
      · exact .inr hfirst
    refine .of_commit h.length_lt h.bStart hlen hstop (by omega) (by omega) (by omega)
      (fun c hc => hinside c hc hB) h.disjoint fun _ => ⟨?_, ?_, ?_⟩
    · simpa [BipBufferInner.advance, hr] using hB
    · simpa [BipBufferInner.advance, hr] using hA
    · intro c hc hc0
      simp only [hoa, List.nil_append] at hc
      obtain ⟨-, rfl⟩ := mem_occupied hc
      simp only [BipBufferInner.nextCommit, BipBufferInner.advance, hr] at hc0 ⊢
      omega
  | B =>
    simp only [hr] at hp
    -- a reservation right behind B continues it, so this one has been overtaken
    have hstale : ob = [] ∧ b.aEnd ≤ r.start ∧ r.stop ≤ b.length := by
      refine hp.resolve_left fun ⟨hstart, hoa, _⟩ => ?_
      rcases hloose with hcont | ⟨-, hseq, -⟩
      · exact hcont ⟨by simp [hr], fun _ => ⟨hstart, .inr (h.tilesA.lt hoa)⟩⟩
      · exact hoa (h.eq_nil_of_fresh hseq).1
    obtain ⟨rfl, habove, hstop⟩ := hstale
    have hB := h.bEnd_eq_zero
    have hpos : 0 < r.start + len := by
      refine Nat.pos_of_ne_zero fun h0 => ?_
      rcases hloose with hcont | hfirst
      · exact hcont ⟨by simp [hr], fun _ => ⟨by omega, .inl (by omega)⟩⟩
      · omega
    exact .of_commit h.length_lt h.bStart hlen hstop hpos (by omega) (by omega)
      (fun c hc => hinside c hc hB) h.disjoint (by simp [hr])

/-- A commit that continues its region keeps the tiling, unless it is the very first one. -/
theorem Tiled.commit {len : Nat} (h : Tiled b oa ob) (hp : Placed b oa ob r)
    (hseq : b.commitIdSequence + 1 < 2 ^ 64) (hlen : r.start + len ≤ r.stop)
    (hcont : Continues b r len) (hnext : len = 0 ∨ b.decommitNextId ≤ b.commitIdSequence) :
    ∃ oa' ob', oa' ++ ob' = (oa ++ ob) ++ b.occupied r len ∧
      Tiled (b.advance r len) oa' ob' ∧ Placed (b.advance r len) oa' ob' (r.advance len) := by
  rcases Nat.eq_zero_or_pos len with rfl | hpos
  · exact ⟨oa, ob, by simp [BipBufferInner.occupied], h.commit_zero hp hseq hcont⟩
  · obtain ⟨oa', ob', happ, h'⟩ := h.commit_pos hp hseq hlen hpos hcont (by omega)
    exact ⟨oa', ob', by rw [happ, BipBufferInner.occupied, if_neg (by omega)], h'⟩

theorem Orderly.commit {len : Nat} (h : Orderly b (some r) out)
    (hseq : b.commitIdSequence + 1 < 2 ^ 64) (hlen : r.start + len ≤ r.stop)
    (hcont : Continues b r len) (hnext : len = 0 ∨ b.decommitNextId ≤ b.commitIdSequence) :
    Orderly (b.advance r len) (some (r.advance len)) (out ++ b.occupied r len) := by
  obtain ⟨oa, ob, hperm, h, hplaced⟩ := h
  obtain ⟨oa', ob', happ, h', hp'⟩ := h.commit (hplaced r rfl) hseq hlen hcont hnext
  refine ⟨oa', ob', happ ▸ hperm.append_right _, h', ?_⟩
  rintro _ ⟨⟩
  exact hp'

/-- The sequence is behind the expected id only before the first commit. -/
theorem Orderly.fresh (h : Orderly b res out) :
    b.decommitNextId ≤ b.commitIdSequence ∨ b.commitIdSequence = 0 ∧ b.decommitNextId = 1 := by
  obtain ⟨oa, ob, -, h, -⟩ := h
  exact h.fresh

theorem Orderly.commit_loose {len : Nat} (h : Orderly b (some r) out)
    (hlen : r.start + len ≤ r.stop)
    (hloose : ¬ Continues b r len ∨ 0 < len ∧ b.commitIdSequence = 0 ∧ b.decommitNextId = 1) :
    Loose (b.advance r len) (some (r.advance len)) (out ++ b.occupied r len) := by
  obtain ⟨oa, ob, hperm, h, hplaced⟩ := h
  exact (h.commit_loose (hplaced r rfl) hlen hloose).perm (hperm.append_right _)

theorem Layout.commit {len : Nat} (h : Layout b (some r) out)
    (hseq : b.commitIdSequence + 1 < 2 ^ 64) (hlen : r.start + len ≤ r.stop) :
    Layout (b.advance r len) (some (r.advance len)) (out ++ b.occupied r len) := by
  rcases h with h | h
  · by_cases hcont : Continues b r len
    · have hfresh := h.fresh
      by_cases hnext : len = 0 ∨ b.decommitNextId ≤ b.commitIdSequence
      · exact .inl (h.commit hseq hlen hcont hnext)
      · exact .inr (h.commit_loose hlen (.inr (by omega)))
    · exact .inr (h.commit_loose hlen (.inl hcont))
  · exact .inr (h.commit hlen)

/-! ## Releasing -/

/-- **The commit whose turn it is sits at the front of region A.** -/
theorem Tiled.head_eq (h : Tiled b oa ob) (hc : c ∈ oa ++ ob) (hid : c.id = b.decommitNextId) :
    ∃ oa', oa = c :: oa' := by
  cases oa with
  | nil =>
    have hA := h.aStart_eq rfl
    have hB := h.bEnd_le
    rw [h.ob_eq_nil (by omega)] at hc
    simp at hc
  | cons d oa' =>
    rcases List.mem_cons.mp hc with rfl | hc
    · exact ⟨oa', rfl⟩
    · have := (List.pairwise_cons.mp h.sorted).1 c hc
      have := (h.pending d (by simp)).1
      omega

theorem swapIfEmpty_frame (b : BipBufferInner) :
    b.swapIfEmpty.length = b.length ∧ b.swapIfEmpty.reserved = b.reserved ∧
    b.swapIfEmpty.decommitNextId = b.decommitNextId ∧
    b.swapIfEmpty.decommitTombstones = b.decommitTombstones := by
  unfold BipBufferInner.swapIfEmpty
  split <;> exact ⟨rfl, rfl, rfl, rfl⟩

/-- A release changes the four indices only. -/
theorem decommitSingle_frame {b' : BipBufferInner} (h : b.decommitSingle c = .ok b') :
    b'.length = b.length ∧ b'.reserved = b.reserved ∧ b'.decommitNextId = b.decommitNextId ∧
    b'.decommitTombstones = b.decommitTombstones := by
  unfold BipBufferInner.decommitSingle at h
  split at h
  · cases h
    exact swapIfEmpty_frame _
  · split at h
    · cases h
      exact swapIfEmpty_frame _
    · cases h

theorem drainTombstones_frame (ts : List Commit) (b : BipBufferInner) :
    (BipBufferInner.drainTombstones ts b).1.length = b.length ∧
    (BipBufferInner.drainTombstones ts b).1.reserved = b.reserved := by
  induction ts generalizing b with
  | nil => exact ⟨rfl, rfl⟩
  | cons c ts ih =>
    unfold BipBufferInner.drainTombstones
    split
    · exact ⟨rfl, rfl⟩
    · split
      · exact ⟨rfl, rfl⟩
      · next b' hok =>
        obtain ⟨hlength, hreserved, -, -⟩ := decommitSingle_frame hok
        obtain ⟨hlength', hreserved'⟩ := ih { b' with decommitNextId := add b'.decommitNextId 1 }
        exact ⟨hlength'.trans hlength, hreserved'.trans hreserved⟩

theorem decommit_frame (b : BipBufferInner) (c : Commit) :
    (b.decommit c).1.length = b.length ∧ (b.decommit c).1.reserved = b.reserved := by
  unfold BipBufferInner.decommit
  split
  · exact ⟨rfl, rfl⟩
  · split
    · exact ⟨rfl, rfl⟩
    · split
      · exact ⟨rfl, rfl⟩
      · next b' hok =>
        obtain ⟨hlength, hreserved, -, -⟩ := decommitSingle_frame hok
        obtain ⟨hlength', hreserved'⟩ := drainTombstones_frame b'.decommitTombstones
          { b' with decommitNextId := add b'.decommitNextId 1 }
        exact ⟨hlength'.trans hlength, hreserved'.trans hreserved⟩

/-- Releasing at the start of region A. -/
theorem decommitSingle_front (hstart : c.start = b.aStart) (hlt : c.start < c.stop)
    (hstop : c.stop < 2 ^ 63) :
    b.decommitSingle c = .ok { b with aStart := c.stop }.swapIfEmpty := by
  unfold BipBufferInner.decommitSingle Commit.len
  rw [if_pos hstart, sub_eq hlt.le, add_eq (by omega)]
  have hsum : b.aStart + (c.stop - c.start) = c.stop := by omega
  rw [hsum]

/-- Only the front of a region can be released. -/
theorem decommitSingle_error (hA : c.start ≠ b.aStart) (hB : c.start ≠ b.bStart) :
    b.decommitSingle c = .error .outOfOrder := by
  unfold BipBufferInner.decommitSingle
  rw [if_neg hA, if_neg hB]

theorem swapIfEmpty_of_lt (hlt : b.aStart < b.aEnd) : b.swapIfEmpty = b := by
  unfold BipBufferInner.swapIfEmpty BipBufferInner.aLen
  rw [sub_eq hlt.le, if_neg (by omega)]

theorem swapIfEmpty_of_eq (heq : b.aStart = b.aEnd) :
    b.swapIfEmpty =
      { b with aStart := b.bStart, aEnd := b.bEnd, bStart := 0, bEnd := 0 } := by
  unfold BipBufferInner.swapIfEmpty BipBufferInner.aLen
  rw [sub_eq heq.le, if_pos (by omega)]

/-- The release of the front of region A, which keeps the rest in place. -/
def BipBufferInner.pop (b : BipBufferInner) (c : Commit) : BipBufferInner :=
  { { b with aStart := c.stop }.swapIfEmpty with decommitNextId := b.decommitNextId + 1 }

theorem Tiled.pop (h : Tiled b (c :: oa) ob) (hid : c.id = b.decommitNextId) :
    ∃ oa' ob', oa' ++ ob' = oa ++ ob ∧ Tiled (b.pop c) oa' ob' ∧
      ∀ r, Placed b (c :: oa) ob r → Placed (b.pop c) oa' ob' r := by
  have hbounds := h.bounds
  have hL := h.aEnd_le
  have hB := h.bEnd_le
  obtain ⟨hstart, hlt, hrest⟩ := h.tilesA
  have hle := hrest.le
  have hsorted := (List.pairwise_cons.mp h.sorted).2
  have hpending : ∀ d ∈ oa ++ ob, b.decommitNextId + 1 ≤ d.id ∧ d.id < b.commitIdSequence := by
    intro d hd
    have := (List.pairwise_cons.mp h.sorted).1 d hd
    have := h.pending d (List.mem_cons_of_mem _ hd)
    omega
  have hfresh : b.decommitNextId + 1 ≤ b.commitIdSequence := by
    have := (h.pending c (by simp)).2
    omega
  unfold BipBufferInner.pop
  cases oa with
  | nil =>
    -- region A is drained, B takes its place
    have hend : c.stop = b.aEnd := hrest
    rw [swapIfEmpty_of_eq hend]
    refine ⟨ob, [], by simp, ⟨h.length_lt, ?_, rfl, rfl, ?_, Nat.zero_le _, fun _ => h.bStart,
      ?_, ?_, h.seq_lt, .inl hfresh⟩, ?_⟩
    · simpa only [h.bStart] using h.tilesB
    · simp only
      omega
    · simpa using hsorted
    · simpa using hpending
    · rintro r ⟨hrle, hp⟩
      refine ⟨hrle, ?_⟩
      cases hr : r.region with
      | A =>
        simp only [hr] at hp ⊢
        obtain ⟨rfl, -, -, hstop⟩ := hp
        have := h.bEnd_eq_zero
        exact ⟨trivial, .inr rfl, by omega, hstop⟩
      | B =>
        simp only [hr] at hp ⊢
        rcases hp with ⟨hr, -, hstop⟩ | ⟨rfl, -, hstop⟩
        · exact .inr ⟨trivial, hr.ge, by omega⟩
        · have := h.bEnd_eq_zero
          exact .inr ⟨trivial, by omega, hstop⟩
  | cons d oa =>
    have hlt' : c.stop < b.aEnd := hrest.lt (by simp)
    rw [swapIfEmpty_of_lt hlt']
    refine ⟨d :: oa, ob, rfl, ⟨h.length_lt, hrest, h.tilesB, h.bStart, h.aEnd_le, ?_, by simp,
      hsorted, hpending, h.seq_lt, .inl hfresh⟩, ?_⟩
    · simp only
      omega
    · rintro r ⟨hrle, hp⟩
      refine ⟨hrle, ?_⟩
      cases hr : r.region with
      | A =>
        simp only [hr] at hp ⊢
        simpa using hp
      | B =>
        simp only [hr] at hp ⊢
        refine hp.imp_left fun ⟨hr, _, hstop⟩ => ⟨hr, by simp, by omega⟩

theorem pop_next (b : BipBufferInner) (c : Commit) :
    (b.pop c).decommitNextId = b.decommitNextId + 1 := rfl

theorem pop_seq (b : BipBufferInner) (c : Commit) :
    (b.pop c).commitIdSequence = b.commitIdSequence := by
  unfold BipBufferInner.pop BipBufferInner.swapIfEmpty
  split <;> rfl

/-- **The commit whose turn it is can be released**, and the rest stays in order. -/
theorem Orderly.release (h : Orderly b res (c :: out)) (hid : c.id = b.decommitNextId) :
    ∃ b', b.decommitSingle c = .ok b' ∧
      { b' with decommitNextId := add b'.decommitNextId 1 } = b.pop c ∧
      Orderly (b.pop c) res out := by
  obtain ⟨oa, ob, hperm, h, hplaced⟩ := h
  obtain ⟨oa, rfl⟩ := h.head_eq (hperm.mem_iff.mpr (by simp)) hid
  obtain ⟨oa', ob', happ, h', hp'⟩ := h.pop hid
  have hinside := h.inside (c := c) (by simp)
  have hbounds := h.bounds
  have hseq := h.seq_lt
  have hlt := (h.pending c (by simp)).2
  refine ⟨_, decommitSingle_front h.tilesA.1 hinside.1 (by omega), ?_, oa', ob', ?_, h',
    fun r hr => hp' r (hplaced r hr)⟩
  · rw [(swapIfEmpty_frame _).2.2.1, add_eq (by simp only; omega)]
    rfl
  · rw [happ]
    exact hperm.cons_inv

/-- Nothing that is still occupied has had its turn. -/
theorem Orderly.pending (h : Orderly b res out) (hc : c ∈ out) :
    b.decommitNextId ≤ c.id ∧ c.id < b.commitIdSequence := by
  obtain ⟨oa, ob, hperm, h, -⟩ := h
  exact h.pending c (hperm.mem_iff.mpr hc)

/-- In a loose buffer a release fails, or moves the start of region A over the commit. -/
theorem Loose.release (h : Loose b res (c :: out)) (hid : c.id = b.decommitNextId) :
    b.decommitSingle c = .error .outOfOrder ∨
    ∃ b', b.decommitSingle c = .ok b' ∧ ∀ next, Loose { b' with decommitNextId := next } res out := by
  have hL := h.length_lt
  have htop : b.top = max b.aEnd b.bEnd := rfl
  have htopL := h.top_le
  obtain ⟨hc, hlt, hstop⟩ := h.inside c (by simp)
  rcases h.mode with ⟨hB, hA, hstuck⟩ | ⟨hB, hAB, hregion⟩
  · have hc0 : c.start ≠ 0 := fun h0 => hstuck c (by simp) h0 hid
    exact .inl (decommitSingle_error (by omega) (by rw [h.bStart]; exact hc0))
  · by_cases hfront : c.start = b.aStart
    · refine .inr ⟨_, decommitSingle_front hfront hlt (by omega), fun next => ?_⟩
      obtain ⟨hdisj, hdisjoint⟩ := List.pairwise_cons.mp h.disjoint
      -- what is disjoint from the front and not before it is behind it
      have hbehind : ∀ d ∈ out, c.stop ≤ d.start ∧ d.start < d.stop ∧ d.stop ≤ b.top := by
        intro d hd
        have := h.inside d (List.mem_cons_of_mem _ hd)
        have := hdisj d hd
        omega
      unfold BipBufferInner.swapIfEmpty
      split
      · have hbStart := h.bStart
        refine ⟨hL, rfl, ?_, hdisjoint, ?_, ?_, ?_, ?_, .inl ⟨rfl, h.bStart, ?_⟩⟩
        all_goals simp only [BipBufferInner.top, Nat.max_zero]
        · intro d hd
          have := hbehind d hd
          omega
        · omega
        · omega
        · omega
        · intro r hr
          have := h.above r hr
          omega
        · intro d hd hd0
          have := hbehind d hd
          omega
      · refine ⟨hL, h.bStart, ?_, hdisjoint, h.top_pos, h.top_le, ?_, h.above,
          .inr ⟨hB, hAB, hregion⟩⟩
        · exact hbehind
        · exact hstop
    · refine .inl (decommitSingle_error hfront ?_)
      have hbStart := h.bStart
      omega

theorem Loose.tail (h : Loose b res (c :: out)) : Loose b res out where
  length_lt := h.length_lt
  bStart := h.bStart
  inside d hd := h.inside d (List.mem_cons_of_mem _ hd)
  disjoint := (List.pairwise_cons.mp h.disjoint).2
  top_pos := h.top_pos
  top_le := h.top_le
  aStart_le := h.aStart_le
  above := h.above
  mode := h.mode.imp_left fun ⟨h₁, h₂, h₃⟩ =>
    ⟨h₁, h₂, fun d hd => h₃ d (List.mem_cons_of_mem _ hd)⟩

/-- A release of the commit whose turn it is either fails and changes nothing, or removes it. -/
theorem Layout.release (h : Layout b res (c :: out)) (hid : c.id = b.decommitNextId) :
    (b.decommitSingle c = .error .outOfOrder ∧ Layout b res out) ∨
    ∃ b', b.decommitSingle c = .ok b' ∧
      Layout { b' with decommitNextId := add b'.decommitNextId 1 } res out := by
  rcases h with h | h
  · obtain ⟨b', hok, hpop, h'⟩ := h.release hid
    exact .inr ⟨b', hok, hpop ▸ .inl h'⟩
  · rcases h.release hid with herr | ⟨b', hok, h'⟩
    · exact .inl ⟨herr, .inr h.tail⟩
    · exact .inr ⟨b', hok, .inr (h' _)⟩

/-- The loop over the tombstones: each round releases one or ends the loop. -/
theorem Layout.drain {live ts : List Commit} (h : Layout b res (live ++ ts)) :
    Layout (BipBufferInner.drainTombstones ts b).1 res
      (live ++ (BipBufferInner.drainTombstones ts b).1.decommitTombstones) := by
  induction ts generalizing b with
  | nil => exact h.frame b.reserved []
  | cons c ts ih =>
    unfold BipBufferInner.drainTombstones
    split
    · exact h.frame b.reserved (c :: ts)
    · next hid =>
      have hfront := h.perm List.perm_middle
      rcases hfront.release (by simpa using hid) with ⟨herr, h'⟩ | ⟨b', hok, h'⟩
      · rw [herr]
        exact h'.frame b.reserved ts
      · rw [hok]
        exact ih h'

/-- A tombstone goes to its place by id. -/
theorem perm_insert (live ts : List Commit) (c : Commit) :
    (c :: (live ++ ts)).Perm (live ++ ts.orderedInsert (fun c d => c.id ≤ d.id) c) :=
  List.perm_middle.symm.trans ((List.perm_orderedInsert _ c ts).symm.append_left live)

theorem Layout.decommit {live : List Commit} (hlen : c.len ≠ 0)
    (h : Layout b res (c :: (live ++ b.decommitTombstones))) :
    Layout (b.decommit c).1 res (live ++ (b.decommit c).1.decommitTombstones) := by
  unfold BipBufferInner.decommit
  rw [if_neg hlen]
  split
  · exact (h.frame b.reserved _).perm (perm_insert ..)
  · next hid =>
    rcases h.release (by simpa using hid) with ⟨herr, h'⟩ | ⟨b', hok, h'⟩
    · rw [herr]
      exact h'
    · rw [hok]
      rw [← (decommitSingle_frame hok).2.2.2] at h'
      exact h'.drain

end

end Aquic.BipBuf

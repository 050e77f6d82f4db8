import Aquic.Util.BipBuffer.Disjoint

/-!
# Reservations in a debug build

In a debug build index arithmetic that overflows is a panic, and `reserve` asserts, for a strict request
that does not fit behind region A, that there is at most as much space behind A as in front of it:

    if cfg!(debug_assertions) {
        if strict {
            debug_assert!(space_after_a <= space_before_a);
        }
    }

The assertion is wrong if the request fits nowhere, and the larger gap is the one behind A: then `reserve`
panics where it should return `None`. Everywhere else `reserve` agrees with `available`, unless region B
reaches beyond the start of region A; then both of them underflow.

The remaining operations are those of `Bip`, as in a release build. In a debug build a drop may panic as
well: when region A is drained while there is a reservation in region B, both regions are empty, and what is
then committed at the beginning of B is taken for the beginning of A, so that `a_len` underflows when it is
dropped. This panic is left out. The runs looked at here are those of a debug build up to its first panic,
and some more.
-/

namespace Aquic.BipBuf

open Aquic.Word Aquic.Run

/-! ## The source

The functions of a debug build are those of `Bip`, where index arithmetic is checked: a result that does not
fit is a panic. -/

/-- The panics of `available` and `reserve` in a debug build. -/
inductive DebugPanic where
  /-- A panic of the source. -/
  | explicit (panic : Panic)
  /-- A failed `debug_assert!`. -/
  | assertion
  | overflow
  deriving DecidableEq, Repr

def checkedSub (a b : Nat) : Except DebugPanic Nat :=
  if b ≤ a then .ok (a - b) else .error .overflow

def checkedAdd (a b : Nat) : Except DebugPanic Nat :=
  if a + b < 2 ^ usizeBits then .ok (a + b) else .error .overflow

namespace BipBufferInner

/-- `available`. -/
def availableChecked (b : BipBufferInner) : Except DebugPanic Nat := do
  let bLen ← checkedSub b.bEnd b.bStart
  if 0 < bLen then
    checkedSub b.aStart b.bEnd
  else
    let spaceAfterA ← checkedSub b.length b.aEnd
    return max b.aStart spaceAfterA

/-- The `'init` block of `reserve`. -/
def reserveInitChecked (b : BipBufferInner) (request : Nat) (strict : Bool) :
    Except DebugPanic (Nat × Nat × Region) := do
  let bLen ← checkedSub b.bEnd b.bStart
  if 0 < bLen then
    let available ← checkedSub b.aStart b.bEnd
    return (b.bEnd, available, .B)
  else
    let spaceBeforeA := b.aStart
    let spaceAfterA ← checkedSub b.length b.aEnd
    let available := max spaceBeforeA spaceAfterA
    if request ≤ spaceAfterA then
      return (b.aEnd, available, .A)
    else if strict = true ∧ ¬spaceAfterA ≤ spaceBeforeA then
      throw .assertion
    else if spaceBeforeA ≤ spaceAfterA then
      return (b.aEnd, available, .A)
    else
      return (0, available, .B)

/-- `reserve`. -/
def reserveChecked (b : BipBufferInner) (request : Nat) (strict : Bool) :
    Except DebugPanic (BipBufferInner × Option Reservation) :=
  if b.reserved then
    .error (.explicit .reserved)
  else do
    let init ← b.reserveInitChecked request strict
    if init.2.1 = 0 ∨ (strict = true ∧ init.2.1 < request) then
      return (b, none)
    else
      let stop ← checkedAdd init.1 (min init.2.1 request)
      return ({ b with reserved := true }, some { start := init.1, stop, region := init.2.2 })

end BipBufferInner

namespace Bip

/-- One operation of a debug build; a panic of `reserve` leaves everything as it is. A drop is that of a
release build: where `a_len` underflows it goes on. -/
def execChecked (s : Bip) : Op → Option Bip
  | .reserve request strict =>
    match s.inner.reserveChecked request strict with
    | .ok (inner, some r) => some { s with inner, reservation := some r }
    | _ => some s
  | op => s.exec op

end Bip

/-! ## Runs of a debug build

They start with a new buffer, and every operation may come at any time. -/

/-- **The condition on a run**: no commit id is used twice. -/
def IdsFit : Conditions where
  reserve _ _ := True
  commit b _ _ := b.commitIdSequence + 1 < 2 ^ 64
  drop _ := True

/-! ## The two builds

A checked subtraction or addition that returns has returned the wrapped one. -/

theorem bind_eq_ok {ε α β : Type} {x : Except ε α} {f : α → Except ε β} {b : β} :
    (x >>= f) = .ok b ↔ ∃ a, x = .ok a ∧ f a = .ok b := by
  cases x with
  | error e =>
    constructor
    · intro h
      cases h
    · rintro ⟨a, h, -⟩
      cases h
  | ok a =>
    constructor
    · intro h
      exact ⟨a, rfl, h⟩
    · rintro ⟨a', h, hf⟩
      cases h
      exact hf

theorem checkedSub_eq_ok {a b n : Nat} : checkedSub a b = .ok n ↔ b ≤ a ∧ sub a b = n := by
  unfold checkedSub
  split
  · next hle => simp [hle, sub_eq hle]
  · next hlt => simp [hlt]

theorem checkedSub_of_le {a b : Nat} (h : b ≤ a) : checkedSub a b = .ok (sub a b) :=
  checkedSub_eq_ok.mpr ⟨h, rfl⟩

theorem checkedAdd_eq_ok {a b n : Nat} :
    checkedAdd a b = .ok n ↔ a + b < 2 ^ usizeBits ∧ add a b = n := by
  unfold checkedAdd
  split
  · next hlt => simp [hlt, add_eq hlt]
  · next hge => simp [hge]

namespace BipBufferInner

variable {b b' : BipBufferInner} {request : Nat} {strict : Bool}

/-! ### When a debug build panics

There are two ways: the assertion, and the subtraction that underflows when B has grown into A. -/

/-- The indices of a buffer are in order, as far as `reserve` looks at them. -/
structure InOrder (b : BipBufferInner) : Prop where
  length_lt : b.length < 2 ^ 63
  bStart : b.bStart ≤ b.bEnd
  aEnd_le : b.aEnd ≤ b.length
  aStart_le : b.aStart ≤ b.length

/-- The assertion of `reserve` fails: the request fits nowhere, and the larger gap is behind A. -/
def AssertionFails (b : BipBufferInner) (request : Nat) (strict : Bool) : Prop :=
  strict = true ∧ b.bLen = 0 ∧ b.length - b.aEnd < request ∧ b.aStart < b.length - b.aEnd

/-- Region B reaches beyond the start of region A. -/
def Underflows (b : BipBufferInner) : Prop := 0 < b.bLen ∧ b.aStart < b.bEnd

theorem available_eq (request : Nat) : (b.reserveInit request).2.1 = b.available := by
  unfold available
  rcases reserveInit_cases b request with ⟨hB, h⟩ | ⟨hB, -, h⟩ | ⟨hB, -, h⟩ <;> rw [h]
  · rw [if_pos hB]
  · rw [if_neg (by omega)]
  · rw [if_neg (by omega)]

/-! ### What is the same in both builds

A debug build that does not panic returns what a release build returns. The other direction needs the
indices to be in order. -/

/-- What a debug build computes is what a release build computes. -/
theorem reserveInit_of_checked {init : Nat × Nat × Region}
    (h : b.reserveInitChecked request strict = .ok init) :
    b.reserveInit request = init ∧ ¬b.Underflows := by
  unfold reserveInitChecked at h
  obtain ⟨bLen, hbLen, h⟩ := bind_eq_ok.mp h
  obtain ⟨-, hbLen⟩ := checkedSub_eq_ok.mp hbLen
  have hB : b.bLen = bLen := hbLen
  unfold reserveInit Underflows
  rw [hB]
  by_cases hpos : 0 < bLen
  · rw [if_pos hpos] at h ⊢
    obtain ⟨available, havailable, h⟩ := bind_eq_ok.mp h
    obtain ⟨hle, rfl⟩ := checkedSub_eq_ok.mp havailable
    cases h
    exact ⟨rfl, fun hunder => absurd hunder.2 (by omega)⟩
  · rw [if_neg hpos] at h ⊢
    obtain ⟨spaceAfterA, hafter, h⟩ := bind_eq_ok.mp h
    obtain ⟨-, rfl⟩ := checkedSub_eq_ok.mp hafter
    refine ⟨?_, fun hunder => hpos hunder.1⟩
    by_cases hfits : request ≤ sub b.length b.aEnd
    · simp only [if_pos hfits] at h ⊢
      cases h
      rfl
    · simp only [if_neg hfits] at h ⊢
      split at h
      · cases h
      · split at h
        · next hle =>
          rw [if_pos hle]
          cases h
          rfl
        · next hlt =>
          rw [if_neg hlt]
          cases h
          rfl

/-- A debug build that does not panic does what a release build does. -/
theorem reserve_of_checked {result : BipBufferInner × Option Reservation}
    (h : b.reserveChecked request strict = .ok result) :
    b.reserve request strict = .ok result ∧ ¬b.Underflows := by
  unfold reserveChecked at h
  unfold reserve
  split at h
  · cases h
  · next hreserved =>
    rw [if_neg hreserved]
    obtain ⟨init, hinit, h⟩ := bind_eq_ok.mp h
    obtain ⟨rfl, hclear⟩ := reserveInit_of_checked hinit
    refine ⟨?_, hclear⟩
    by_cases hnone : (b.reserveInit request).2.1 = 0 ∨
        (strict = true ∧ (b.reserveInit request).2.1 < request)
    · simp only [if_pos hnone] at h ⊢
      cases h
      rfl
    · simp only [if_neg hnone] at h ⊢
      obtain ⟨stop, hstop, h⟩ := bind_eq_ok.mp h
      obtain ⟨-, rfl⟩ := checkedAdd_eq_ok.mp hstop
      cases h
      rfl

theorem reserveInitChecked_eq (h : b.InOrder) (hclear : ¬b.Underflows)
    (hassert : ¬b.AssertionFails request strict) :
    b.reserveInitChecked request strict = .ok (b.reserveInit request) := by
  have hbLen : checkedSub b.bEnd b.bStart = .ok b.bLen := checkedSub_of_le h.bStart
  unfold reserveInitChecked reserveInit
  rw [hbLen]
  show (if 0 < b.bLen then _ else _) = _
  by_cases hpos : 0 < b.bLen
  · have hle : b.bEnd ≤ b.aStart := Nat.le_of_not_lt fun hlt => hclear ⟨hpos, hlt⟩
    rw [if_pos hpos, if_pos hpos, checkedSub_of_le hle]
    rfl
  · rw [if_neg hpos, if_neg hpos, checkedSub_of_le h.aEnd_le, sub_eq h.aEnd_le]
    show (if request ≤ b.length - b.aEnd then _ else _) = _
    by_cases hfits : request ≤ b.length - b.aEnd
    · simp only [if_pos hfits]
      rfl
    · have hholds : ¬(strict = true ∧ ¬b.length - b.aEnd ≤ b.aStart) := by
        rintro ⟨hstrict, hlt⟩
        exact hassert ⟨hstrict, by omega, by omega, by omega⟩
      simp only [if_neg hfits, if_neg hholds]
      split <;> rfl

theorem reserveInitChecked_of_assertion (h : b.InOrder)
    (hassert : b.AssertionFails request strict) :
    b.reserveInitChecked request strict = .error .assertion := by
  obtain ⟨hstrict, hempty, hlong, hgap⟩ := hassert
  have hbLen : checkedSub b.bEnd b.bStart = .ok b.bLen := checkedSub_of_le h.bStart
  unfold reserveInitChecked
  rw [hbLen]
  show (if 0 < b.bLen then _ else _) = _
  rw [if_neg (by omega), checkedSub_of_le h.aEnd_le, sub_eq h.aEnd_le]
  show (if request ≤ b.length - b.aEnd then _ else _) = _
  rw [if_neg (by omega), if_pos ⟨hstrict, by omega⟩]
  rfl

theorem availableChecked_eq (h : b.InOrder) (hclear : ¬b.Underflows) :
    b.availableChecked = .ok b.available := by
  have hbLen : checkedSub b.bEnd b.bStart = .ok b.bLen := checkedSub_of_le h.bStart
  unfold availableChecked available
  rw [hbLen]
  show (if 0 < b.bLen then _ else _) = _
  by_cases hpos : 0 < b.bLen
  · have hle : b.bEnd ≤ b.aStart := Nat.le_of_not_lt fun hlt => hclear ⟨hpos, hlt⟩
    rw [if_pos hpos, if_pos hpos, checkedSub_of_le hle]
  · rw [if_neg hpos, if_neg hpos, checkedSub_of_le h.aEnd_le]
    rfl

theorem availableChecked_of_underflows (h : b.InOrder) (hunder : b.Underflows) :
    b.availableChecked = .error .overflow := by
  have hbLen : checkedSub b.bEnd b.bStart = .ok b.bLen := checkedSub_of_le h.bStart
  unfold availableChecked
  rw [hbLen]
  show (if 0 < b.bLen then _ else _) = _
  rw [if_pos hunder.1]
  exact if_neg (Nat.not_le.mpr hunder.2)

/-! ### What is reserved

With the two panics out of the way, `reserve` is what its documentation says. -/

/-- What is reserved lies inside the buffer. -/
theorem reserve_le_length (h : b.InOrder) (hclear : ¬b.Underflows) (request : Nat) :
    (b.reserveInit request).1 + min b.available request ≤ b.length := by
  have hspace := available_eq (b := b) request
  have hsub := sub_eq h.aEnd_le
  have hlength := h.aEnd_le
  have hstart := h.aStart_le
  rcases reserveInit_cases b request with ⟨hB, hinit⟩ | ⟨-, hfits, hinit⟩ | ⟨-, hlarger, hinit⟩
  · have hle : b.bEnd ≤ b.aStart := Nat.le_of_not_lt fun hlt => hclear ⟨hB, hlt⟩
    have hsub := sub_eq hle
    rw [hinit] at hspace ⊢
    simp only at hspace ⊢
    omega
  · rw [hinit] at hspace ⊢
    simp only at hspace ⊢
    omega
  · rw [hinit] at hspace ⊢
    simp only at hspace ⊢
    omega

/-- **`reserve` in terms of `available`.** -/
theorem reserveChecked_eq (h : b.InOrder) (hreserved : b.reserved = false)
    (hclear : ¬b.Underflows) (hassert : ¬b.AssertionFails request strict) :
    b.reserveChecked request strict =
      if b.available = 0 ∨ (strict = true ∧ b.available < request) then
        .ok (b, none)
      else
        .ok ({ b with reserved := true }, some {
          start := (b.reserveInit request).1
          stop := (b.reserveInit request).1 + min b.available request
          region := (b.reserveInit request).2.2 }) := by
  have hlength := h.length_lt
  have hfits := reserve_le_length h hclear request
  have hadd : checkedAdd (b.reserveInit request).1 (min b.available request) =
      .ok ((b.reserveInit request).1 + min b.available request) :=
    if_pos (Nat.lt_of_le_of_lt hfits (Nat.lt_trans hlength (by decide)))
  unfold reserveChecked
  rw [hreserved, reserveInitChecked_eq h hclear hassert]
  show (if (b.reserveInit request).2.1 = 0 ∨ _ then _ else _) = _
  rw [available_eq, hadd]
  rfl

end BipBufferInner

/-! ## Every reachable state

In a reachable state the buffer has a layout, and so its indices are in order. -/

theorem Layout.inOrder {b : BipBufferInner} {res : Option Reservation} {out : List Commit}
    (h : Layout b res out) : b.InOrder := by
  rcases h with ⟨oa, ob, -, h, -⟩ | h
  · have hbounds := h.bounds
    have hle := h.aEnd_le
    exact ⟨h.length_lt, by rw [h.bStart]; exact Nat.zero_le _, hle, by omega⟩
  · have htop : b.top = max b.aEnd b.bEnd := rfl
    have hle := h.top_le
    have hstart := h.aStart_le
    exact ⟨h.length_lt, by rw [h.bStart]; exact Nat.zero_le _, by omega, by omega⟩

namespace Bip

/-- What a run of a debug build reaches is reached under the conditions on the layout: a reservation
that would underflow is not made. -/
theorem reachable_of_checked {s : Bip} (h : Reachable Init IdsFit.Met execChecked s) :
    Reachable Init InBounds.Met exec s := by
  induction h with
  | init h => exact .init h
  | @step s s' op _ hmet hexec ih =>
    cases op with
    | reserve request strict =>
      simp only [execChecked] at hexec
      cases hreserve : s.inner.reserveChecked request strict with
      | error panic =>
        rw [hreserve] at hexec
        cases hexec
        exact ih
      | ok result =>
        obtain ⟨inner, r⟩ := result
        rw [hreserve] at hexec
        cases r with
        | none =>
          cases hexec
          exact ih
        | some r =>
          cases hexec
          obtain ⟨hrelease, hclear⟩ := BipBufferInner.reserve_of_checked hreserve
          have hfits : ReserveFits s.inner request := fun _ hB hlt => absurd ⟨hB, hlt⟩ hclear
          refine ih.step (i := .reserve request strict) hfits ?_
          simp only [exec, step, hrelease]
    | tryCommit len => exact ih.step (i := .tryCommit len) hmet hexec
    | dropReservation => exact ih.step (i := .dropReservation) trivial hexec
    | dropCommit i => exact ih.step (i := .dropCommit i) hmet hexec

/-! ## `reserve` and `available`

The same condition is enough for `available` not to panic, for `reserve` not to panic, and for the two to
agree. -/

/-- `reserve` does not panic and agrees with `available`: it returns `None`, and leaves the buffer as it
is, if and only if there is no space, or not enough for a strict request; and otherwise a range of as
many bytes as were requested and are available, inside the buffer and apart from all commits. -/
def ReserveAgrees (s : Bip) (request : Nat) (strict : Bool) : Prop :=
  ∃ available, s.inner.availableChecked = .ok available ∧
    if available = 0 ∨ (strict = true ∧ available < request) then
      s.inner.reserveChecked request strict = .ok (s.inner, none)
    else
      ∃ inner r, s.inner.reserveChecked request strict = .ok (inner, some r) ∧
        r.len = min request available ∧ (strict = true → r.len = request) ∧
        r.start + r.len ≤ s.inner.length ∧ ∀ c ∈ s.commits, Disjoint r.range c.range

/-- A granted reservation is apart from all commits. -/
theorem disjoint_commits {s : Bip} {r : Reservation}
    (hlayout : Layout s.inner (some r) (s.live ++ s.inner.decommitTombstones)) :
    ∀ c ∈ s.commits, Disjoint r.range c.range := by
  intro c hc
  by_cases hlen : c.len = 0
  · have hempty : c.range = ∅ := by
      unfold Commit.range
      rw [hlen, Nat.add_zero, Set.Ico_self]
    rw [hempty]
    exact Set.disjoint_empty _
  · have hmem : c ∈ s.live ++ s.inner.decommitTombstones :=
      List.mem_append_left _ (List.mem_filter.mpr ⟨hc, by simpa using hlen⟩)
    rw [Commit.range_eq (hlayout.inside hmem).1.le, Reservation.range_eq hlayout.reservation.1]
    exact (disjoint_Ico (hlayout.reservation_disjoint hmem)).symm

/-- **`reserve` agrees with `available`** in a debug build, in every state that is reached, exactly if
region B does not reach beyond the start of A and the assertion does not fail. -/
theorem reserve_agrees_iff {s : Bip} (h : Reachable Init IdsFit.Met execChecked s)
    (hfree : s.reservation = none) (request : Nat) (strict : Bool) :
    s.ReserveAgrees request strict ↔
      ¬s.inner.Underflows ∧ ¬s.inner.AssertionFails request strict := by
  have hs := layout_invariant.of_reachable (reachable_of_checked h)
  have hlayout := hs.holds
  have hreserved : s.inner.reserved = false := by
    rw [hs.reserved, hfree]
    rfl
  have horder := hlayout.inOrder
  constructor
  · rintro ⟨available, havailable, hreserve⟩
    constructor
    · intro hunder
      rw [BipBufferInner.availableChecked_of_underflows horder hunder] at havailable
      cases havailable
    · intro hassert
      have hpanic : s.inner.reserveChecked request strict = .error .assertion := by
        unfold BipBufferInner.reserveChecked
        rw [hreserved, BipBufferInner.reserveInitChecked_of_assertion horder hassert]
        rfl
      rw [hpanic] at hreserve
      split at hreserve
      · cases hreserve
      · obtain ⟨_, _, heq, -⟩ := hreserve
        cases heq
  · rintro ⟨hclear, hassert⟩
    have heq := BipBufferInner.reserveChecked_eq horder hreserved hclear hassert
    have hfits := BipBufferInner.reserve_le_length horder hclear request
    refine ⟨s.inner.available, BipBufferInner.availableChecked_eq horder hclear, ?_⟩
    split
    · next hnone => rw [heq, if_pos hnone]
    · next hsome =>
      rw [if_neg hsome] at heq
      have hrelease := (BipBufferInner.reserve_of_checked heq).1
      rw [hfree] at hlayout
      have hlayout' := (hlayout.reserve (fun _ hB hlt => absurd ⟨hB, hlt⟩ hclear) hrelease).frame
        s.inner.reserved s.inner.decommitTombstones
      refine ⟨_, _, heq, ?_, ?_, ?_, disjoint_commits hlayout'⟩
      all_goals
        unfold Reservation.len
        rw [sub_eq (Nat.le_add_right ..), Nat.add_sub_cancel_left]
      · exact Nat.min_comm ..
      · intro hstrict
        have henough : ¬s.inner.available < request := fun hlt => hsome (.inr ⟨hstrict, hlt⟩)
        omega
      · exact hfits

/-! ## Two strict requests

Neither of them fits. One is refused, the other one panics. -/

/-- A buffer with both regions, and a strict request that does not fit between them. -/
theorem reserve_agrees_between : ∃ s, Reachable Init IdsFit.Met execChecked s ∧
    s.inner.available = 30 ∧ s.ReserveAgrees 31 true := by
  have hrun : ∃ s, Reachable Init IdsFit.Met execChecked s ∧
      decide (s.reservation = none ∧ s.inner.bLen = 20 ∧ s.inner.aStart = 50 ∧
        s.inner.bEnd = 20 ∧ s.inner.available = 30) = true :=
    exists_reachable (Bip.new 100) (fun s h => ⟨100, h⟩)
      [.reserve 100 false, .tryCommit 0, .tryCommit 50, .tryCommit 50, .dropReservation,
        .dropCommit 0, .dropCommit 0, .reserve 40 true, .tryCommit 20, .dropReservation]
      (by decide +kernel)
  obtain ⟨s, h, hp⟩ := hrun
  obtain ⟨hfree, hbLen, haStart, hbEnd, havailable⟩ := of_decide_eq_true hp
  refine ⟨s, h, havailable, (reserve_agrees_iff h hfree 31 true).mpr ⟨?_, ?_⟩⟩
  · rintro ⟨-, hlt⟩
    omega
  · rintro ⟨-, hempty, -⟩
    omega

/-- **A strict request that is too large panics**: a new buffer of sixteen bytes, and a hundred are
requested. -/
theorem strict_reserve_panics : ∃ s, Reachable Init IdsFit.Met execChecked s ∧
    s.reservation = none ∧ s.inner.availableChecked = .ok 16 ∧
    s.inner.reserveChecked 100 true = .error .assertion ∧ ¬s.ReserveAgrees 100 true := by
  have hrun : ∃ s, Reachable Init IdsFit.Met execChecked s ∧
      decide (s.reservation = none ∧ s.inner.availableChecked = .ok 16 ∧
        s.inner.reserveChecked 100 true = .error .assertion) = true :=
    exists_reachable (Bip.new 16) (fun s h => ⟨16, h⟩) [] (by decide +kernel)
  obtain ⟨s, h, hp⟩ := hrun
  obtain ⟨hfree, havailable, hpanic⟩ := of_decide_eq_true hp
  refine ⟨s, h, hfree, havailable, hpanic, ?_⟩
  rintro ⟨available, -, hreserve⟩
  rw [hpanic] at hreserve
  split at hreserve
  · cases hreserve
  · obtain ⟨_, _, heq, -⟩ := hreserve
    cases heq

end Bip

end Aquic.BipBuf

import Aquic.Lib.Word
import Mathlib.Data.List.Sort

/-!
# The bip buffer

`util/bipbuf.rs`: a fixed block of memory with a primary region A and a wrap-around region B. A
reservation is taken behind the last commit of a region and shrinks as parts of it are committed;
commits carry consecutive ids and give their space back in the order of these ids, an early release
being parked as a tombstone.

All indices are `usize`, and the arithmetic is the release-mode one: it wraps. The bytes themselves
play no role here, the model keeps the indices. The tombstone heap is a `BinaryHeap` of reversed
commits, that is a priority queue that yields the lowest id: a list sorted by id.

`Bip` is a buffer in use: the buffer together with the values that borrow from it, the live
`BipSliceMut` (at most one) and the `BipSlice`s and `BipView`s that have not been dropped.
-/

namespace Aquic.BipBuf

open Aquic.Word

/-- `a - b` on indices. -/
def sub (a b : Nat) : Nat := wrappingSub usizeBits a b

/-- `a + b` on indices. -/
def add (a b : Nat) : Nat := wrappingAdd usizeBits a b

inductive Region where
  | A
  | B
  deriving DecidableEq, Repr

structure Reservation where
  /-- Start index (inclusive). -/
  start : Nat
  /-- End index (exclusive). -/
  stop : Nat
  /-- Region that is reserved. -/
  region : Region
  deriving DecidableEq, Repr

structure Commit where
  id : Nat
  /-- Start index (inclusive). -/
  start : Nat
  /-- End index (exclusive). -/
  stop : Nat
  deriving DecidableEq, Repr

def Reservation.len (r : Reservation) : Nat := sub r.stop r.start

def Commit.len (c : Commit) : Nat := sub c.stop c.start

/-- The panics of the buffer. -/
inductive Panic where
  /-- `reserve`: "drop previous reservation first, before trying to reserve a new one". -/
  | reserved
  /-- `decommit`: "tombstone commit ID is lower than next expected ID to be deallocated: this lag
  should never happen". -/
  | tombstoneLag
  /-- `decommit_single`: "'decommit_single()' call is out of order". -/
  | outOfOrder
  deriving DecidableEq, Repr

structure BipBufferInner where
  /-- Constant buffer length. -/
  length : Nat
  aStart : Nat
  aEnd : Nat
  bStart : Nat
  bEnd : Nat
  /-- `true` if there is a mutable chunk reservation. -/
  reserved : Bool
  /-- Ordered id sequence for committed slices. -/
  commitIdSequence : Nat
  /-- Next id that is expected to be decommitted. -/
  decommitNextId : Nat
  /-- Slices released before their turn, the lowest id first. -/
  decommitTombstones : List Commit
  deriving DecidableEq, Repr

namespace BipBufferInner

/-- `BipBufferInner::new`; an allocation of more than `isize::MAX` bytes panics. -/
def new (length : Nat) : Option BipBufferInner :=
  if length < 2 ^ (usizeBits - 1) then
    some
      { length, aStart := 0, aEnd := 0, bStart := 0, bEnd := 0, reserved := false
        commitIdSequence := 0, decommitNextId := 1, decommitTombstones := [] }
  else
    none

def aLen (b : BipBufferInner) : Nat := sub b.aEnd b.aStart

def bLen (b : BipBufferInner) : Nat := sub b.bEnd b.bStart

def available (b : BipBufferInner) : Nat :=
  if 0 < b.bLen then
    sub b.aStart b.bEnd
  else
    max b.aStart (sub b.length b.aEnd)

/-- The `'init` block of `reserve`: start, available space and region of the reservation. -/
def reserveInit (b : BipBufferInner) (request : Nat) : Nat × Nat × Region :=
  if 0 < b.bLen then
    (b.bEnd, sub b.aStart b.bEnd, .B)
  else
    let spaceBeforeA := b.aStart
    let spaceAfterA := sub b.length b.aEnd
    let available := max spaceBeforeA spaceAfterA
    if request ≤ spaceAfterA then
      -- no wrap-around without a specific need
      (b.aEnd, available, .A)
    else if spaceBeforeA ≤ spaceAfterA then
      (b.aEnd, available, .A)
    else
      (0, available, .B)

/-- `reserve`, with the debug assertion compiled out. -/
def reserve (b : BipBufferInner) (request : Nat) (strict : Bool) :
    Except Panic (BipBufferInner × Option Reservation) :=
  if b.reserved then
    .error .reserved
  else
    let init := b.reserveInit request
    if init.2.1 = 0 ∨ (strict = true ∧ init.2.1 < request) then
      .ok (b, none)
    else
      let reserveLen := min init.2.1 request
      .ok ({ b with reserved := true },
        some { start := init.1, stop := add init.1 reserveLen, region := init.2.2 })

/-- `commit`. -/
def commit (b : BipBufferInner) (r : Reservation) (commitLen : Nat) :
    Option (BipBufferInner × Commit) :=
  if r.len < commitLen then
    none
  else
    let id := b.commitIdSequence
    let commitEnd := add r.start (min commitLen r.len)
    let b := { b with commitIdSequence := add id 1 }
    let b := match r.region with
      | .A => { b with aEnd := commitEnd }
      | .B => { b with bEnd := commitEnd }
    some (b, { id, start := r.start, stop := commitEnd })

/-- When region A is empty, region B takes its place. -/
def swapIfEmpty (b : BipBufferInner) : BipBufferInner :=
  if b.aLen = 0 then
    { b with aStart := b.bStart, aEnd := b.bEnd, bStart := 0, bEnd := 0 }
  else
    b

/-- `decommit_single`; it panics before it changes anything. -/
def decommitSingle (b : BipBufferInner) (value : Commit) : Except Panic BipBufferInner :=
  if value.start = b.aStart then
    .ok { b with aStart := add b.aStart value.len }.swapIfEmpty
  else if value.start = b.bStart then
    .ok { b with bStart := add b.bStart value.len }.swapIfEmpty
  else
    .error .outOfOrder

/-- The loop of `decommit` over the tombstones, the lowest id first. -/
def drainTombstones : List Commit → BipBufferInner → BipBufferInner × Option Panic
  | [], b => ({ b with decommitTombstones := [] }, none)
  | value :: rest, b =>
    if value.id ≠ b.decommitNextId then
      ({ b with decommitTombstones := value :: rest },
        if value.id < b.decommitNextId then some .tombstoneLag else none)
    else
      match b.decommitSingle value with
      -- the tombstone has been popped when `decommit_single` panics
      | .error panic => ({ b with decommitTombstones := rest }, some panic)
      | .ok b => drainTombstones rest { b with decommitNextId := add b.decommitNextId 1 }

/-- `decommit`: the buffer afterwards, and the panic it ended with, if any. -/
def decommit (b : BipBufferInner) (value : Commit) : BipBufferInner × Option Panic :=
  if value.len = 0 then
    (b, none)
  else if value.id ≠ b.decommitNextId then
    ({ b with decommitTombstones :=
        b.decommitTombstones.orderedInsert (fun c d => c.id ≤ d.id) value }, none)
  else
    match b.decommitSingle value with
    | .error panic => (b, some panic)
    | .ok b =>
      drainTombstones b.decommitTombstones { b with decommitNextId := add b.decommitNextId 1 }

end BipBufferInner

/-- A buffer in use. -/
structure Bip where
  inner : BipBufferInner
  /-- The live `BipSliceMut`. -/
  reservation : Option Reservation
  /-- The `BipSlice`s and `BipView`s that have not been dropped, oldest first. -/
  commits : List Commit
  deriving DecidableEq, Repr

inductive Op where
  /-- `BipBuffer::reserve`. -/
  | reserve (request : Nat) (strict : Bool)
  /-- `BipSliceMut::try_commit` on the live reservation. -/
  | tryCommit (len : Nat)
  /-- Drop of the live reservation. -/
  | dropReservation
  /-- Drop of the `i`-th live slice or view. -/
  | dropCommit (i : Nat)
  deriving DecidableEq, Repr

namespace Bip

/-- `BipBuffer::new`. -/
def new (length : Nat) : Option Bip :=
  (BipBufferInner.new length).map fun inner => { inner, reservation := none, commits := [] }

/-- `BipSliceMut::try_commit`: the committed part leaves the reservation. -/
def tryCommit (s : Bip) (r : Reservation) (len : Nat) : Bip :=
  match s.inner.commit r len with
  | none => s
  | some (inner, c) =>
    { inner
      reservation := some { r with start := min (add r.start len) r.stop }
      commits := s.commits ++ [c] }

/-- One operation: the buffer afterwards, and the panic it ended with, if any. An operation on a
value that does not exist does nothing. -/
def step (s : Bip) : Op → Bip × Option Panic
  | .reserve request strict =>
    match s.inner.reserve request strict with
    | .error panic => (s, some panic)
    | .ok (_, none) => (s, none)
    | .ok (inner, some r) => ({ s with inner, reservation := some r }, none)
  | .tryCommit len =>
    match s.reservation with
    | none => (s, none)
    | some r => (s.tryCommit r len, none)
  | .dropReservation =>
    match s.reservation with
    | none => (s, none)
    | some _ => ({ s with inner := { s.inner with reserved := false }, reservation := none }, none)
  | .dropCommit i =>
    match s.commits[i]? with
    | none => (s, none)
    | some c =>
      let released := s.inner.decommit c
      ({ s with inner := released.1, commits := s.commits.eraseIdx i }, released.2)

/-- A run goes on after a panic, from the state the panic left behind. -/
def exec (s : Bip) (op : Op) : Option Bip := some (s.step op).1

/-- The buffers right after `BipBuffer::new`. -/
def Init (s : Bip) : Prop := ∃ length, new length = some s

end Bip

end Aquic.BipBuf

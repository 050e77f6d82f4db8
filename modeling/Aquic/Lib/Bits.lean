import Mathlib.Algebra.Group.Nat.Defs
import Mathlib.Data.List.Induction
import Mathlib.Tactic.Ring

/-!
# Bit strings

Bytes as bits, the most significant first, and numbers stored in a few bits. Bit strings are lists;
`overwrite` is the assignment to a slice of one.
-/

namespace Aquic.Bits

/-- The low `width` bits of a number. -/
def storeBe : (width : Nat) → Nat → List Bool
  | 0, _ => []
  | width + 1, n => storeBe width (n / 2) ++ [decide (n % 2 = 1)]

/-- The number that bits stand for. -/
def loadBe (bits : List Bool) : Nat := bits.foldl (fun n bit => 2 * n + bit.toNat) 0

@[simp]
theorem length_storeBe (width n : Nat) : (storeBe width n).length = width := by
  induction width generalizing n with
  | zero => rfl
  | succ width ih => simp [storeBe, ih]

theorem loadBe_concat (bits : List Bool) (bit : Bool) :
    loadBe (bits ++ [bit]) = 2 * loadBe bits + bit.toNat := by
  simp [loadBe]

theorem loadBe_storeBe (width n : Nat) : loadBe (storeBe width n) = n % 2 ^ width := by
  induction width generalizing n with
  | zero => simp [storeBe, loadBe, Nat.mod_one]
  | succ width ih =>
    have hbit : (decide (n % 2 = 1)).toNat = n % 2 := by
      rcases Nat.mod_two_eq_zero_or_one n with h | h <;> simp [h]
    rw [storeBe, loadBe_concat, ih, hbit, Nat.pow_succ', Nat.mod_mul]
    ring

theorem storeBe_loadBe (bits : List Bool) : storeBe bits.length (loadBe bits) = bits := by
  induction bits using List.reverseRecOn with
  | nil => rfl
  | append_singleton bits bit ih =>
    have hdiv : (2 * loadBe bits + bit.toNat) / 2 = loadBe bits := by
      have := bit.toNat_lt
      omega
    have hmod : decide ((2 * loadBe bits + bit.toNat) % 2 = 1) = bit := by
      cases bit <;> simp
    rw [List.length_append, List.length_singleton, storeBe, loadBe_concat, hdiv, hmod, ih]

theorem loadBe_lt (bits : List Bool) : loadBe bits < 2 ^ bits.length := by
  have h := loadBe_storeBe bits.length (loadBe bits)
  rw [storeBe_loadBe] at h
  rw [h]
  exact Nat.mod_lt _ (Nat.two_pow_pos _)

/-! ## Bytes -/

/-- The bits of bytes. -/
def view (bytes : List UInt8) : List Bool := bytes.flatMap fun byte => storeBe 8 byte.toNat

/-- The first `count` bytes of bits. -/
def packBytes : (count : Nat) → List Bool → List UInt8
  | 0, _ => []
  | count + 1, bits => UInt8.ofNat (loadBe (bits.take 8)) :: packBytes count (bits.drop 8)

/-- The bytes of bits; a rest of less than eight is dropped. -/
def pack (bits : List Bool) : List UInt8 := packBytes (bits.length / 8) bits

@[simp]
theorem view_nil : view [] = [] := rfl

theorem view_cons (byte : UInt8) (bytes : List UInt8) :
    view (byte :: bytes) = storeBe 8 byte.toNat ++ view bytes := rfl

@[simp]
theorem length_view (bytes : List UInt8) : (view bytes).length = 8 * bytes.length := by
  induction bytes with
  | nil => rfl
  | cons byte bytes ih =>
    rw [view_cons, List.length_append, ih, length_storeBe, List.length_cons]
    ring

theorem view_zeros (count : Nat) : view (List.replicate count 0) = List.replicate (8 * count) false := by
  induction count with
  | zero => rfl
  | succ count ih =>
    rw [List.replicate_succ, view_cons, ih, Nat.mul_succ, Nat.add_comm,
      ← List.replicate_append_replicate]
    rfl

theorem pack_append {byte : List Bool} (hbyte : byte.length = 8) (bits : List Bool) :
    pack (byte ++ bits) = UInt8.ofNat (loadBe byte) :: pack bits := by
  have hcount : (byte ++ bits).length / 8 = bits.length / 8 + 1 := by
    rw [List.length_append, hbyte]
    omega
  unfold pack
  rw [hcount, packBytes, List.take_left' hbyte, List.drop_left' hbyte]

theorem pack_byte (byte : UInt8) (bits : List Bool) :
    pack (storeBe 8 byte.toNat ++ bits) = byte :: pack bits := by
  have hbyte : UInt8.ofNat (byte.toNat % 2 ^ 8) = byte := by
    rw [Nat.mod_eq_of_lt byte.toNat_lt]
    exact UInt8.ofNat_toNat
  rw [pack_append (length_storeBe 8 _), loadBe_storeBe, hbyte]

@[simp]
theorem pack_view (bytes : List UInt8) : pack (view bytes) = bytes := by
  induction bytes with
  | nil => rfl
  | cons byte bytes ih => rw [view_cons, pack_byte, ih]

theorem view_pack {count : Nat} {bits : List Bool} (h : bits.length = 8 * count) :
    view (pack bits) = bits := by
  induction count generalizing bits with
  | zero =>
    obtain rfl := List.length_eq_zero_iff.mp h
    rfl
  | succ count ih =>
    have hbyte : (bits.take 8).length = 8 := by
      rw [List.length_take]
      omega
    have hrest : (bits.drop 8).length = 8 * count := by
      rw [List.length_drop]
      omega
    have hload : (UInt8.ofNat (loadBe (bits.take 8))).toNat = loadBe (bits.take 8) := by
      have hlt := loadBe_lt (bits.take 8)
      rw [hbyte] at hlt
      rw [UInt8.toNat_ofNat']
      exact Nat.mod_eq_of_lt hlt
    have hstore := storeBe_loadBe (bits.take 8)
    rw [hbyte] at hstore
    have hpack := pack_append hbyte (bits.drop 8)
    rw [List.take_append_drop] at hpack
    rw [hpack, view_cons, hload, hstore, ih hrest, List.take_append_drop]

theorem length_pack {count : Nat} {bits : List Bool} (h : bits.length = 8 * count) :
    (pack bits).length = count := by
  have hview := congrArg List.length (view_pack h)
  rw [length_view, h] at hview
  omega

theorem view_take (bytes : List UInt8) (count : Nat) :
    view (bytes.take count) = (view bytes).take (8 * count) := by
  induction bytes generalizing count with
  | nil => simp
  | cons byte bytes ih =>
    cases count with
    | zero => simp
    | succ count =>
      have hbyte := length_storeBe 8 byte.toNat
      have hall : (storeBe 8 byte.toNat).take (8 * (count + 1)) = storeBe 8 byte.toNat :=
        List.take_of_length_le (by omega)
      have hrest : 8 * (count + 1) - 8 = 8 * count := by omega
      rw [List.take_succ_cons, view_cons, view_cons, ih, List.take_append, hall, hbyte, hrest]

/-! ## Slices -/

/-- `bits[offset..offset + written.len()]` is overwritten, if it is in bounds. -/
def overwrite (bits : List Bool) (offset : Nat) (written : List Bool) : Option (List Bool) :=
  if offset + written.length ≤ bits.length then
    some (bits.take offset ++ written ++ bits.drop (offset + written.length))
  else
    none

/-- Behind `offset` bits, there are zeros. -/
theorem overwrite_zeros (done written : List Bool) (room : Nat) (h : written.length ≤ room) :
    overwrite (done ++ List.replicate room false) done.length written =
      some (done ++ written ++ List.replicate (room - written.length) false) := by
  have hbounds : done.length + written.length ≤ (done ++ List.replicate room false).length := by
    simpa using h
  unfold overwrite
  rw [if_pos hbounds, List.take_left', List.drop_append, List.drop_of_length_le (by omega),
    List.drop_replicate]
  · simp
  · rfl

end Aquic.Bits

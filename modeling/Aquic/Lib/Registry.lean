import Aquic.Lib.Collections

/-!
# Registries

A registry is what a collection with reused keys is for. Insertions are numbered, and a number is
never used again. Each insertion is filed under a key; an insertion under a key in use takes the place
of the one that is present there, so that at most one insertion is present under each key.

`Files` says that a vector of slots keeps the values of a registry, one slot for each key. Every
operation on the slots is followed by the operation of the registry on the insertion that is present
under the key.
-/

namespace Aquic.Collections

structure Registry (α : Type) where
  /-- The keys of the insertions, in order. -/
  keys : List Nat
  /-- The value of the insertion with this number, as long as it is present. -/
  present : Nat → Option α
  lt_of_present : ∀ {i value}, present i = some value → i < keys.length
  unique : ∀ {i j value value'}, present i = some value → present j = some value' →
    keys[i]? = keys[j]? → i = j

namespace Registry

variable {α : Type}

def empty : Registry α where
  keys := []
  present _ := none
  lt_of_present h := by cases h
  unique h := by cases h

/-- Changes or removes some of the values. -/
def alter (r : Registry α) (p : Nat → Bool) (f : α → Option α) : Registry α where
  keys := r.keys
  present i := if p i then (r.present i).bind f else r.present i
  lt_of_present {i value} h := by
    split at h
    · obtain ⟨_, hvalue, -⟩ := Option.bind_eq_some_iff.mp h
      exact r.lt_of_present hvalue
    · exact r.lt_of_present h
  unique {i j value value'} hi hj := by
    have hsome {k : Nat} {w : α} (h : (if p k then (r.present k).bind f else r.present k) = some w) :
        ∃ w', r.present k = some w' := by
      split at h
      · obtain ⟨w', hw', -⟩ := Option.bind_eq_some_iff.mp h
        exact ⟨w', hw'⟩
      · exact ⟨w, h⟩
    obtain ⟨_, hi⟩ := hsome hi
    obtain ⟨_, hj⟩ := hsome hj
    exact r.unique hi hj

/-- The insertion with this number is filed under the key. -/
def under (r : Registry α) (key : Nat) (i : Nat) : Bool := r.keys[i]? == some key

def update (r : Registry α) (number : Nat) (f : α → α) : Registry α :=
  r.alter (· == number) fun value => some (f value)

def remove (r : Registry α) (number : Nat) : Registry α := r.alter (· == number) fun _ => none

def updateKey (r : Registry α) (key : Nat) (f : α → α) : Registry α :=
  r.alter (r.under key) fun value => some (f value)

def removeKey (r : Registry α) (key : Nat) : Registry α := r.alter (r.under key) fun _ => none

/-- The insertion with this number is present under the key, with this value. -/
def Holds (r : Registry α) (key i : Nat) (value : α) : Prop :=
  r.keys[i]? = some key ∧ r.present i = some value

variable {r : Registry α} {key key' i j number : Nat} {value value' : α} {f : α → α}

theorem Holds.unique (h : r.Holds key i value) (h' : r.Holds key j value') :
    i = j ∧ value = value' := by
  obtain rfl : i = j := r.unique h.2 h'.2 (h.1.trans h'.1.symm)
  exact ⟨rfl, Option.some.inj (h.2.symm.trans h'.2)⟩

/-- What is filed under a key that is cleared is not present. -/
theorem present_removeKey (r : Registry α) (key i : Nat) :
    (r.removeKey key).present i = if r.keys[i]? = some key then none else r.present i := by
  show (if (r.keys[i]? == some key) = true then _ else _) = _
  simp only [beq_iff_eq, Option.bind_fun_none]

/-- Inserts under the next number. -/
def insert (r : Registry α) (key : Nat) (value : α) : Registry α where
  keys := r.keys ++ [key]
  present i := if i = r.keys.length then some value else (r.removeKey key).present i
  lt_of_present {i _} h := by
    rw [List.length_append]
    split at h
    · next heq => exact heq ▸ Nat.lt_succ_self _
    · exact Nat.lt_succ_of_lt ((r.removeKey key).lt_of_present h)
  unique {i j _ _} hi hj hkeys := by
    -- an old insertion that is present is filed under another key than the new one
    have hold {k : Nat} {w : α} (hk : (r.removeKey key).present k = some w) :
        (r.keys ++ [key])[k]? = r.keys[k]? ∧ r.keys[k]? ≠ some key := by
      refine ⟨List.getElem?_append_left ((r.removeKey key).lt_of_present hk), fun heq => ?_⟩
      rw [present_removeKey, if_pos heq] at hk
      cases hk
    split at hi <;> split at hj
    · next heqi heqj => exact heqi.trans heqj.symm
    · next heqi _ =>
      rw [heqi, List.getElem?_concat_length, (hold hj).1] at hkeys
      exact absurd hkeys.symm (hold hj).2
    · next _ heqj =>
      rw [heqj, List.getElem?_concat_length, (hold hi).1] at hkeys
      exact absurd hkeys (hold hi).2
    · rw [(hold hi).1, (hold hj).1] at hkeys
      exact (r.removeKey key).unique hi hj hkeys

@[simp]
theorem present_update : (r.update number f).present i =
    if i = number then (r.present i).map f else r.present i := by
  show (if (i == number) = true then _ else _) = _
  rw [Option.map_eq_bind]
  simp only [beq_iff_eq]
  rfl

@[simp]
theorem present_remove : (r.remove number).present i =
    if i = number then none else r.present i := by
  show (if (i == number) = true then _ else _) = _
  simp only [beq_iff_eq, Option.bind_fun_none]

theorem holds_updateKey : (r.updateKey key f).Holds key' i value ↔
    if key' = key then ∃ old, r.Holds key i old ∧ f old = value else r.Holds key' i value := by
  show r.keys[i]? = some key' ∧ (if (r.keys[i]? == some key) = true then _ else _) = _ ↔ _
  simp only [beq_iff_eq]
  by_cases heq : key' = key
  · subst heq
    rw [if_pos rfl]
    constructor
    · rintro ⟨hkey, hpresent⟩
      rw [if_pos hkey] at hpresent
      obtain ⟨old, hold, hvalue⟩ := Option.bind_eq_some_iff.mp hpresent
      exact ⟨old, ⟨hkey, hold⟩, Option.some.inj hvalue⟩
    · rintro ⟨old, ⟨hkey, hold⟩, rfl⟩
      refine ⟨hkey, ?_⟩
      rw [if_pos hkey, hold]
      rfl
  · rw [if_neg heq]
    refine and_congr_right fun hkey => ?_
    rw [if_neg fun hkey' => heq (Option.some.inj (hkey.symm.trans hkey'))]

theorem holds_removeKey :
    (r.removeKey key).Holds key' i value ↔ key' ≠ key ∧ r.Holds key' i value := by
  rw [Holds, present_removeKey]
  show r.keys[i]? = some key' ∧ _ ↔ _
  constructor
  · rintro ⟨hkey, hpresent⟩
    split at hpresent
    · cases hpresent
    · next hne => exact ⟨fun heq => hne (heq ▸ hkey), hkey, hpresent⟩
  · rintro ⟨hne, hkey, hpresent⟩
    refine ⟨hkey, ?_⟩
    rwa [if_neg fun heq => hne (Option.some.inj (hkey.symm.trans heq))]

/-- What is present after an insertion: the new value, and what is filed under other keys. -/
theorem holds_insert : (r.insert key value).Holds key' i value' ↔
    if key' = key then i = r.keys.length ∧ value' = value else r.Holds key' i value' := by
  show (r.keys ++ [key])[i]? = some key' ∧
    (if i = r.keys.length then some value else (r.removeKey key).present i) = some value' ↔ _
  by_cases hi : i = r.keys.length
  · -- the new one
    subst hi
    rw [List.getElem?_concat_length, if_pos rfl]
    split
    · next heq =>
      subst heq
      simp only [true_and, Option.some.injEq]
      exact eq_comm
    · next hne =>
      refine ⟨fun h => absurd (Option.some.inj h.1).symm hne, fun h => ?_⟩
      exact absurd (r.lt_of_present h.2) (Nat.lt_irrefl _)
  · -- an old insertion
    have hold : (r.keys ++ [key])[i]? = some key' ∧ (r.removeKey key).present i = some value' ↔
        (r.removeKey key).Holds key' i value' := by
      refine and_congr_left fun hpresent => ?_
      have hlt : i < r.keys.length := (r.removeKey key).lt_of_present hpresent
      rw [List.getElem?_append_left hlt]
      rfl
    rw [if_neg hi, hold, holds_removeKey]
    split
    · next heq => exact iff_of_false (fun h => h.1 heq) (fun h => hi h.1)
    · next hne => exact and_iff_right hne

theorem ext_present {r r' : Registry α} (hkeys : r.keys = r'.keys)
    (hpresent : ∀ i, r.present i = r'.present i) : r = r' := by
  cases r
  cases r'
  cases hkeys
  cases funext hpresent
  rfl

theorem insert_removeKey : (r.removeKey key).insert key value = r.insert key value := by
  refine ext_present rfl fun i => ?_
  show (if i = r.keys.length then some value else ((r.removeKey key).removeKey key).present i) =
    if i = r.keys.length then some value else (r.removeKey key).present i
  rw [present_removeKey, present_removeKey]
  show (if _ then _ else if r.keys[i]? = some key then none else _) = _
  congr 1
  split
  · rfl
  · rfl

/-- Among the insertions under a key only the one that is present can change. -/
theorem alter_under {f : α → Option α} (h : r.Holds key i value) :
    r.alter (r.under key) f = r.alter (· == i) f := by
  refine ext_present rfl fun j => ?_
  show (if (r.keys[j]? == some key) = true then _ else _) = if (j == i) = true then _ else _
  simp only [beq_iff_eq]
  by_cases hj : j = i
  · rw [if_pos (hj ▸ h.1), if_pos hj]
  · rw [if_neg hj]
    split
    · next hkey =>
      cases hpresent : r.present j with
      | none => rfl
      | some w => exact absurd (r.unique hpresent h.2 (hkey.trans h.1.symm)) hj
    · rfl

/-- A change of nothing that is present changes nothing. -/
theorem alter_absent {p : Nat → Bool} {f : α → Option α}
    (h : ∀ i, p i = true → r.present i = none) : r.alter p f = r := by
  refine ext_present rfl fun i => ?_
  show (if p i = true then _ else _) = _
  split
  · next hp =>
    rw [h i hp]
    rfl
  · rfl

theorem remove_absent (h : r.present number = none) : r.remove number = r := by
  refine alter_absent fun i hi => ?_
  rw [beq_iff_eq.mp hi]
  exact h

theorem update_congr {g : α → α}
    (h : ∀ value, r.present number = some value → f value = g value) :
    r.update number f = r.update number g := by
  refine ext_present rfl fun i => ?_
  rw [present_update, present_update]
  split
  · next heq =>
    subst heq
    exact Option.map_congr h
  · rfl

theorem update_id (h : ∀ value, r.present number = some value → f value = value) :
    r.update number f = r := by
  rw [update_congr (g := id) h]
  refine ext_present rfl fun i => ?_
  rw [present_update, Option.map_id, id, ite_self]

theorem update_absent (h : r.present number = none) (f : α → α) : r.update number f = r := by
  refine update_id fun value hpresent => ?_
  rw [h] at hpresent
  cases hpresent

end Registry

/-! ## Slots that keep a registry -/

/-- A value is in the slot of a key exactly if it is present under the key. -/
def Files {α : Type} (s : Slots α) (r : Registry α) : Prop :=
  ∀ key value, s.get key = some value ↔ ∃ i, r.Holds key i value

namespace Files

variable {α : Type} {s : Slots α} {r : Registry α} {key i : Nat} {value : α} {f : α → α}

theorem empty : Files (.empty : Slots α) .empty := by
  intro key value
  constructor
  · intro h
    cases h
  · rintro ⟨i, -, h⟩
    cases h

/-- Nothing is present under the key of an empty slot. -/
theorem absent (h : Files s r) (hget : s.get key = none) (i : Nat)
    (hunder : r.under key i = true) : r.present i = none := by
  cases hpresent : r.present i with
  | none => rfl
  | some w =>
    have hw := (h key w).mpr ⟨i, beq_iff_eq.mp hunder, hpresent⟩
    rw [hget] at hw
    cases hw

theorem set (h : Files s r) (hget : s.get key = some value) :
    Files (s.set key (f value)) (r.updateKey key f) := by
  obtain ⟨i, hi⟩ := (h key value).mp hget
  intro k w
  rw [Slots.get_set (by rw [hget]; rfl)]
  simp only [Registry.holds_updateKey]
  split
  · constructor
    · intro hw
      exact ⟨i, value, hi, Option.some.inj hw⟩
    · rintro ⟨j, old, hold, rfl⟩
      rw [(hi.unique hold).2]
  · exact h k w

theorem remove (h : Files s r) (key : Nat) : Files (s.remove key) (r.removeKey key) := by
  intro k w
  rw [Slots.get_remove]
  simp only [Registry.holds_removeKey, exists_and_left]
  split
  · next heq => exact iff_of_false (fun hw => by cases hw) (fun hw => hw.1 heq)
  · next hne => rw [h k w, and_iff_right hne]

theorem insert (h : Files s r) (key : Nat) (value : α) :
    Files (s.insert key value) (r.insert key value) := by
  intro k w
  rw [Slots.get_insert]
  simp only [Registry.holds_insert]
  split
  · rw [exists_and_right, and_iff_right ⟨_, rfl⟩, Option.some.injEq]
    exact eq_comm
  · exact h k w

end Files

end Aquic.Collections

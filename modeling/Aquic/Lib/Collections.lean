import Mathlib.Data.List.Nodup
import Mathlib.Logic.Function.Basic

/-!
# Collections

Three containers. A dictionary is a function to optional values. A `LinkedHashSet` is a set that
remembers the order of insertion; its elements are distinct by construction. A `Slots` is a vector of
optional values addressed by index: an index that was handed out by `push` is never handed out again,
so it serves as a stable key.
-/

namespace Aquic.Collections

/-- One value is written under all the keys of a list. -/
theorem foldl_update {α β : Type} [DecidableEq α] (f : α → β) (keys : List α) (value : β) (x : α) :
    keys.foldl (fun f key => Function.update f key value) f x =
      if x ∈ keys then value else f x := by
  induction keys generalizing f with
  | nil => rfl
  | cons key keys ih =>
    rw [List.foldl_cons, ih]
    by_cases hx : x = key
    · simp [hx]
    · simp [hx]

structure LinkedHashSet (α : Type) where
  /-- The oldest element first. -/
  toList : List α
  nodup : toList.Nodup
  deriving DecidableEq

namespace LinkedHashSet

variable {α : Type}

def empty : LinkedHashSet α := ⟨[], List.nodup_nil⟩

def front (s : LinkedHashSet α) : Option α := s.toList.head?

def popFront (s : LinkedHashSet α) : LinkedHashSet α :=
  ⟨s.toList.tail, s.nodup.sublist (List.tail_sublist _)⟩

def length (s : LinkedHashSet α) : Nat := s.toList.length

/-- Pops the elements in front of the first one that satisfies `p`, with fuel for the elements. -/
def popUntilLoop (p : α → Bool) : Nat → LinkedHashSet α → LinkedHashSet α
  | 0, s => s
  | n + 1, s =>
    match s.front with
    | none => s
    | some x => if p x then s else popUntilLoop p n s.popFront

def popUntil (s : LinkedHashSet α) (p : α → Bool) : LinkedHashSet α := popUntilLoop p s.length s

section

variable {s : LinkedHashSet α} {x : α} {xs : List α} {p : α → Bool}

theorem popUntil_nil (h : s.toList = []) : s.popUntil p = s := by
  simp [popUntil, length, h, popUntilLoop]

theorem popUntil_of_pos (h : s.toList = x :: xs) (hx : p x = true) : s.popUntil p = s := by
  simp [popUntil, length, h, popUntilLoop, front, hx]

theorem popUntil_of_neg (h : s.toList = x :: xs) (hx : p x = false) :
    s.popUntil p = s.popFront.popUntil p := by
  simp [popUntil, length, h, popUntilLoop, front, hx, popFront]

end

theorem mem_of_mem_popFront {s : LinkedHashSet α} {x : α} (h : x ∈ s.popFront.toList) :
    x ∈ s.toList :=
  List.mem_of_mem_tail h

theorem mem_of_mem_popUntil {s : LinkedHashSet α} {p : α → Bool} {x : α}
    (h : x ∈ (s.popUntil p).toList) : x ∈ s.toList := by
  unfold popUntil at h
  generalize s.length = fuel at h
  induction fuel generalizing s with
  | zero => exact h
  | succ fuel ih =>
    unfold popUntilLoop at h
    split at h
    · exact h
    · split at h
      · exact h
      · exact mem_of_mem_popFront (ih h)

variable [DecidableEq α]

/-- Inserts at the back; a value that is present keeps its place. -/
def replace (s : LinkedHashSet α) (x : α) : LinkedHashSet α :=
  if h : x ∈ s.toList then
    s
  else
    ⟨s.toList ++ [x], List.nodup_append.mpr ⟨s.nodup, List.nodup_singleton x, by grind⟩⟩

def remove (s : LinkedHashSet α) (x : α) : LinkedHashSet α :=
  ⟨s.toList.erase x, s.nodup.erase x⟩

theorem toList_replace (s : LinkedHashSet α) (x : α) :
    (s.replace x).toList = if x ∈ s.toList then s.toList else s.toList ++ [x] := by
  unfold replace
  split <;> rfl

@[simp]
theorem mem_replace {s : LinkedHashSet α} {x y : α} :
    y ∈ (s.replace x).toList ↔ y ∈ s.toList ∨ y = x := by
  rw [toList_replace]
  split
  · grind
  · simp

theorem mem_foldl_replace {s : LinkedHashSet α} {xs : List α} {y : α} :
    y ∈ (xs.foldl replace s).toList ↔ y ∈ s.toList ∨ y ∈ xs := by
  induction xs generalizing s with
  | nil => simp
  | cons x xs ih => rw [List.foldl_cons, ih, mem_replace, List.mem_cons, or_assoc]

theorem mem_remove {s : LinkedHashSet α} {x y : α} :
    y ∈ (s.remove x).toList ↔ y ≠ x ∧ y ∈ s.toList :=
  s.nodup.mem_erase_iff

end LinkedHashSet

structure Slots (α : Type) where
  slots : List (Option α)
  deriving DecidableEq, Repr

namespace Slots

variable {α : Type}

def empty : Slots α := ⟨[]⟩

def get (s : Slots α) (key : Nat) : Option α := (s.slots[key]?).join

def contains (s : Slots α) (key : Nat) : Bool := (s.get key).isSome

/-- The number of values. -/
def length (s : Slots α) : Nat := (s.slots.filter Option.isSome).length

/-- Inserts under a new key. -/
def push (s : Slots α) (value : α) : Slots α × Nat := (⟨s.slots ++ [some value]⟩, s.slots.length)

/-- Overwrites a slot that exists. -/
def set (s : Slots α) (key : Nat) (value : α) : Slots α := ⟨s.slots.set key (some value)⟩

/-- Overwrites a slot, and makes room for it if necessary. -/
def insert (s : Slots α) (key : Nat) (value : α) : Slots α :=
  ⟨(s.slots ++ List.replicate (key + 1 - s.slots.length) none).set key (some value)⟩

def remove (s : Slots α) (key : Nat) : Slots α := ⟨s.slots.set key none⟩

theorem lt_of_get {s : Slots α} {key : Nat} {value : α} (h : s.get key = some value) :
    key < s.slots.length := by
  by_contra hlt
  simp [get, List.getElem?_eq_none (by omega : s.slots.length ≤ key)] at h

theorem get_set {s : Slots α} {key : Nat} (h : (s.get key).isSome) (value : α) (key' : Nat) :
    (s.set key value).get key' = if key' = key then some value else s.get key' := by
  obtain ⟨old, hold⟩ := Option.isSome_iff_exists.mp h
  unfold get set
  by_cases heq : key' = key
  · subst heq
    simp [lt_of_get hold]
  · simp [heq, Ne.symm heq]

theorem isSome_get_set {s : Slots α} {key : Nat} {value : α} (h : (s.get key).isSome) :
    ((s.set key value).get key).isSome := by
  simp [get_set h]

theorem get_set_of_ne {s : Slots α} {key key' : Nat} {value : α} (h : key' ≠ key) :
    (s.set key value).get key' = s.get key' := by
  simp [get, set, Ne.symm h]

@[simp]
theorem get_remove (s : Slots α) (key key' : Nat) :
    (s.remove key).get key' = if key' = key then none else s.get key' := by
  unfold get remove
  by_cases heq : key' = key
  · subst heq
    simp only [List.getElem?_set, if_true]
    split <;> rfl
  · simp [heq, Ne.symm heq]

@[simp]
theorem get_push (s : Slots α) (value : α) (key' : Nat) :
    (s.push value).1.get key' = if key' = (s.push value).2 then some value else s.get key' := by
  unfold get push
  rcases Nat.lt_trichotomy key' s.slots.length with h | h | h
  · simp [List.getElem?_append_left h, Nat.ne_of_lt h]
  · simp [h]
  · rw [List.getElem?_append_right (Nat.le_of_lt h), if_neg (Nat.ne_of_gt h),
      List.getElem?_eq_none (by simp; omega), List.getElem?_eq_none (Nat.le_of_lt h)]

@[simp]
theorem get_insert (s : Slots α) (key : Nat) (value : α) (key' : Nat) :
    (s.insert key value).get key' = if key' = key then some value else s.get key' := by
  have hroom : (s.slots ++ List.replicate (key + 1 - s.slots.length) none)[key']?.join =
      s.get key' := by
    unfold get
    rcases Nat.lt_or_ge key' s.slots.length with hlt | hge
    · rw [List.getElem?_append_left hlt]
    · rw [List.getElem?_append_right hge, List.getElem?_eq_none hge, List.getElem?_replicate]
      split <;> rfl
  rw [← hroom]
  unfold get insert
  by_cases heq : key' = key
  · subst heq
    have hlt : key' < (s.slots ++ List.replicate (key' + 1 - s.slots.length) none).length := by
      rw [List.length_append, List.length_replicate]
      omega
    rw [List.getElem?_set_self hlt, if_pos rfl]
    rfl
  · simp [heq, Ne.symm heq]

/-- A new key was not in use. -/
@[simp]
theorem get_push_key (s : Slots α) (value : α) : s.get (s.push value).2 = none := by
  simp [get, push]

theorem contains_iff {s : Slots α} {key : Nat} :
    s.contains key = true ↔ ∃ value, s.get key = some value :=
  Option.isSome_iff_exists

/-! ### Counting -/

/-- The number of values that satisfy `p`. -/
def countP (s : Slots α) (p : α → Bool) : Nat := s.slots.countP (Option.any p)

theorem countP_le_length (s : Slots α) (p : α → Bool) : s.countP p ≤ s.length := by
  rw [countP, length, ← List.countP_eq_length_filter]
  refine List.countP_mono_left fun slot _ h => ?_
  cases slot with
  | none => cases h
  | some value => rfl

theorem length_eq_countP (s : Slots α) : s.length = s.countP fun _ => true := by
  rw [countP, length, ← List.countP_eq_length_filter]
  refine List.countP_congr fun slot _ => ?_
  cases slot <;> simp

theorem countP_push (s : Slots α) (value : α) (p : α → Bool) :
    (s.push value).1.countP p = s.countP p + if p value then 1 else 0 := by
  simp [countP, push, List.countP_append, List.countP_singleton]

theorem getElem_of_get {s : Slots α} {key : Nat} {value : α} (h : s.get key = some value) :
    ∃ hlt : key < s.slots.length, s.slots[key] = some value := by
  have hlt := lt_of_get h
  refine ⟨hlt, ?_⟩
  simpa [get, hlt] using h

/-- A value that satisfies `p` is counted. -/
theorem countP_pos {s : Slots α} {key : Nat} {value : α} (h : s.get key = some value)
    {p : α → Bool} (hp : p value = true) : 0 < s.countP p := by
  obtain ⟨hlt, helem⟩ := getElem_of_get h
  rw [countP, List.countP_pos_iff]
  exact ⟨some value, helem ▸ List.getElem_mem hlt, hp⟩

theorem countP_set {s : Slots α} {key : Nat} {old : α} (h : s.get key = some old) (value : α)
    (p : α → Bool) :
    (s.set key value).countP p + (if p old then 1 else 0) =
      s.countP p + if p value then 1 else 0 := by
  obtain ⟨hlt, helem⟩ := getElem_of_get h
  have hpos : p old = true → 0 < s.countP p := countP_pos h
  simp only [countP, set, List.countP_set hlt, helem, Option.any_some] at hpos ⊢
  grind

theorem countP_remove {s : Slots α} {key : Nat} {old : α} (h : s.get key = some old)
    (p : α → Bool) :
    (s.remove key).countP p + (if p old then 1 else 0) = s.countP p := by
  obtain ⟨hlt, helem⟩ := getElem_of_get h
  have hpos : p old = true → 0 < s.countP p := countP_pos h
  simp only [countP, remove, List.countP_set hlt, helem, Option.any_some, Option.any_none] at hpos ⊢
  grind

theorem length_push (s : Slots α) (value : α) : (s.push value).1.length = s.length + 1 := by
  rw [length_eq_countP, length_eq_countP, countP_push, if_pos rfl]

theorem length_set {s : Slots α} {key : Nat} {old : α} (h : s.get key = some old) (value : α) :
    (s.set key value).length = s.length := by
  have hcount := countP_set h value fun _ => true
  rw [← length_eq_countP, ← length_eq_countP] at hcount
  exact Nat.add_right_cancel hcount

theorem length_remove {s : Slots α} {key : Nat} {old : α} (h : s.get key = some old) :
    (s.remove key).length + 1 = s.length := by
  have hcount := countP_remove h fun _ => true
  rw [← length_eq_countP, ← length_eq_countP] at hcount
  exact hcount

/-! ### Collecting -/

/-- What `f` makes of the values. -/
def collect {β : Type} (s : Slots α) (f : α → Option β) : List β :=
  s.slots.filterMap (Option.bind · f)

/-- Changes every value. -/
def map {β : Type} (s : Slots α) (f : α → β) : Slots β := ⟨s.slots.map (Option.map f)⟩

section

variable {β : Type} {s : Slots α} {key : Nat} {old : α}

@[simp]
theorem collect_empty (f : α → Option β) : (empty : Slots α).collect f = [] := rfl

theorem collect_push (s : Slots α) (value : α) (f : α → Option β) :
    (s.push value).1.collect f = s.collect f ++ (f value).toList := by
  cases h : f value <;> simp [collect, push, h]

/-- The slots before a value and those after it. -/
theorem split_of_get (h : s.get key = some old) :
    ∃ xs ys, s.slots = xs ++ some old :: ys ∧
      (∀ value, (s.set key value).slots = xs ++ some value :: ys) ∧
      (s.remove key).slots = xs ++ none :: ys := by
  obtain ⟨hlt, helem⟩ := getElem_of_get h
  refine ⟨s.slots.take key, s.slots.drop (key + 1), ?_, fun value => ?_, ?_⟩
  · rw [← helem, List.getElem_cons_drop, List.take_append_drop]
  · exact List.set_eq_take_append_cons_drop.trans (if_pos hlt)
  · exact List.set_eq_take_append_cons_drop.trans (if_pos hlt)

theorem filterMap_split (f : α → Option β) (xs ys : List (Option α)) (x : Option α) :
    (xs ++ x :: ys).filterMap (Option.bind · f) =
      xs.filterMap (Option.bind · f) ++ ((x.bind f).toList ++ ys.filterMap (Option.bind · f)) := by
  cases hx : x.bind f <;> simp [hx]

/-- One value is exchanged: its contribution is, up to the order. -/
theorem collect_set (h : s.get key = some old) (value : α) (f : α → Option β) :
    ((f old).toList ++ (s.set key value).collect f).Perm ((f value).toList ++ s.collect f) := by
  obtain ⟨xs, ys, hold, hnew, -⟩ := split_of_get h
  rw [collect, collect, hnew, hold, filterMap_split, filterMap_split]
  exact (List.perm_append_comm_assoc ..).trans
    (((List.perm_append_comm_assoc ..).append_left _).trans (List.perm_append_comm_assoc ..))

theorem collect_remove (h : s.get key = some old) (f : α → Option β) :
    ((f old).toList ++ (s.remove key).collect f).Perm (s.collect f) := by
  obtain ⟨xs, ys, hold, -, hnew⟩ := split_of_get h
  rw [collect, collect, hnew, hold, filterMap_split, filterMap_split]
  exact List.perm_append_comm_assoc ..

@[simp]
theorem get_map (s : Slots α) (f : α → β) (key : Nat) : (s.map f).get key = (s.get key).map f := by
  simp only [get, map, List.getElem?_map]
  cases s.slots[key]? <;> rfl

theorem collect_map {γ : Type} (s : Slots α) (g : α → β) (f : β → Option γ) :
    (s.map g).collect f = s.collect (f ∘ g) := by
  simp only [collect, map, List.filterMap_map]
  congr 1
  funext slot
  cases slot <;> rfl

end

end Slots

end Aquic.Collections

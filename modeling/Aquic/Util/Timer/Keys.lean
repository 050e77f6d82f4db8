import Aquic.Util.Timer.Generic
import Aquic.Util.Timer.Steps

/-!
# Keys of scheduled events

A key is a position: a level, a bucket, an element, and the epoch in which the bucket comes up. The
ring reuses buckets, so the same bucket and element stand for a new event in each epoch. A timer is
a map from keys to events (`lookup`), and each call is described by what it does to this map:
`schedule` adds one key, a tick removes the keys of the buckets it detaches, `cancel` overwrites the
event of its key.

This holds as long as the epochs of the keys do not wrap: as no level passes epoch `2 ^ 64 - 2`
(`EpochsFit`).
-/

namespace Aquic.Timer

open Aquic.Word

variable {α β : Type*}

theorem getD_modify {γ : Type*} (buckets : List (List γ)) (f : List γ → List γ) (i j : Nat) :
    (buckets.modify i f).getD j [] =
      if i = j ∧ j < buckets.length then f (buckets.getD j []) else buckets.getD j [] := by
  simp only [List.getD_eq_getElem?_getD, List.getElem?_modify]
  by_cases hj : j < buckets.length
  · by_cases hij : i = j <;> simp [hij, hj]
  · simp [hj]

theorem getElem?_concat {γ : Type*} (xs : List γ) (x : γ) (j : Nat) :
    (xs ++ [x])[j]? = if j = xs.length then some x else xs[j]? := by
  rcases Nat.lt_trichotomy j xs.length with hlt | rfl | hgt
  · rw [List.getElem?_append_left hlt, if_neg hlt.ne]
  · simp
  · rw [if_neg hgt.ne', List.getElem?_eq_none hgt.le, List.getElem?_eq_none]
    rw [List.length_append]
    exact hgt

/-- One summand changes. -/
theorem sum_map_modify {γ : Type*} {f : γ → Nat} (g : γ → γ) {xs : List γ} {i : Nat}
    (h : i < xs.length) :
    ((xs.modify i g).map f).sum + f xs[i] = (xs.map f).sum + f (g xs[i]) := by
  induction xs generalizing i with
  | nil => cases h
  | cons x xs ih =>
    cases i with
    | zero =>
      simp only [List.modify_zero_cons, List.map_cons, List.sum_cons, List.getElem_cons_zero]
      omega
    | succ i =>
      have hsum := ih (Nat.lt_of_succ_lt_succ h)
      simp only [List.modify_succ_cons, List.map_cons, List.sum_cons, List.getElem_cons_succ]
      omega

theorem sum_map_set {γ : Type*} {f : γ → Nat} (x : γ) {xs : List γ} {i : Nat} (h : i < xs.length) :
    ((xs.set i x).map f).sum + f xs[i] = (xs.map f).sum + f x := by
  have hset : xs.modify i (fun _ => x) = xs.set i x := by
    refine List.ext_getElem? fun j => ?_
    by_cases hij : i = j
    · subst hij
      simp [h]
    · simp [hij]
  rw [← hset]
  exact sum_map_modify (fun _ => x) h

/-- At most one summand is positive, and it is one. -/
theorem sum_map_le_one {γ : Type*} {f : γ → Nat} {xs : List γ} (hle : ∀ x ∈ xs, f x ≤ 1)
    (huniq : ∀ (i j : Nat) x y, xs[i]? = some x → xs[j]? = some y → 0 < f x → 0 < f y → i = j) :
    (xs.map f).sum ≤ 1 := by
  induction xs with
  | nil => exact Nat.zero_le _
  | cons x xs ih =>
    rw [List.map_cons, List.sum_cons]
    have hfirst := hle x List.mem_cons_self
    rcases Nat.eq_zero_or_pos (f x) with hzero | hpos
    · have hrest := ih (fun y hy => hle y (List.mem_cons_of_mem x hy)) fun i j y z hy hz hpy hpz =>
        Nat.succ.inj (huniq (i + 1) (j + 1) y z hy hz hpy hpz)
      omega
    · have hrest : (xs.map f).sum = 0 := by
        rw [List.sum_eq_zero_iff_forall_eq_nat]
        intro n hn
        obtain ⟨y, hy, rfl⟩ := List.mem_map.mp hn
        obtain ⟨i, hi⟩ := List.mem_iff_getElem?.mp hy
        by_contra hne
        cases huniq 0 (i + 1) x y rfl hi hpos (Nat.pos_of_ne_zero hne)
      omega

theorem countP_le_one {γ : Type*} {p : γ → Bool} {xs : List γ}
    (huniq : ∀ (i j : Nat) x y, xs[i]? = some x → xs[j]? = some y → p x = true → p y = true →
      i = j) :
    xs.countP p ≤ 1 := by
  have hcount : xs.countP p = (xs.map fun x => if p x then 1 else 0).sum := by
    induction xs with
    | nil => rfl
    | cons x xs ih =>
      rw [List.countP_cons, List.map_cons, List.sum_cons, Nat.add_comm, ih]
      exact fun i j y z hy hz hpy hpz => Nat.succ.inj (huniq (i + 1) (j + 1) y z hy hz hpy hpz)
  rw [hcount]
  refine sum_map_le_one (fun x _ => by split <;> omega) fun i j x y hx hy hpx hpy => ?_
  exact huniq i j x y hx hy (by by_contra h; simp [h] at hpx) (by by_contra h; simp [h] at hpy)

namespace Level

/-- The epoch in which bucket `i` comes up. -/
def epochOf (l : Level α) (i : Nat) : Nat := l.epoch + if i < l.index then 1 else 0

/-- The event that a key stands for, unless its bucket is gone. -/
def lookup (l : Level α) (key : LevelKey) : Option α :=
  if key.epoch = l.epochOf key.bucketIndex then
    (l.buckets.getD key.bucketIndex [])[key.elementIndex]?
  else
    none

/-- The next epoch is one too: the level is in epoch `2 ^ 64 - 2` at most. -/
def EpochFits (l : Level α) : Prop := l.epoch + 1 < 2 ^ usizeBits

/-- Every element has a key. -/
theorem lookup_element (l : Level α) (i j : Nat) :
    l.lookup ⟨i, j, l.epochOf i⟩ = (l.buckets.getD i [])[j]? :=
  if_pos rfl

theorem mem_bucket_of_lookup {l : Level α} {key : LevelKey} {x : α} (h : l.lookup key = some x) :
    ∃ bucket ∈ l.buckets, x ∈ bucket := by
  unfold lookup at h
  split at h
  · have hx := List.mem_of_getElem? h
    rw [List.getD_eq_getElem?_getD] at hx
    cases hbucket : l.buckets[key.bucketIndex]? with
    | none =>
      rw [hbucket] at hx
      cases hx
    | some bucket =>
      rw [hbucket] at hx
      exact ⟨bucket, List.mem_of_getElem? hbucket, hx⟩
  · cases h

theorem lookup_new {n : Nat} {l : Level α} (h : new n = some l) (key : LevelKey) :
    l.lookup key = none := by
  obtain ⟨-, rfl⟩ := new_eq_some h
  have hbucket : (List.replicate n ([] : List α)).getD key.bucketIndex [] = [] := by
    rw [List.getD_eq_getElem?_getD, List.getElem?_replicate]
    split <;> rfl
  unfold lookup
  split
  · show ((List.replicate n ([] : List α)).getD key.bucketIndex [])[key.elementIndex]? = none
    rw [hbucket]
    rfl
  · rfl

theorem lookup_map (f : α → β) (l : Level α) (key : LevelKey) :
    (l.map f).lookup key = (l.lookup key).map f := by
  unfold lookup
  rw [getD_map, List.getElem?_map]
  show (if key.epoch = l.epochOf key.bucketIndex then _ else _) = _
  split <;> rfl

/-- A function that changes no event changes nothing. -/
theorem map_eq_self {f : α → α} {l : Level α} (h : ∀ key x, l.lookup key = some x → f x = x) :
    l.map f = l := by
  have hbuckets : l.buckets.map (·.map f) = l.buckets := by
    refine (List.map_congr_left fun bucket hbucket => ?_).trans (List.map_id _)
    refine (List.map_congr_left fun x hx => ?_).trans (List.map_id bucket)
    obtain ⟨i, hi⟩ := List.mem_iff_getElem?.mp hbucket
    obtain ⟨j, hj⟩ := List.mem_iff_getElem?.mp hx
    refine h ⟨i, j, l.epochOf i⟩ x ?_
    rw [lookup_element, List.getD_eq_getElem?_getD, hi]
    exact hj
  unfold map
  rw [hbuckets]

/-! ### `schedule` -/

theorem schedule_key {l : Level α} (h : l.Wf) (hepoch : l.EpochFits) (event : α) (k : Nat) :
    (l.schedule event k).2 =
      { bucketIndex := (l.index + k) % l.buckets.length
        elementIndex := (l.buckets.getD ((l.index + k) % l.buckets.length) []).length
        epoch := l.epochOf ((l.index + k) % l.buckets.length) } := by
  have hfits : l.epoch + 1 < 2 ^ usizeBits := hepoch
  have hepoch (i : Nat) :
      wrappingAdd usizeBits l.epoch (if i < l.index then 1 else 0) = l.epochOf i := by
    apply wrappingAdd_of_lt
    split <;> omega
  simp only [schedule, masked_index h, hepoch]

/-- The key of a new event was not in use. -/
theorem lookup_schedule_key {l : Level α} (h : l.Wf) (hepoch : l.EpochFits) (event : α) (k : Nat) :
    l.lookup (l.schedule event k).2 = none := by
  rw [schedule_key h hepoch, lookup_element]
  exact List.getElem?_eq_none (Nat.le_refl _)

theorem lookup_schedule {l : Level α} (h : l.Wf) (hepoch : l.EpochFits) (event : α) (k : Nat)
    (key : LevelKey) :
    (l.schedule event k).1.lookup key =
      if key = (l.schedule event k).2 then some event else l.lookup key := by
  obtain ⟨bucketIndex, elementIndex, epoch⟩ := key
  have hlt : (l.index + k) % l.buckets.length < l.buckets.length := Nat.mod_lt _ h.length_pos
  have hbuckets : (l.schedule event k).1.buckets =
      l.buckets.modify ((l.index + k) % l.buckets.length) (· ++ [event]) := by
    rw [← masked_index h]
    rfl
  have hlookup : (l.schedule event k).1.lookup ⟨bucketIndex, elementIndex, epoch⟩ =
      if epoch = l.epochOf bucketIndex then
        ((l.schedule event k).1.buckets.getD bucketIndex [])[elementIndex]?
      else none := rfl
  rw [hlookup, hbuckets, getD_modify, schedule_key h hepoch]
  simp only [lookup, LevelKey.mk.injEq]
  generalize (l.index + k) % l.buckets.length = i at hlt
  by_cases hbucket : i = bucketIndex
  · subst hbucket
    by_cases hvalid : epoch = l.epochOf i
    · rw [if_pos hvalid, if_pos hvalid, if_pos ⟨rfl, hlt⟩, getElem?_concat]
      simp [hvalid]
    · simp [hvalid]
  · simp [hbucket, Ne.symm hbucket]

/-! ### `tick` -/

theorem epochOf_tick {l : Level α} (h : l.Wf) (hepoch : l.EpochFits) {i : Nat}
    (hi : i < l.buckets.length) :
    l.tick.1.epochOf i = l.epochOf i + if i = l.index then 1 else 0 := by
  have hindex := h.index_lt
  have hfits : l.epoch + 1 < 2 ^ usizeBits := hepoch
  simp only [tick, epochOf, masked_index h]
  rcases Nat.lt_or_ge (l.index + 1) l.buckets.length with hlt | hge
  · rw [Nat.mod_eq_of_lt hlt, if_neg (Nat.succ_ne_zero _), wrappingAdd_of_lt (by omega)]
    grind
  · have hlast : l.index + 1 = l.buckets.length := by omega
    rw [hlast, Nat.mod_self, if_pos rfl, wrappingAdd_of_lt (by omega)]
    grind

theorem lookup_tick {l : Level α} (h : l.Wf) (hepoch : l.EpochFits) (key : LevelKey) :
    l.tick.1.lookup key = if key.bucketIndex = l.index then none else l.lookup key := by
  have hbuckets : l.tick.1.buckets = l.buckets.set l.index [] := rfl
  unfold lookup
  rw [hbuckets, List.getD_eq_getElem?_getD, List.getElem?_set]
  by_cases hcurrent : key.bucketIndex = l.index
  · rw [if_pos hcurrent, if_pos hcurrent.symm, if_pos h.index_lt]
    split <;> rfl
  · rw [if_neg hcurrent, if_neg (Ne.symm hcurrent), ← List.getD_eq_getElem?_getD]
    rcases Nat.lt_or_ge key.bucketIndex l.buckets.length with hlt | hge
    · rw [epochOf_tick h hepoch hlt, if_neg hcurrent, Nat.add_zero]
    · rw [List.getD_eq_getElem?_getD, List.getElem?_eq_none hge]
      split <;> split <;> rfl

/-! ### `cancel` -/

/-- The test of `cancel`, for a key that is not from the future. -/
theorem cancel_eq [Inhabited α] {l : Level α} {key : LevelKey}
    (hkey : key.epoch ≤ l.epochOf key.bucketIndex) :
    l.cancel key = if key.epoch = l.epochOf key.bucketIndex then
      { l with buckets := l.buckets.modify key.bucketIndex (·.set key.elementIndex default) }
      else l := by
  unfold cancel
  unfold epochOf at hkey ⊢
  grind

theorem lookup_cancel [Inhabited α] {l : Level α} {key : LevelKey}
    (hkey : key.epoch ≤ l.epochOf key.bucketIndex) (key' : LevelKey) :
    (l.cancel key).lookup key' =
      if key' = key then (l.lookup key).map fun _ => default else l.lookup key' := by
  obtain ⟨bucketIndex, elementIndex, epoch⟩ := key
  obtain ⟨bucketIndex', elementIndex', epoch'⟩ := key'
  rw [cancel_eq hkey]
  by_cases hvalid : epoch = l.epochOf bucketIndex
  · rw [if_pos hvalid]
    have hlookup : lookup { l with
          buckets := l.buckets.modify bucketIndex (·.set elementIndex default) }
        ⟨bucketIndex', elementIndex', epoch'⟩ =
      if epoch' = l.epochOf bucketIndex' then
        ((l.buckets.modify bucketIndex (·.set elementIndex default)).getD bucketIndex' [])[
          elementIndex']?
      else none := rfl
    rw [hlookup, getD_modify]
    simp only [lookup, LevelKey.mk.injEq]
    by_cases hbucket : bucketIndex = bucketIndex'
    · subst hbucket
      by_cases hvalid' : epoch' = l.epochOf bucketIndex
      · by_cases hlt : bucketIndex < l.buckets.length
        · rw [if_pos hvalid', if_pos hvalid', if_pos hvalid, if_pos ⟨rfl, hlt⟩,
            List.getElem?_set', hvalid, hvalid']
          by_cases helement : elementIndex = elementIndex'
          · subst helement
            rw [if_pos rfl, if_pos ⟨rfl, rfl, rfl⟩]
            rfl
          · rw [if_neg helement, if_neg fun hkey => helement hkey.2.1.symm]
        · simp [hvalid, hvalid', hlt]
      · simp [hvalid, hvalid']
    · simp [hbucket, Ne.symm hbucket]
  · rw [if_neg hvalid]
    split
    · next heq =>
      rw [heq]
      simp [lookup, hvalid]
    · rfl

/-! ### Counting -/

/-- The number of scheduled events that satisfy `p`. -/
def countP (p : α → Bool) (l : Level α) : Nat := (l.buckets.map (List.countP p)).sum

theorem countP_new {n : Nat} {l : Level α} (h : new n = some l) (p : α → Bool) :
    l.countP p = 0 := by
  obtain ⟨-, rfl⟩ := new_eq_some h
  simp [countP]

theorem countP_schedule {l : Level α} (h : l.Wf) (event : α) (k : Nat) (p : α → Bool) :
    (l.schedule event k).1.countP p = l.countP p + if p event then 1 else 0 := by
  have hlt : (l.index + k) % l.buckets.length < l.buckets.length := Nat.mod_lt _ h.length_pos
  have hsum := sum_map_modify (f := List.countP p) (· ++ [event]) hlt
  rw [List.countP_append, List.countP_singleton] at hsum
  simp only [countP, schedule, masked_index h]
  omega

/-- A tick hands out what it takes away. -/
theorem countP_tick {l : Level α} (h : l.Wf) (p : α → Bool) :
    l.tick.1.countP p + l.tick.2.countP p = l.countP p := by
  have hlt := h.index_lt
  have hsum := sum_map_set (f := List.countP p) [] hlt
  rw [List.countP_nil] at hsum
  have helements : l.tick.2 = l.buckets[l.index] := by
    simp [tick, hlt]
  rw [helements]
  show ((l.buckets.set l.index []).map (List.countP p)).sum + _ = _
  unfold countP
  omega

/-- What is counted has a key. -/
theorem countP_pos_iff {l : Level α} {p : α → Bool} :
    0 < l.countP p ↔ ∃ key x, l.lookup key = some x ∧ p x = true := by
  unfold countP
  rw [List.sum_pos_iff_exists_pos_nat]
  constructor
  · intro h
    obtain ⟨_, hmem, hpos⟩ := h
    obtain ⟨bucket, hbucket, rfl⟩ := List.mem_map.mp hmem
    obtain ⟨x, hx, hp⟩ := List.countP_pos_iff.mp hpos
    obtain ⟨i, hi⟩ := List.mem_iff_getElem?.mp hbucket
    obtain ⟨j, hj⟩ := List.mem_iff_getElem?.mp hx
    refine ⟨⟨i, j, l.epochOf i⟩, x, ?_, hp⟩
    rw [lookup_element, List.getD_eq_getElem?_getD, hi]
    exact hj
  · rintro ⟨key, x, hx, hp⟩
    obtain ⟨bucket, hbucket, hmem⟩ := mem_bucket_of_lookup hx
    exact ⟨_, List.mem_map.mpr ⟨bucket, hbucket, rfl⟩, List.countP_pos_iff.mpr ⟨x, hmem, hp⟩⟩

theorem countP_le_one {l : Level α} {p : α → Bool}
    (huniq : ∀ key key' x y, l.lookup key = some x → l.lookup key' = some y →
      p x = true → p y = true → key = key') : l.countP p ≤ 1 := by
  have hlookup {i j : Nat} {bucket : List α} {x : α} (hbucket : l.buckets[i]? = some bucket)
      (hx : bucket[j]? = some x) : l.lookup ⟨i, j, l.epochOf i⟩ = some x := by
    rw [lookup_element, List.getD_eq_getElem?_getD, hbucket]
    exact hx
  refine sum_map_le_one ?_ ?_
  · intro bucket hbucket
    obtain ⟨i, hi⟩ := List.mem_iff_getElem?.mp hbucket
    refine Timer.countP_le_one fun j k x y hx hy hpx hpy => ?_
    exact congrArg LevelKey.elementIndex (huniq _ _ x y (hlookup hi hx) (hlookup hi hy) hpx hpy)
  · intro i j bucket bucket' hi hj hpos hpos'
    obtain ⟨x, hx, hpx⟩ := List.countP_pos_iff.mp hpos
    obtain ⟨y, hy, hpy⟩ := List.countP_pos_iff.mp hpos'
    obtain ⟨k, hk⟩ := List.mem_iff_getElem?.mp hx
    obtain ⟨m, hm⟩ := List.mem_iff_getElem?.mp hy
    exact congrArg LevelKey.bucketIndex (huniq _ _ x y (hlookup hi hk) (hlookup hj hm) hpx hpy)

/-! ### Keys in circulation -/

/-- What holds of a key that `schedule` returned: its bucket exists, and either it is gone or the
key still stands for an element. -/
def Issued (l : Level α) (key : LevelKey) : Prop :=
  key.bucketIndex < l.buckets.length ∧
    (key.epoch < l.epochOf key.bucketIndex ∨ (l.lookup key).isSome)

theorem epoch_of_lookup {l : Level α} {key : LevelKey} {x : α} (h : l.lookup key = some x) :
    key.epoch = l.epochOf key.bucketIndex := by
  by_contra hne
  simp [lookup, hne] at h

theorem bucketIndex_lt_of_lookup {l : Level α} {key : LevelKey} {x : α}
    (h : l.lookup key = some x) : key.bucketIndex < l.buckets.length := by
  by_contra hge
  simp [lookup, hge] at h

theorem Issued.epoch_le {l : Level α} {key : LevelKey} (h : l.Issued key) :
    key.epoch ≤ l.epochOf key.bucketIndex := by
  rcases h.2 with hlt | hsome
  · exact hlt.le
  · obtain ⟨x, hx⟩ := Option.isSome_iff_exists.mp hsome
    exact (epoch_of_lookup hx).le

theorem issued_schedule_key {l : Level α} (h : l.Wf) (hepoch : l.EpochFits) (event : α) (k : Nat) :
    ¬ l.Issued (l.schedule event k).2 ∧ (l.schedule event k).1.Issued (l.schedule event k).2 := by
  constructor
  · rintro ⟨-, hlt | hsome⟩
    · rw [schedule_key h hepoch] at hlt
      exact Nat.lt_irrefl _ hlt
    · rw [lookup_schedule_key h hepoch] at hsome
      cases hsome
  · refine ⟨?_, Or.inr ?_⟩
    · rw [schedule_length, schedule_key h hepoch]
      exact Nat.mod_lt _ h.length_pos
    · rw [lookup_schedule h hepoch, if_pos rfl]
      rfl

theorem Issued.schedule {l : Level α} {key : LevelKey} (hkey : l.Issued key) (h : l.Wf)
    (hepoch : l.EpochFits) (event : α) (k : Nat) : (l.schedule event k).1.Issued key := by
  refine ⟨by rw [schedule_length]; exact hkey.1, hkey.2.imp id fun hsome => ?_⟩
  rw [lookup_schedule h hepoch]
  split
  · rfl
  · exact hsome

theorem Issued.tick {l : Level α} {key : LevelKey} (hkey : l.Issued key) (h : l.Wf)
    (hepoch : l.EpochFits) : l.tick.1.Issued key := by
  refine ⟨by rw [tick_length]; exact hkey.1, ?_⟩
  rw [epochOf_tick h hepoch hkey.1, lookup_tick h hepoch]
  split
  · exact Or.inl (Nat.lt_succ_of_le hkey.epoch_le)
  · exact hkey.2

theorem Issued.cancel [Inhabited α] {l : Level α} {key key' : LevelKey} (hkey : l.Issued key)
    (hkey' : l.Issued key') : (l.cancel key').Issued key := by
  have hepochs : (l.cancel key').epochOf key.bucketIndex = l.epochOf key.bucketIndex := by
    rw [cancel_eq hkey'.epoch_le]
    split <;> rfl
  refine ⟨by rw [cancel_length]; exact hkey.1, ?_⟩
  rw [hepochs, lookup_cancel hkey'.epoch_le]
  refine hkey.2.imp id fun hsome => ?_
  split
  · next heq =>
    rw [← heq, Option.isSome_map]
    exact hsome
  · exact hsome

/-- Cancelling a key is rewriting every event by a function that singles out the key. -/
theorem cancel_eq_map [Inhabited α] {l : Level α} {key : LevelKey} (hkey : l.Issued key) {f : α → α}
    (hf : ∀ key' x, l.lookup key' = some x → f x = if key' = key then default else x) :
    l.cancel key = l.map f := by
  have hlookup (i j : Nat) : ((l.cancel key).buckets.getD i [])[j]? =
      ((l.map f).buckets.getD i [])[j]? := by
    have hepochs : (l.cancel key).epochOf i = l.epochOf i := by
      rw [cancel_eq hkey.epoch_le]
      split <;> rfl
    rw [← lookup_element, ← lookup_element, hepochs, lookup_cancel hkey.epoch_le,
      show (l.map f).epochOf i = l.epochOf i from rfl, lookup_map]
    cases hx : l.lookup ⟨i, j, l.epochOf i⟩ with
    | none =>
      split
      · next heq =>
        rw [← heq, hx]
        rfl
      · rfl
    | some x =>
      rw [Option.map_some, hf _ x hx]
      split
      · next heq =>
        rw [← heq, hx]
        rfl
      · rfl
  have hlength : (l.cancel key).buckets.length = (l.map f).buckets.length := by
    rw [cancel_length]
    exact (List.length_map ..).symm
  have hbuckets : (l.cancel key).buckets = (l.map f).buckets := by
    refine List.ext_getElem hlength fun i hi hi' => List.ext_getElem? fun j => ?_
    simpa [hi, hi'] using hlookup i j
  have hrest : (l.cancel key).index = l.index ∧ (l.cancel key).epoch = l.epoch := by
    rw [cancel_eq hkey.epoch_le]
    split <;> exact ⟨rfl, rfl⟩
  calc l.cancel key = ⟨(l.cancel key).buckets, (l.cancel key).index, (l.cancel key).epoch⟩ := rfl
    _ = l.map f := by rw [hbuckets, hrest.1, hrest.2]; rfl

end Level

namespace WheelTimer

/-! ## Keys of the whole timer -/

/-- The event that a key stands for, unless its bucket is gone. -/
def lookup (t : WheelTimer α) (key : TimerKey) : Option α :=
  t.levels[key.levelIndex]?.bind (·.lookup key.levelKey)

/-- Every level is in epoch `2 ^ 64 - 2` at most. -/
def EpochsFit (t : WheelTimer α) : Prop := ∀ l ∈ t.levels, l.EpochFits

instance (t : WheelTimer α) : Decidable t.EpochsFit :=
  inferInstanceAs (Decidable (∀ l ∈ t.levels, l.epoch + 1 < 2 ^ usizeBits))

/-- What holds of every key that `schedule` returned. -/
def Issued (t : WheelTimer α) (key : TimerKey) : Prop :=
  ∃ l, t.levels[key.levelIndex]? = some l ∧ l.Issued key.levelKey

/-- The number of scheduled events that satisfy `p`. -/
def countP (p : α → Bool) (t : WheelTimer α) : Nat := (t.levels.map (Level.countP p)).sum

theorem lookup_eq_some {t : WheelTimer α} {key : TimerKey} {x : α} :
    t.lookup key = some x ↔
      ∃ l, t.levels[key.levelIndex]? = some l ∧ l.lookup key.levelKey = some x :=
  Option.bind_eq_some_iff

theorem lookup_map (f : α → β) (t : WheelTimer α) (key : TimerKey) :
    (t.map f).lookup key = (t.lookup key).map f := by
  show ((t.levels.map (·.map f))[key.levelIndex]?).bind _ = _
  rw [List.getElem?_map, lookup]
  cases t.levels[key.levelIndex]? with
  | none => rfl
  | some l => exact Level.lookup_map f l key.levelKey

/-- New levels hold nothing. -/
theorem lookup_new {t : WheelTimer α} {count : Nat}
    (h : ∀ l ∈ t.levels, Level.new count = some l) (key : TimerKey) : t.lookup key = none := by
  unfold lookup
  cases hl : t.levels[key.levelIndex]? with
  | none => rfl
  | some l => exact Level.lookup_new (h l (List.mem_of_getElem? hl)) _

/-- A function that changes no event changes nothing. -/
theorem map_eq_self {f : α → α} {t : WheelTimer α} (h : ∀ key x, t.lookup key = some x → f x = x) :
    t.map f = t := by
  have hlevels : t.levels.map (·.map f) = t.levels := by
    refine (List.map_congr_left fun l hl => ?_).trans (List.map_id _)
    refine Level.map_eq_self fun key x hx => ?_
    obtain ⟨i, hi⟩ := List.mem_iff_getElem?.mp hl
    exact h ⟨key, i⟩ x (lookup_eq_some.mpr ⟨l, hi, hx⟩)
  unfold map
  rw [hlevels]

theorem countP_map (f : α → β) (t : WheelTimer α) (p : β → Bool) :
    (t.map f).countP p = t.countP (p ∘ f) := by
  simp only [countP, map, List.map_map]
  refine congrArg List.sum (List.map_congr_left fun l _ => ?_)
  simp only [Function.comp, Level.countP, Level.map, List.map_map]
  exact congrArg List.sum (List.map_congr_left fun _ _ => List.countP_map)

/-- What is counted has a key. -/
theorem countP_pos_iff {t : WheelTimer α} {p : α → Bool} :
    0 < t.countP p ↔ ∃ key x, t.lookup key = some x ∧ p x = true := by
  unfold countP
  rw [List.sum_pos_iff_exists_pos_nat]
  constructor
  · intro h
    obtain ⟨_, hmem, hpos⟩ := h
    obtain ⟨l, hl, rfl⟩ := List.mem_map.mp hmem
    obtain ⟨key, x, hx, hp⟩ := Level.countP_pos_iff.mp hpos
    obtain ⟨i, hi⟩ := List.mem_iff_getElem?.mp hl
    exact ⟨⟨key, i⟩, x, lookup_eq_some.mpr ⟨l, hi, hx⟩, hp⟩
  · rintro ⟨key, x, hx, hp⟩
    obtain ⟨l, hl, hx⟩ := lookup_eq_some.mp hx
    exact ⟨_, List.mem_map.mpr ⟨l, List.mem_of_getElem? hl, rfl⟩,
      Level.countP_pos_iff.mpr ⟨_, x, hx, hp⟩⟩

/-- What has one key is counted once. -/
theorem countP_le_one {t : WheelTimer α} {p : α → Bool}
    (huniq : ∀ key key' x y, t.lookup key = some x → t.lookup key' = some y →
      p x = true → p y = true → key = key') : t.countP p ≤ 1 := by
  have hlookup {i : Nat} {l : Level α} {key : LevelKey} {x : α} (hl : t.levels[i]? = some l)
      (hx : l.lookup key = some x) : t.lookup ⟨key, i⟩ = some x :=
    lookup_eq_some.mpr ⟨l, hl, hx⟩
  refine sum_map_le_one ?_ ?_
  · intro l hl
    obtain ⟨i, hi⟩ := List.mem_iff_getElem?.mp hl
    refine Level.countP_le_one fun key key' x y hx hy hpx hpy => ?_
    exact congrArg TimerKey.levelKey (huniq _ _ x y (hlookup hi hx) (hlookup hi hy) hpx hpy)
  · intro i j l l' hi hj hpos hpos'
    obtain ⟨key, x, hx, hpx⟩ := Level.countP_pos_iff.mp hpos
    obtain ⟨key', y, hy, hpy⟩ := Level.countP_pos_iff.mp hpos'
    exact congrArg TimerKey.levelIndex (huniq _ _ x y (hlookup hi hx) (hlookup hj hy) hpx hpy)

/-! ### `schedule` -/

/-- What `schedule` does to the keys: one that was not in use stands for the event. -/
structure Adds (t t' : WheelTimer α) (key : TimerKey) (event : α) : Prop where
  fresh : ¬ t.Issued key
  issued : t'.Issued key
  keeps : ∀ key', t.Issued key' → t'.Issued key'
  lookup : ∀ key', t'.lookup key' = if key' = key then some event else t.lookup key'
  countP : ∀ p, t'.countP p = t.countP p + if p event then 1 else 0

/-- The levels in which `schedule` looks for its own: the old ones, and new ones behind them. -/
theorem ensured_levels {t t₁ : WheelTimer α} {i : Nat}
    (h : (t.levels.length ≤ i ∧ t.extendLevels (i + 1) = some t₁) ∨
      (i < t.levels.length ∧ t₁ = t)) :
    ∃ added, t₁.levels = t.levels ++ added ∧
      ∀ l ∈ added, Level.new (bucketsCount t.startHz.nanos t.startCoverage.nanos) = some l := by
  rcases h with ⟨-, h⟩ | ⟨-, rfl⟩
  · obtain ⟨added, rfl, -, hadded⟩ := extendLevels_eq_some h
    exact ⟨added, rfl, hadded⟩
  · exact ⟨[], (List.append_nil _).symm, by simp⟩

section Extension

variable {t t₁ : WheelTimer α} {added : List (Level α)} {count : Nat}

/-- Levels that are added behind the others change nothing. -/
theorem lookup_append (hlevels : t₁.levels = t.levels ++ added)
    (hadded : ∀ l ∈ added, Level.new count = some l) (key : TimerKey) :
    t₁.lookup key = t.lookup key := by
  unfold lookup
  rw [hlevels]
  rcases Nat.lt_or_ge key.levelIndex t.levels.length with hlt | hge
  · rw [List.getElem?_append_left hlt]
  · rw [List.getElem?_append_right hge, List.getElem?_eq_none hge]
    cases hl : added[key.levelIndex - t.levels.length]? with
    | none => rfl
    | some l => exact Level.lookup_new (hadded l (List.mem_of_getElem? hl)) _

theorem countP_append (hlevels : t₁.levels = t.levels ++ added)
    (hadded : ∀ l ∈ added, Level.new count = some l) (p : α → Bool) :
    t₁.countP p = t.countP p := by
  have hzero : (added.map (Level.countP p)).sum = 0 := by
    rw [List.sum_eq_zero_iff_forall_eq_nat]
    intro n hn
    obtain ⟨l, hl, rfl⟩ := List.mem_map.mp hn
    exact Level.countP_new (hadded l hl) p
  unfold countP
  rw [hlevels, List.map_append, List.sum_append, hzero, Nat.add_zero]

theorem epochsFit_append (h : t.EpochsFit) (hlevels : t₁.levels = t.levels ++ added)
    (hadded : ∀ l ∈ added, Level.new count = some l) : t₁.EpochsFit := by
  intro l hl
  rw [hlevels] at hl
  rcases List.mem_append.mp hl with hl | hl
  · exact h l hl
  · obtain ⟨-, rfl⟩ := Level.new_eq_some (hadded l hl)
    show 0 + 1 < 2 ^ usizeBits
    decide

theorem Issued.append {key : TimerKey} (h : t.Issued key)
    (hlevels : t₁.levels = t.levels ++ added) : t₁.Issued key := by
  obtain ⟨l, hl, hkey⟩ := h
  refine ⟨l, ?_, hkey⟩
  rw [hlevels, List.getElem?_append_left (List.getElem?_eq_some_iff.mp hl).1]
  exact hl

end Extension

/-- One level schedules the event, the others stay as they are. -/
theorem set_adds {t : WheelTimer α} (hs : t.Shape) (hfit : t.EpochsFit) {i : Nat} {l : Level α}
    (hl : t.levels[i]? = some l) (event : α) (k : Nat) :
    Adds t { t with levels := t.levels.set i (l.schedule event k).1 }
      ⟨(l.schedule event k).2, i⟩ event := by
  obtain ⟨hi, hget⟩ := List.getElem?_eq_some_iff.mp hl
  have hmem : l ∈ t.levels := List.mem_of_getElem? hl
  have hwf := hs.level_wf l hmem
  have hepoch := hfit l hmem
  obtain ⟨hfresh, hissued⟩ := Level.issued_schedule_key hwf hepoch event k
  have hset : (t.levels.set i (l.schedule event k).1)[i]? = some (l.schedule event k).1 :=
    List.getElem?_set_self hi
  refine ⟨?_, ⟨_, hset, hissued⟩, ?_, ?_, ?_⟩
  · rintro ⟨l', hl', hkey⟩
    obtain rfl : l = l' := Option.some.inj (hl.symm.trans hl')
    exact hfresh hkey
  · rintro key' ⟨l', hl', hkey⟩
    by_cases hlevel : i = key'.levelIndex
    · subst hlevel
      obtain rfl : l = l' := Option.some.inj (hl.symm.trans hl')
      exact ⟨_, hset, hkey.schedule hwf hepoch event k⟩
    · exact ⟨l', (List.getElem?_set_ne hlevel).trans hl', hkey⟩
  · rintro ⟨levelKey, j⟩
    show ((t.levels.set i (l.schedule event k).1)[j]?).bind (·.lookup levelKey) = _
    by_cases hlevel : i = j
    · subst hlevel
      rw [hset, Option.bind_some, Level.lookup_schedule hwf hepoch]
      simp [lookup, hl]
    · rw [List.getElem?_set_ne hlevel, if_neg (by simp [Ne.symm hlevel])]
      rfl
  · intro p
    have hsum := sum_map_set (f := Level.countP p) (l.schedule event k).1 hi
    rw [hget, Level.countP_schedule hwf] at hsum
    show ((t.levels.set i (l.schedule event k).1).map (Level.countP p)).sum = _
    unfold countP
    omega

/-- **`schedule` adds one key.** -/
theorem schedule_adds {t t' : WheelTimer α} (hs : t.Shape) (hfit : t.EpochsFit) {event : α}
    {due now : Instant} {key : TimerKey} (h : t.schedule event due now = some (t', key)) :
    Adds t t' key event := by
  obtain ⟨t₁, l, hext, hl, rfl, rfl⟩ := schedule_eq_some h
  obtain ⟨added, hlevels, hadded⟩ := ensured_levels hext
  have hs₁ : t₁.Shape := by
    rcases hext with ⟨-, hext⟩ | ⟨-, rfl⟩
    · exact extendLevels_shape hs hext
    · exact hs
  have hadds := set_adds hs₁ (epochsFit_append hfit hlevels hadded) hl event
    (durationToLevelTicks t.startHz.nanos (due.saturatingDurationSince now).nanos
      (findIndexByDuration t.startCoverage.nanos (due.saturatingDurationSince now).nanos))
  refine ⟨fun hissued => hadds.fresh (hissued.append hlevels), hadds.issued,
    fun key' hissued => hadds.keeps key' (hissued.append hlevels), fun key' => ?_, fun p => ?_⟩
  · rw [hadds.lookup, lookup_append hlevels hadded]
  · rw [hadds.countP, countP_append hlevels hadded]

/-! ### `progress` -/

/-- What detaching buckets does to the keys: some of them stand for nothing any more, and their
events are in the buckets. -/
structure Detaches (t t' : WheelTimer α) (out : List (List α)) : Prop where
  keeps : ∀ key, t.Issued key → t'.Issued key
  lookup : ∀ key x, t'.lookup key = some x → t.lookup key = some x
  countP : ∀ p, t'.countP p + out.flatten.countP p = t.countP p

theorem Detaches.refl (t : WheelTimer α) : Detaches t t [] :=
  ⟨fun _ h => h, fun _ _ h => h, fun _ => rfl⟩

theorem Detaches.trans {t t₁ t' : WheelTimer α} {out out' : List (List α)}
    (h : Detaches t t₁ out) (h' : Detaches t₁ t' out') : Detaches t t' (out ++ out') := by
  refine ⟨fun key hkey => h'.keeps key (h.keeps key hkey),
    fun key x hx => h.lookup key x (h'.lookup key x hx), fun p => ?_⟩
  have hcount := h.countP p
  have hcount' := h'.countP p
  rw [List.flatten_append, List.countP_append]
  omega

/-- Whatever is in the buckets was scheduled. -/
theorem Detaches.mem_out {t t' : WheelTimer α} {out : List (List α)} (h : Detaches t t' out)
    {bucket : List α} (hbucket : bucket ∈ out) {x : α} (hx : x ∈ bucket) :
    ∃ key, t.lookup key = some x := by
  classical
  have hpos : 0 < out.flatten.countP (· = x) :=
    List.countP_pos_iff.mpr ⟨x, List.mem_flatten.mpr ⟨bucket, hbucket, hx⟩, by simp⟩
  have hcount := h.countP (· = x)
  obtain ⟨key, y, hlookup, hy⟩ := countP_pos_iff.mp (show 0 < t.countP (· = x) by omega)
  exact ⟨key, of_decide_eq_true hy ▸ hlookup⟩

theorem countP_tickLevels (n : Nat) {levels : List (Level α)} (hwf : ∀ l ∈ levels, l.Wf)
    (p : α → Bool) :
    ((tickLevels n levels).1.map (Level.countP p)).sum + (tickLevels n levels).2.flatten.countP p =
      (levels.map (Level.countP p)).sum := by
  induction levels generalizing n with
  | nil => cases n <;> rfl
  | cons level levels ih =>
    cases n with
    | zero => rfl
    | succ n =>
      have htick := Level.countP_tick (hwf level List.mem_cons_self) p
      have hrest := ih n fun l hl => hwf l (List.mem_cons_of_mem _ hl)
      simp only [tickLevels, List.map_cons, List.sum_cons, List.flatten_cons, List.countP_append]
      omega

/-- **A tick detaches whole buckets.** -/
theorem advance_detaches {t : WheelTimer α} (hs : t.Shape) (hfit : t.EpochsFit) :
    Detaches t t.advance t.tick.2 := by
  refine ⟨?_, ?_, fun p => countP_tickLevels _ hs.level_wf p⟩
  · rintro key ⟨l, hl, hkey⟩
    have hmem := List.mem_of_getElem? hl
    unfold Issued
    rw [advance_getElem?, hl]
    split
    · exact ⟨_, rfl, hkey.tick (hs.level_wf l hmem) (hfit l hmem)⟩
    · exact ⟨l, rfl, hkey⟩
  · intro key x hx
    obtain ⟨l', hl', hx⟩ := lookup_eq_some.mp hx
    rw [advance_getElem?] at hl'
    split at hl'
    · obtain ⟨l, hl, rfl⟩ := Option.map_eq_some_iff.mp hl'
      have hmem := List.mem_of_getElem? hl
      rw [Level.lookup_tick (hs.level_wf l hmem) (hfit l hmem)] at hx
      split at hx
      · cases hx
      · exact lookup_eq_some.mpr ⟨l, hl, hx⟩
    · exact lookup_eq_some.mpr ⟨l', hl', hx⟩

/-- No level passes epoch `2 ^ 64 - 2` in the loop of `progress`. -/
def EpochsFitDuring : Nat → WheelTimer α → Nat → Prop
  | 0, _, _ => True
  | fuel + 1, t, now =>
    if t.currentClock ≤ now then t.EpochsFit ∧ EpochsFitDuring fuel t.advance now else True

instance decidableEpochsFitDuring :
    (fuel : Nat) → (t : WheelTimer α) → (now : Nat) → Decidable (EpochsFitDuring fuel t now)
  | 0, _, _ => .isTrue trivial
  | fuel + 1, t, now =>
    have := decidableEpochsFitDuring fuel t.advance now
    inferInstanceAs (Decidable (if t.currentClock ≤ now then
      t.EpochsFit ∧ EpochsFitDuring fuel t.advance now else True))

theorem progressLoop_detaches (fuel : Nat) {t : WheelTimer α} {now : Nat} (hs : t.Shape)
    (hfit : EpochsFitDuring fuel t now) :
    (progressLoop fuel t now).1.Shape ∧
      Detaches t (progressLoop fuel t now).1 (progressLoop fuel t now).2 := by
  induction fuel generalizing t with
  | zero => exact ⟨hs, .refl t⟩
  | succ fuel ih =>
    unfold EpochsFitDuring at hfit
    unfold progressLoop
    split
    · next hclock =>
      obtain ⟨hnow, hlater⟩ := (if_pos hclock ▸ hfit :)
      obtain ⟨hs', hrest⟩ := ih (advance_shape hs) hlater
      exact ⟨hs', (advance_detaches hs hnow).trans hrest⟩
    · exact ⟨hs, .refl t⟩

/-! ### `cancel` -/

theorem lookup_cancel [Inhabited α] {t : WheelTimer α} {key : TimerKey} (hkey : t.Issued key)
    (key' : TimerKey) :
    (t.cancel key).lookup key' =
      if key' = key then (t.lookup key).map fun _ => default else t.lookup key' := by
  obtain ⟨levelKey, i⟩ := key
  obtain ⟨levelKey', j⟩ := key'
  obtain ⟨l, hl, hissued⟩ := hkey
  have hi : i < t.levels.length := (List.getElem?_eq_some_iff.mp hl).1
  unfold cancel
  rw [if_pos hi]
  show ((t.levels.modify i (·.cancel levelKey))[j]?).bind (·.lookup levelKey') = _
  rw [List.getElem?_modify]
  by_cases hlevel : i = j
  · subst hlevel
    simp [lookup, hl, Level.lookup_cancel hissued.epoch_le]
  · rw [if_neg (by simp [Ne.symm hlevel])]
    simp [lookup, hlevel]

theorem Issued.cancel [Inhabited α] {t : WheelTimer α} {key key' : TimerKey} (hkey : t.Issued key)
    (hkey' : t.Issued key') : (t.cancel key').Issued key := by
  obtain ⟨l, hl, hissued⟩ := hkey
  obtain ⟨l', hl', hissued'⟩ := hkey'
  unfold WheelTimer.cancel
  rw [if_pos (List.getElem?_eq_some_iff.mp hl').1]
  unfold Issued
  rw [List.getElem?_modify, hl]
  by_cases hlevel : key'.levelIndex = key.levelIndex
  · rw [hlevel, hl] at hl'
    obtain rfl := Option.some.inj hl'
    exact ⟨_, by simp [hlevel], hissued.cancel hissued'⟩
  · exact ⟨l, by simp [hlevel], hissued⟩

/-- Cancelling a key is rewriting every event by a function that singles out the key. -/
theorem cancel_eq_map [Inhabited α] {t : WheelTimer α} {key : TimerKey} (hkey : t.Issued key)
    {f : α → α}
    (hf : ∀ key' x, t.lookup key' = some x → f x = if key' = key then default else x) :
    t.cancel key = t.map f := by
  obtain ⟨l, hl, hissued⟩ := hkey
  have hlevels :
      t.levels.modify key.levelIndex (·.cancel key.levelKey) = t.levels.map (·.map f) := by
    refine List.ext_getElem? fun i => ?_
    rw [List.getElem?_modify, List.getElem?_map]
    cases hi : t.levels[i]? with
    | none => rfl
    | some l' =>
      by_cases hlevel : key.levelIndex = i
      · subst hlevel
        obtain rfl : l = l' := Option.some.inj (hl.symm.trans hi)
        have hcancel : l.cancel key.levelKey = l.map f := by
          refine Level.cancel_eq_map hissued fun key' x hx => ?_
          rw [hf ⟨key', key.levelIndex⟩ x (lookup_eq_some.mpr ⟨l, hl, hx⟩)]
          exact if_congr (by cases key; simp) rfl rfl
        simp [hcancel]
      · have hother : l'.map f = l' := by
          refine Level.map_eq_self fun key' x hx => ?_
          rw [hf ⟨key', i⟩ x (lookup_eq_some.mpr ⟨l', hi, hx⟩), if_neg]
          intro heq
          exact hlevel (heq ▸ rfl)
        simp [hlevel, hother]
  unfold cancel
  rw [if_pos (List.getElem?_eq_some_iff.mp hl).1, hlevels]
  rfl

end WheelTimer

end Aquic.Timer

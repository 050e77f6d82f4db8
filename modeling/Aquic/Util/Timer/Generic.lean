import Aquic.Util.Timer.Wheel

/-!
# The timer never looks at its events

Replacing every event of a timer by its image under a function commutes with every call. So a run
over events that carry extra information — a stamp, an identity — is, up to forgetting that
information, the run over the plain events.
-/

namespace Aquic.Timer

open Aquic.Word

variable {α β : Type*}

theorem map_modify_comm {γ δ : Type*} {f : γ → δ} {g : γ → γ} {g' : δ → δ}
    (h : ∀ x, f (g x) = g' (f x)) (l : List γ) (i : Nat) :
    (l.map f).modify i g' = (l.modify i g).map f := by
  refine List.ext_getElem? fun j => ?_
  simp only [List.getElem?_modify, List.getElem?_map]
  cases l[j]? with
  | none => rfl
  | some x => by_cases hij : i = j <;> simp [hij, h]

namespace Level

/-- A level with every event replaced by its image. -/
def map (f : α → β) (l : Level α) : Level β :=
  { buckets := l.buckets.map (·.map f), index := l.index, epoch := l.epoch }

theorem getD_map (f : α → β) (l : Level α) (i : Nat) :
    (l.map f).buckets.getD i [] = (l.buckets.getD i []).map f := by
  simp only [map, List.getD_eq_getElem?_getD, List.getElem?_map]
  cases l.buckets[i]? <;> rfl

theorem mask_map (f : α → β) (l : Level α) : (l.map f).mask = l.mask := by
  simp [map, mask]

theorem schedule_map (f : α → β) (l : Level α) (event : α) (k : Nat) :
    (l.map f).schedule (f event) k = ((l.schedule event k).1.map f, (l.schedule event k).2) := by
  simp only [schedule, mask_map, getD_map, List.length_map]
  refine Prod.ext ?_ rfl
  simp only [map, Level.mk.injEq, and_true]
  exact map_modify_comm (by simp) ..

theorem tick_map (f : α → β) (l : Level α) :
    (l.map f).tick = (l.tick.1.map f, l.tick.2.map f) := by
  simp only [tick, mask_map, getD_map]
  refine Prod.ext ?_ rfl
  simp only [map, List.map_set, List.map_nil]
  rfl

theorem cancel_map [Inhabited α] [Inhabited β] {f : α → β} (hf : f default = default)
    (l : Level α) (key : LevelKey) : (l.map f).cancel key = (l.cancel key).map f := by
  unfold cancel
  by_cases hold : key.epoch < l.epoch
  · rw [if_pos hold, if_pos (show key.epoch < (l.map f).epoch from hold)]
  · rw [if_neg hold, if_neg (show ¬ key.epoch < (l.map f).epoch from hold)]
    by_cases hgone : key.epoch = l.epoch ∧ key.bucketIndex < l.index
    · rw [if_pos hgone,
        if_pos (show key.epoch = (l.map f).epoch ∧ key.bucketIndex < (l.map f).index from hgone)]
    · rw [if_neg hgone,
        if_neg (show ¬ (key.epoch = (l.map f).epoch ∧ key.bucketIndex < (l.map f).index) from hgone)]
      simp only [map, Level.mk.injEq, and_true]
      exact map_modify_comm (by simp [hf]) ..

end Level

namespace WheelTimer

/-- A timer with every event replaced by its image. -/
def map (f : α → β) (t : WheelTimer α) : WheelTimer β :=
  { levels := t.levels.map (·.map f), currentTick := t.currentTick, currentClock := t.currentClock
    startHz := t.startHz, startCoverage := t.startCoverage }

theorem extendLevels_map (f : α → β) (t : WheelTimer α) (n : Nat) :
    (t.map f).extendLevels n = (t.extendLevels n).map (·.map f) := by
  unfold extendLevels
  simp only [map, List.length_map]
  split
  · rfl
  · unfold Level.new
    split <;> simp [Level.map]

theorem ensureLevel_map (f : α → β) (t : WheelTimer α) (i : Nat) :
    (t.map f).ensureLevel i = (t.ensureLevel i).map (·.map f) := by
  unfold ensureLevel
  rw [extendLevels_map]
  simp only [map, List.length_map]
  split <;> rfl

theorem schedule_map (f : α → β) (t : WheelTimer α) (event : α) (due now : Instant) :
    (t.map f).schedule (f event) due now
      = (t.schedule event due now).map fun r => (r.1.map f, r.2) := by
  simp only [schedule, ensureLevel_map, show (t.map f).startCoverage = t.startCoverage from rfl]
  generalize findIndexByDuration t.startCoverage.nanos (due.saturatingDurationSince now).nanos = i
  cases t.ensureLevel i with
  | none => rfl
  | some t₁ =>
    simp only [Option.map_some, Option.bind_eq_bind, Option.bind_some]
    rw [show (t₁.map f).levels[i]? = t₁.levels[i]?.map (·.map f) from List.getElem?_map ..]
    cases t₁.levels[i]? with
    | none => rfl
    | some l => simp [Level.schedule_map, map, List.map_set]

theorem tickLevels_map (f : α → β) (n : Nat) (levels : List (Level α)) :
    tickLevels n (levels.map (·.map f))
      = ((tickLevels n levels).1.map (·.map f), (tickLevels n levels).2.map (·.map f)) := by
  induction levels generalizing n with
  | nil => cases n <;> rfl
  | cons level levels ih =>
    cases n with
    | zero => rfl
    | succ n => simp [tickLevels, Level.tick_map, ih]

theorem progressLoop_map (f : α → β) (fuel : Nat) (t : WheelTimer α) (now : Nat) :
    progressLoop fuel (t.map f) now
      = ((progressLoop fuel t now).1.map f, (progressLoop fuel t now).2.map (·.map f)) := by
  induction fuel generalizing t with
  | zero => rfl
  | succ fuel ih =>
    have htick : (t.map f).tick = (t.tick.1.map f, t.tick.2.map (·.map f)) := by
      simp [tick, map, tickLevels_map]
    unfold progressLoop
    by_cases hclock : t.currentClock ≤ now
    · rw [if_pos hclock, if_pos (show (t.map f).currentClock ≤ now from hclock)]
      simp only [htick]
      rw [show ({ t.tick.1.map f with
          currentClock := (t.tick.1.map f).currentClock + (t.map f).startHz.nanos } : WheelTimer β)
        = WheelTimer.map f { t.tick.1 with
          currentClock := t.tick.1.currentClock + t.startHz.nanos } from rfl, ih]
      simp
    · rw [if_neg hclock, if_neg (show ¬ (t.map f).currentClock ≤ now from hclock)]
      rfl

theorem progress_map (f : α → β) (t : WheelTimer α) (now : Instant) :
    (t.map f).progress now = ((t.progress now).1.map f, (t.progress now).2.map (·.map f)) :=
  progressLoop_map f _ t now.nanos

theorem cancel_map [Inhabited α] [Inhabited β] {f : α → β} (hf : f default = default)
    (t : WheelTimer α) (key : TimerKey) : (t.map f).cancel key = (t.cancel key).map f := by
  unfold cancel
  simp only [map, List.length_map]
  split
  · simp only [WheelTimer.mk.injEq, and_true]
    exact map_modify_comm (fun l => (Level.cancel_map hf l key.levelKey).symm) ..
  · rfl

end WheelTimer

end Aquic.Timer

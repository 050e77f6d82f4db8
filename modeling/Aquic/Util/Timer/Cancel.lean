import Aquic.Lib.Run
import Aquic.Util.Timer.Keys

/-!
# Cancelling an event

A run is any sequence of `schedule`, `progress` and `cancel` calls, with the `TimerTick`s dropped at
any time. Each event carries the number of the `schedule` call it comes from, and the run records
what each of these calls returned: that is what a caller can hold on to. The timer never looks at
its events, so without the numbers it does the same (`calls_untag`).

Every event waits under its own key, and keys are never given out twice (`Tracked`). So a key
cancels its own event or, once that is gone, nothing — however late, and as often as one likes.
-/

namespace Aquic.Timer

open Aquic.Word Aquic.Run

variable {α : Type*}

/-- An event with the number of the call that scheduled it; a cancelled one is `none`. -/
abbrev Tagged (α : Type*) := Option (Nat × α)

namespace Tagged

/-- Is it the event of call `n`? -/
def hasNumber (n : Nat) (x : Tagged α) : Bool := x.any (·.1 == n)

/-- The event of call `n` becomes the default value, every other one stays. -/
def remove (n : Nat) (x : Tagged α) : Tagged α := if x.hasNumber n then none else x

/-- Forgets the number. -/
def untag [Inhabited α] (x : Tagged α) : α := x.elim default Prod.snd

@[simp]
theorem hasNumber_none (n : Nat) : hasNumber n (none : Tagged α) = false := rfl

@[simp]
theorem hasNumber_some (n m : Nat) (e : α) : hasNumber n (some (m, e)) = decide (m = n) := rfl

theorem hasNumber_eq_true {n : Nat} {x : Tagged α} :
    x.hasNumber n = true ↔ ∃ e, x = some (n, e) := by
  cases x with
  | none => simp
  | some x =>
    obtain ⟨m, e⟩ := x
    simp

/-- What is left after a removal was there before. -/
theorem eq_of_map_remove {n m : Nat} {e : α} {x : Option (Tagged α)}
    (h : x.map (remove n) = some (some (m, e))) : x = some (some (m, e)) := by
  obtain ⟨y, rfl, hremove⟩ := Option.map_eq_some_iff.mp h
  unfold remove at hremove
  split at hremove
  · cases hremove
  · rw [hremove]

/-- Removing the event of one call does not change the number of events of another. -/
theorem hasNumber_comp_remove (n m : Nat) :
    hasNumber m ∘ remove (α := α) n = fun x => decide (m ≠ n) && hasNumber m x := by
  funext x
  cases x with
  | none => simp [remove]
  | some x =>
    obtain ⟨k, e⟩ := x
    by_cases hk : k = n
    · subst hk
      by_cases hm : k = m
      · simp [remove, hm]
      · simp [remove, hm]
    · by_cases hm : k = m
      · subst hm
        simp [remove, hk]
      · simp [remove, hk, hm]

end Tagged

/-- A `schedule` call: its arguments, the key it returned, and how many calls had created levels by
then. -/
structure ScheduleCall (α : Type*) where
  event : α
  due : Instant
  now : Instant
  key : TimerKey
  extensions : Nat
  deriving DecidableEq

/-- A timer in use and what has happened to it. -/
structure Logged (α : Type*) where
  timer : WheelTimer (Tagged α)
  /-- The `now` it was created with. -/
  start : Instant
  /-- The last `now` it was called with. -/
  now : Instant
  /-- Every bucket pushed to `out` so far. -/
  out : List (List (Tagged α))
  /-- The `schedule` calls, in order. -/
  calls : List (ScheduleCall α)
  /-- The numbers of the calls whose key has been cancelled. -/
  cancelled : List Nat
  /-- How many `schedule` calls have created levels. -/
  extensions : Nat

/-- The calls of a run. -/
inductive Call (α : Type*) where
  | schedule (event : α) (due now : Instant)
  | progress (now : Instant)
  /-- Cancels the key that `schedule` call `n` returned. -/
  | cancel (n : Nat)
  /-- Drops a `TimerTick`. -/
  | drop (levelIndex sourceIndex : Nat) (lessCapacity : Bool)

namespace Logged

/-- One call. A panicking call ends the run. -/
def exec (s : Logged α) : Call α → Option (Logged α)
  | .schedule event due now =>
    (s.timer.schedule (some (s.calls.length, event)) due now).map fun (timer, key) =>
      let extensions :=
        s.extensions + if s.timer.levels.length < timer.levels.length then 1 else 0
      { s with timer, now, calls := s.calls ++ [{ event, due, now, key, extensions }], extensions }
  | .progress now =>
    some { s with
      timer := (s.timer.progress now).1, now, out := s.out ++ (s.timer.progress now).2 }
  | .cancel n =>
    s.calls[n]?.map fun call =>
      { s with timer := s.timer.cancel call.key, cancelled := n :: s.cancelled }
  | .drop levelIndex sourceIndex lessCapacity =>
    some { s with timer := s.timer.giveBack levelIndex sourceIndex lessCapacity }

/-- A timer right after `WheelTimer::new`. -/
def new (hz coverage : Duration) (now : Instant) : Option (Logged α) :=
  (WheelTimer.new hz coverage now).map fun timer =>
    { timer, start := now, now, out := [], calls := [], cancelled := [], extensions := 0 }

/-- The initial states: `extend_levels` divides by `start_hz`, so that is not zero. -/
def Init (s : Logged α) : Prop :=
  ∃ hz coverage now, 0 < hz.nanos ∧ new hz coverage now = some s

/-- The condition on a call: no level passes epoch `2 ^ 64 - 2`. -/
def EpochsFit (s : Logged α) : Call α → Prop
  | .schedule .. => s.timer.EpochsFit
  | .progress now =>
    WheelTimer.EpochsFitDuring (now.nanos + 1 - s.timer.currentClock) s.timer now.nanos
  | .cancel _ => True
  | .drop .. => True

instance : DecidableRel (EpochsFit (α := α))
  | s, .schedule .. => inferInstanceAs (Decidable s.timer.EpochsFit)
  | s, .progress now => inferInstanceAs (Decidable (WheelTimer.EpochsFitDuring _ s.timer now.nanos))
  | _, .cancel _ => .isTrue trivial
  | _, .drop .. => .isTrue trivial

/-- How often the event of call `n` is in the timer. -/
def waiting (s : Logged α) (n : Nat) : Nat := s.timer.countP (Tagged.hasNumber n)

/-- How often the event of call `n` has been pushed to `out`. -/
def delivered (s : Logged α) (n : Nat) : Nat := s.out.flatten.countP (Tagged.hasNumber n)

/-! ## The invariant -/

/-- Every event is where its key says, and nowhere else. -/
structure Tracked (s : Logged α) : Prop where
  shape : s.timer.Shape
  issued : ∀ call ∈ s.calls, s.timer.Issued call.key
  keys_nodup : (s.calls.map (·.key)).Nodup
  found : ∀ key n e, s.timer.lookup key = some (some (n, e)) →
    ∃ call, s.calls[n]? = some call ∧ call.key = key ∧ call.event = e
  pushed : ∀ bucket ∈ s.out, ∀ n e, some (n, e) ∈ bucket →
    ∃ call, s.calls[n]? = some call ∧ call.event = e
  once : ∀ n, s.waiting n + s.delivered n ≤ 1
  kept : ∀ n < s.calls.length, n ∉ s.cancelled → s.waiting n + s.delivered n = 1

variable {s s' : Logged α}

theorem tracked_init (h : Init s) : Tracked s := by
  obtain ⟨hz, coverage, now, hhz, h⟩ := h
  obtain ⟨timer, hnew, rfl⟩ := Option.map_eq_some_iff.mp h
  obtain ⟨hshape, -, -, hadded⟩ := WheelTimer.new_shape hhz hnew
  have hempty (key : TimerKey) : timer.lookup key = none := WheelTimer.lookup_new hadded key
  have hcount (n : Nat) : timer.countP (Tagged.hasNumber n) = 0 := by
    by_contra hne
    obtain ⟨key, x, hx, -⟩ := WheelTimer.countP_pos_iff.mp (Nat.pos_of_ne_zero hne)
    rw [hempty] at hx
    cases hx
  refine ⟨hshape, by simp, by simp, ?_, by simp, ?_, by simp⟩
  · intro key n e hlookup
    rw [hempty] at hlookup
    cases hlookup
  · intro n
    simp [waiting, delivered, hcount]

namespace Tracked

/-- A number that no call has is nowhere. -/
theorem count_eq_zero (h : Tracked s) {n : Nat} (hn : s.calls.length ≤ n) :
    s.waiting n = 0 ∧ s.delivered n = 0 := by
  have hnone : s.calls[n]? = none := List.getElem?_eq_none hn
  constructor
  · by_contra hne
    obtain ⟨key, x, hx, hnumber⟩ := WheelTimer.countP_pos_iff.mp (Nat.pos_of_ne_zero hne)
    obtain ⟨e, rfl⟩ := Tagged.hasNumber_eq_true.mp hnumber
    obtain ⟨call, hcall, -⟩ := h.found key n e hx
    rw [hnone] at hcall
    cases hcall
  · by_contra hne
    obtain ⟨x, hx, hnumber⟩ := List.countP_pos_iff.mp (Nat.pos_of_ne_zero hne)
    obtain ⟨e, rfl⟩ := Tagged.hasNumber_eq_true.mp hnumber
    obtain ⟨bucket, hbucket, hx⟩ := List.mem_flatten.mp hx
    obtain ⟨call, hcall, -⟩ := h.pushed bucket hbucket n e hx
    rw [hnone] at hcall
    cases hcall

/-- Two calls with the same key are one call. -/
theorem key_inj (h : Tracked s) {n m : Nat} {call call' : ScheduleCall α}
    (hcall : s.calls[n]? = some call) (hcall' : s.calls[m]? = some call')
    (hkey : call.key = call'.key) : n = m := by
  refine (List.getElem?_inj ?_ h.keys_nodup).mp ?_
  · rw [List.length_map]
    exact (List.getElem?_eq_some_iff.mp hcall).1
  · rw [List.getElem?_map, List.getElem?_map, hcall, hcall', Option.map_some, hkey]
    rfl

/-- **A key cancels its own event and no other.** -/
theorem cancel_eq_remove (h : Tracked s) {n : Nat} {call : ScheduleCall α}
    (hcall : s.calls[n]? = some call) :
    s.timer.cancel call.key = s.timer.map (Tagged.remove n) := by
  refine WheelTimer.cancel_eq_map (h.issued call (List.mem_of_getElem? hcall)) fun key x hx => ?_
  cases x with
  | none => simp [Tagged.remove, default]
  | some x =>
    obtain ⟨m, e⟩ := x
    obtain ⟨call', hcall', rfl, -⟩ := h.found key m e hx
    by_cases hkey : call'.key = call.key
    · obtain rfl := h.key_inj hcall' hcall hkey
      simp [Tagged.remove, hkey, default]
    · have hne : m ≠ n := by
        rintro rfl
        exact hkey (Option.some.inj (hcall'.symm.trans hcall) ▸ rfl)
      simp [Tagged.remove, hkey, hne]

/-! ### One call -/

theorem schedule (h : Tracked s) {event : α} {due now : Instant}
    (hfit : s.timer.EpochsFit) (hexec : s.exec (.schedule event due now) = some s') :
    Tracked s' := by
  obtain ⟨⟨timer, key⟩, hsched, rfl⟩ := Option.map_eq_some_iff.mp hexec
  have hadds := WheelTimer.schedule_adds h.shape hfit hsched
  obtain ⟨hnowhere, hundelivered⟩ := h.count_eq_zero (Nat.le_refl s.calls.length)
  have hwaiting (n : Nat) : timer.countP (Tagged.hasNumber n) =
      s.waiting n + if n = s.calls.length then 1 else 0 := by
    rw [hadds.countP]
    simp [waiting, eq_comm]
  have hearlier {n : Nat} {call : ScheduleCall α} (hcall : s.calls[n]? = some call)
      (last : ScheduleCall α) : (s.calls ++ [last])[n]? = some call := by
    rw [List.getElem?_append_left (List.getElem?_eq_some_iff.mp hcall).1]
    exact hcall
  refine ⟨WheelTimer.schedule_shape h.shape hsched, ?_, ?_, ?_, ?_, ?_, ?_⟩
  · intro call hcall
    rcases List.mem_append.mp hcall with hcall | hcall
    · exact hadds.keeps _ (h.issued call hcall)
    · obtain rfl := List.mem_singleton.mp hcall
      exact hadds.issued
  · rw [List.map_append, List.map_singleton, List.nodup_append]
    refine ⟨h.keys_nodup, by simp, ?_⟩
    intro k hk _ hk' heq
    obtain ⟨call, hcall, rfl⟩ := List.mem_map.mp hk
    obtain rfl := List.mem_singleton.mp hk'
    exact hadds.fresh (heq ▸ h.issued call hcall)
  · intro key' n e hlookup
    rw [hadds.lookup] at hlookup
    split at hlookup
    · next heq =>
      obtain ⟨rfl, rfl⟩ : s.calls.length = n ∧ event = e := by simpa using hlookup
      exact ⟨_, List.getElem?_concat_length .., heq.symm, rfl⟩
    · obtain ⟨call, hcall, hkey⟩ := h.found key' n e hlookup
      exact ⟨call, hearlier hcall _, hkey⟩
  · intro bucket hbucket n e hx
    obtain ⟨call, hcall, hevent⟩ := h.pushed bucket hbucket n e hx
    exact ⟨call, hearlier hcall _, hevent⟩
  · intro n
    show timer.countP _ + s.delivered n ≤ 1
    have honce := h.once n
    rw [hwaiting]
    split
    · next hn =>
      subst hn
      omega
    · omega
  · intro n hn hcancelled
    show timer.countP _ + s.delivered n = 1
    rw [hwaiting]
    split
    · next hn =>
      subst hn
      omega
    · next hne =>
      have hlt : n < s.calls.length := by
        have : n < s.calls.length + 1 := by simpa using hn
        omega
      exact h.kept n hlt hcancelled

/-- What `progress` pushes to `out` is what it takes out of the timer. -/
theorem progress (h : Tracked s) {now : Instant} (hfit : EpochsFit s (.progress now))
    (hexec : s.exec (.progress now) = some s') : Tracked s' := by
  obtain rfl := Option.some.inj hexec
  obtain ⟨hshape, hdetaches⟩ := WheelTimer.progressLoop_detaches _ h.shape hfit
  have hsum (n : Nat) : (s.timer.progress now).1.countP (Tagged.hasNumber n) +
      (s.out ++ (s.timer.progress now).2).flatten.countP (Tagged.hasNumber n) =
        s.waiting n + s.delivered n := by
    have hcount := hdetaches.countP (Tagged.hasNumber n)
    rw [List.flatten_append, List.countP_append]
    simp only [waiting, delivered, WheelTimer.progress]
    omega
  refine ⟨hshape, fun call hcall => hdetaches.keeps _ (h.issued call hcall), h.keys_nodup,
    fun key n e hx => h.found key n e (hdetaches.lookup key _ hx), ?_, ?_, ?_⟩
  · intro bucket hbucket n e hx
    rcases List.mem_append.mp hbucket with hbucket | hbucket
    · exact h.pushed bucket hbucket n e hx
    · obtain ⟨key, hkey⟩ := hdetaches.mem_out hbucket hx
      obtain ⟨call, hcall, -, hevent⟩ := h.found key n e hkey
      exact ⟨call, hcall, hevent⟩
  · intro n
    exact (hsum n).le.trans (h.once n)
  · intro n hn hcancelled
    exact (hsum n).trans (h.kept n hn hcancelled)

theorem cancel (h : Tracked s) {n : Nat} (hexec : s.exec (.cancel n) = some s') : Tracked s' := by
  obtain ⟨call, hcall, rfl⟩ := Option.map_eq_some_iff.mp hexec
  have hissued := h.issued call (List.mem_of_getElem? hcall)
  have hwaiting (m : Nat) : (s.timer.cancel call.key).countP (Tagged.hasNumber m) =
      if m = n then 0 else s.waiting m := by
    rw [h.cancel_eq_remove hcall, WheelTimer.countP_map, Tagged.hasNumber_comp_remove]
    split
    · next hm =>
      subst hm
      by_contra hne
      obtain ⟨_, _, -, hfalse⟩ := WheelTimer.countP_pos_iff.mp (Nat.pos_of_ne_zero hne)
      simp at hfalse
    · next hm =>
      simp [hm, waiting]
  refine ⟨WheelTimer.cancel_shape h.shape _, fun call' hcall' => (h.issued call' hcall').cancel
    hissued, h.keys_nodup, ?_, h.pushed, ?_, ?_⟩
  · intro key m e hlookup
    rw [h.cancel_eq_remove hcall, WheelTimer.lookup_map] at hlookup
    exact h.found key m e (Tagged.eq_of_map_remove hlookup)
  · intro m
    show (s.timer.cancel call.key).countP _ + s.delivered m ≤ 1
    have honce := h.once m
    rw [hwaiting]
    split <;> omega
  · intro m hm hcancelled
    show (s.timer.cancel call.key).countP _ + s.delivered m = 1
    obtain ⟨hne, hbefore⟩ := not_or.mp (fun hmem => hcancelled (List.mem_cons.mpr hmem))
    rw [hwaiting, if_neg hne]
    exact h.kept m hm hbefore

theorem exec (h : Tracked s) {call : Call α} (hfit : EpochsFit s call)
    (hexec : s.exec call = some s') : Tracked s' := by
  cases call with
  | schedule event due now => exact h.schedule hfit hexec
  | progress now => exact h.progress hfit hexec
  | cancel n => exact h.cancel hexec
  | drop levelIndex sourceIndex lessCapacity =>
    obtain rfl := Option.some.inj hexec
    rw [WheelTimer.giveBack_eq]
    exact h

end Tracked

theorem tracked_of_reachable (h : Reachable Init EpochsFit exec s) : Tracked s :=
  h.invariant (fun _ => tracked_init) fun _ _ _ hinv hfit hexec => hinv.exec hfit hexec

/-- **Cancelling is exact**: at any time of a run, cancelling the key that a `schedule` call
returned rewrites the event of that call and leaves every other one alone. If the event is still scheduled,
the default value takes its place; if `progress` has detached it, nothing changes at all. -/
theorem cancel_exact (h : Reachable Init EpochsFit exec s) {n : Nat} {call : ScheduleCall α}
    (hcall : s.calls[n]? = some call) :
    s.timer.cancel call.key = s.timer.map (Tagged.remove n) ∧
      (s.delivered n = 0 → n ∉ s.cancelled →
        s.waiting n = 1 ∧ s.timer.lookup call.key = some (some (n, call.event)) ∧
          (s.timer.cancel call.key).lookup call.key = some none) ∧
      (s.delivered n ≠ 0 → s.timer.cancel call.key = s.timer) := by
  have hinv := tracked_of_reachable h
  have hremove := hinv.cancel_eq_remove hcall
  refine ⟨hremove, ?_, ?_⟩
  · intro hundelivered hcancelled
    have hwaiting : s.waiting n = 1 := by
      have := hinv.kept n (List.getElem?_eq_some_iff.mp hcall).1 hcancelled
      omega
    have hpos : 0 < s.timer.countP (Tagged.hasNumber n) :=
      Nat.lt_of_lt_of_eq Nat.one_pos hwaiting.symm
    obtain ⟨key, x, hx, hnumber⟩ := WheelTimer.countP_pos_iff.mp hpos
    obtain ⟨e, rfl⟩ := Tagged.hasNumber_eq_true.mp hnumber
    obtain ⟨call', hcall', rfl, rfl⟩ := hinv.found key n e hx
    obtain rfl : call = call' := Option.some.inj (hcall.symm.trans hcall')
    refine ⟨hwaiting, hx, ?_⟩
    rw [hremove, WheelTimer.lookup_map, hx]
    simp [Tagged.remove]
  · intro hdelivered
    have hgone : s.waiting n = 0 := by
      have := hinv.once n
      omega
    rw [hremove]
    refine WheelTimer.map_eq_self fun key x hx => ?_
    have hother : ¬ x.hasNumber n = true := by
      intro hnumber
      have := WheelTimer.countP_pos_iff.mpr ⟨key, x, hx, hnumber⟩
      exact this.ne' hgone
    simp [Tagged.remove, hother]

/-- Two events in the same place of the same bucket, one revolution apart: the first one's key is
stale and cancels nothing, the second one's cancels the second. -/
theorem cancel_exact_reused_bucket :
    ∃ (s : Logged Unit) (first second : ScheduleCall Unit),
      first.key.levelKey.bucketIndex = second.key.levelKey.bucketIndex ∧
        first.key.levelKey.elementIndex = second.key.levelKey.elementIndex ∧
        s.timer.cancel first.key = s.timer ∧
        (s.timer.cancel second.key).lookup second.key = some none := by
  let now : Instant := ⟨0, by decide⟩
  let later : Instant := ⟨1, by decide⟩
  have hrun : ∃ s : Logged Unit, Reachable Init EpochsFit exec s ∧
      decide (∃ first ∈ s.calls[0]?, ∃ second ∈ s.calls[1]?,
        first.key.levelKey.bucketIndex = second.key.levelKey.bucketIndex ∧
        first.key.levelKey.elementIndex = second.key.levelKey.elementIndex ∧
        s.delivered 0 ≠ 0 ∧ s.delivered 1 = 0 ∧ s.cancelled = []) = true :=
    exists_reachable (new ⟨1, by decide⟩ ⟨2, by decide⟩ now)
      (fun s hs => ⟨_, _, now, by decide, hs⟩)
      [.schedule () now now, .progress now, .schedule () later now] (by decide +kernel)
  obtain ⟨s, hs, hstate⟩ := hrun
  obtain ⟨first, hfirst, second, hsecond, hbucket, helement, hdelivered, hwaits, hcancelled⟩ :=
    of_decide_eq_true hstate
  refine ⟨s, first, second, hbucket, helement, ?_, ?_⟩
  · exact (cancel_exact hs hfirst).2.2 hdelivered
  · exact ((cancel_exact hs hsecond).2.1 hwaits (by simp [hcancelled])).2.2

/-- A timer over plain events, driven by the same calls, is the numbered one with the numbers
forgotten, and so is everything it pushes to `out`. -/
theorem calls_untag [Inhabited α] (t : WheelTimer (Tagged α)) (n : Nat) (event : α)
    (due now : Instant) (key : TimerKey) :
    (t.map Tagged.untag).schedule event due now =
        (t.schedule (some (n, event)) due now).map (fun r => (r.1.map Tagged.untag, r.2)) ∧
      (t.map Tagged.untag).progress now =
        ((t.progress now).1.map Tagged.untag, (t.progress now).2.map (·.map Tagged.untag)) ∧
      (t.map Tagged.untag).cancel key = (t.cancel key).map Tagged.untag :=
  ⟨WheelTimer.schedule_map Tagged.untag t (some (n, event)) due now,
    WheelTimer.progress_map _ t now, WheelTimer.cancel_map (f := Tagged.untag) rfl t key⟩

end Logged

end Aquic.Timer

import Mathlib.Logic.Basic

/-!
# Runs of an executable transition system

A system is a set of initial states and a step function `exec s i`; `none` says that step `i` cannot
be taken in `s`, or ends the run. `Reachable init ok exec` is what finitely many steps reach when
every step is taken in a state, and with a label, that satisfies `ok`; with `anyStep` for `ok` it is
what all runs reach.

`Reachable.invariant` is the one induction every safety theorem uses: what holds initially and
survives each step holds in every reachable state. `exists_reachable` goes the other way and turns
the evaluation of one concrete run into a reachable state.
-/

namespace Aquic.Run

variable {σ ι : Type*}

/-- The states finitely many steps under the condition `ok` reach from an initial one. -/
inductive Reachable (init : σ → Prop) (ok : σ → ι → Prop) (exec : σ → ι → Option σ) : σ → Prop
  | init {s : σ} : init s → Reachable init ok exec s
  | step {s s' : σ} {i : ι} :
      Reachable init ok exec s → ok s i → exec s i = some s' → Reachable init ok exec s'

/-- No condition on the steps. -/
def anyStep (_ : σ) (_ : ι) : Prop := True

instance : DecidableRel (anyStep (σ := σ) (ι := ι)) := fun _ _ => .isTrue trivial

/-- **The invariant rule.** -/
theorem Reachable.invariant {init : σ → Prop} {ok : σ → ι → Prop} {exec : σ → ι → Option σ}
    {Inv : σ → Prop} (hinit : ∀ s, init s → Inv s)
    (hstep : ∀ s i s', Inv s → ok s i → exec s i = some s' → Inv s')
    {s : σ} (h : Reachable init ok exec s) : Inv s := by
  induction h with
  | init h => exact hinit _ h
  | step _ hok hexec ih => exact hstep _ _ _ ih hok hexec

/-- A run goes on with a run that starts where it ends. -/
theorem Reachable.trans {init : σ → Prop} {ok : σ → ι → Prop} {exec : σ → ι → Option σ} {s s' : σ}
    (h : Reachable init ok exec s) (h' : Reachable (· = s) ok exec s') :
    Reachable init ok exec s' := by
  induction h' with
  | init heq => rwa [heq]
  | step _ hok hexec ih => exact ih.step hok hexec

/-- Runs a list of steps, as long as each of them satisfies `ok`. -/
def runAll (ok : σ → ι → Prop) [DecidableRel ok] (exec : σ → ι → Option σ) :
    σ → List ι → Option σ
  | s, [] => some s
  | s, i :: is => if ok s i then (exec s i).bind (runAll ok exec · is) else none

theorem runAll_append (ok : σ → ι → Prop) [DecidableRel ok] (exec : σ → ι → Option σ) (s : σ)
    (is js : List ι) :
    runAll ok exec s (is ++ js) = (runAll ok exec s is).bind (runAll ok exec · js) := by
  induction is generalizing s with
  | nil => rfl
  | cons i is ih =>
    simp only [List.cons_append, runAll]
    split
    · simp only [Option.bind_assoc, ih]
    · rfl

/-- What a concrete run computes is reachable. -/
theorem Reachable.of_runAll {init : σ → Prop} {ok : σ → ι → Prop} [DecidableRel ok]
    {exec : σ → ι → Option σ} {is : List ι} {s s' : σ} (h : Reachable init ok exec s)
    (hrun : runAll ok exec s is = some s') : Reachable init ok exec s' := by
  induction is generalizing s with
  | nil => exact Option.some.inj hrun ▸ h
  | cons i is ih =>
    unfold runAll at hrun
    split at hrun
    · next hok =>
      obtain ⟨s₁, hexec, hrest⟩ := Option.bind_eq_some_iff.mp hrun
      exact ih (h.step hok hexec) hrest
    · exact absurd hrun (by simp)

/-- A concrete run that ends in a state satisfying `p`. -/
theorem exists_reachable {init : σ → Prop} {ok : σ → ι → Prop} [DecidableRel ok]
    {exec : σ → ι → Option σ} (start : Option σ) (hstart : ∀ s, start = some s → init s)
    (is : List ι) {p : σ → Bool} (h : (start.bind (runAll ok exec · is)).any p = true) :
    ∃ s, Reachable init ok exec s ∧ p s = true := by
  obtain ⟨s, hrun, hp⟩ := (Option.any_eq_true ..).mp h
  obtain ⟨s₀, hs₀, hrun⟩ := Option.bind_eq_some_iff.mp hrun
  exact ⟨s, .of_runAll (.init (hstart s₀ hs₀)) hrun, hp⟩

end Aquic.Run

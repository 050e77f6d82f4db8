import Mathlib.Data.List.Induction

/-!
# Traces

A system moves by quiet steps and by marked ones. `Path quiet marked s ms s'` says that it gets from
`s` to `s'` and that the marks on the way are `ms`.

A property of a trace looks at every mark together with the marks before it (`Throughout`). What came
before is often summed up in one bit: something was opened and has not been closed since (`since`).
-/

namespace Aquic.Trace

variable {σ μ : Type*}

/-! ## Paths -/

inductive Path (quiet : σ → σ → Prop) (marked : σ → μ → σ → Prop) : σ → List μ → σ → Prop
  | nil (s : σ) : Path quiet marked s [] s
  | quiet {s s' s'' : σ} {ms : List μ} :
      Path quiet marked s ms s' → quiet s' s'' → Path quiet marked s ms s''
  | mark {s s' s'' : σ} {ms : List μ} {m : μ} :
      Path quiet marked s ms s' → marked s' m s'' → Path quiet marked s (ms ++ [m]) s''

namespace Path

variable {quiet : σ → σ → Prop} {marked : σ → μ → σ → Prop} {s s' s'' : σ} {ms ms' : List μ}

theorem single {m : μ} (h : marked s m s') : Path quiet marked s [m] s' := .mark (.nil s) h

theorem append (h : Path quiet marked s ms s') (h' : Path quiet marked s' ms' s'') :
    Path quiet marked s (ms ++ ms') s'' := by
  induction h' with
  | nil =>
    rw [List.append_nil]
    exact h
  | quiet _ hquiet ih => exact ih.quiet hquiet
  | mark _ hmark ih =>
    rw [← List.append_assoc]
    exact ih.mark hmark

/-- **The invariant rule for paths**: the invariant may look at all the marks so far. -/
theorem invariant (Inv : σ → List μ → Prop)
    (hquiet : ∀ s s' history, quiet s s' → Inv s history → Inv s' history)
    (hmark : ∀ s m s' history, marked s m s' → Inv s history → Inv s' (history ++ [m]))
    (h : Path quiet marked s ms s') (history : List μ) (hinv : Inv s history) :
    Inv s' (history ++ ms) := by
  induction h with
  | nil =>
    rw [List.append_nil]
    exact hinv
  | quiet _ hstep ih => exact hquiet _ _ _ hstep ih
  | mark _ hstep ih =>
    rw [← List.append_assoc]
    exact hmark _ _ _ _ hstep ih

end Path

/-! ## Properties of a trace -/

/-- `P` holds of every mark and the marks before it. -/
def Throughout (P : List μ → μ → Prop) (history : List μ) : Prop :=
  ∀ before m after, history = before ++ m :: after → P before m

theorem throughout_nil (P : List μ → μ → Prop) : Throughout P [] := by
  intro before m after h
  cases before <;> cases h

theorem throughout_concat {P : List μ → μ → Prop} {history : List μ} {m : μ} :
    Throughout P (history ++ [m]) ↔ Throughout P history ∧ P history m := by
  constructor
  · intro h
    constructor
    · intro before m' after heq
      apply h before m' (after ++ [m])
      rw [heq, List.append_assoc, List.cons_append]
    · exact h history m [] rfl
  · rintro ⟨h, hm⟩ before m' after heq
    rcases List.eq_nil_or_concat after with rfl | ⟨after, last, rfl⟩
    · obtain ⟨rfl, hlast⟩ := List.append_inj' heq rfl
      cases hlast
      exact hm
    · rw [List.concat_eq_append, ← List.cons_append, ← List.append_assoc] at heq
      obtain ⟨hbefore, -⟩ := List.append_inj' heq rfl
      exact h before m' after hbefore

/-- There is an opening mark with no closing one after it. -/
def since (opens closes : μ → Bool) (history : List μ) : Bool :=
  history.foldl (fun pending m => opens m || (pending && !closes m)) false

@[simp]
theorem since_nil (opens closes : μ → Bool) : since opens closes [] = false := rfl

@[simp]
theorem since_concat (opens closes : μ → Bool) (history : List μ) (m : μ) :
    since opens closes (history ++ [m]) =
      (opens m || (since opens closes history && !closes m)) := by
  unfold since
  rw [List.foldl_append]
  rfl

/-- More marks open, and fewer close. -/
theorem since_mono {opens opens' closes closes' : μ → Bool} {history : List μ}
    (hopens : ∀ m ∈ history, opens m = true → opens' m = true)
    (hcloses : ∀ m ∈ history, closes' m = true → closes m = true)
    (h : since opens closes history = true) : since opens' closes' history = true := by
  induction history using List.reverseRecOn with
  | nil => exact h
  | append_singleton history m ih =>
    simp only [List.forall_mem_append, List.forall_mem_singleton] at hopens hcloses
    rw [since_concat, Bool.or_eq_true, Bool.and_eq_true] at h ⊢
    rcases h with hopen | ⟨hpending, hopen⟩
    · left
      exact hopens.2 hopen
    · right
      refine ⟨ih hopens.1 hcloses.1 hpending, ?_⟩
      rw [Bool.not_eq_true'] at hopen ⊢
      by_contra hclosed
      rw [hcloses.2 (eq_true_of_ne_false hclosed)] at hopen
      cases hopen

theorem any_of_since {opens closes : μ → Bool} {history : List μ}
    (h : since opens closes history = true) : history.any opens = true := by
  induction history using List.reverseRecOn with
  | nil => exact h
  | append_singleton history m ih =>
    rw [since_concat, Bool.or_eq_true, Bool.and_eq_true] at h
    rw [List.any_append, Bool.or_eq_true]
    rcases h with hopens | ⟨hpending, -⟩
    · right
      rw [List.any_cons, hopens]
      rfl
    · exact .inl (ih hpending)

end Aquic.Trace

import Mathlib.Data.List.Nodup

/-!
# Polling a queue of marked connections

A loop that serves a queue of keys. It looks at the front of the queue, after dropping keys without a
connection. A closed connection is forgotten, an open one is polled; either way the front of the
queue is popped afterwards. Polling writes through a shared output, and may say that there is nothing
more to do, that the key is to be marked again, or that the loop has to stop.

Forgetting a connection removes its key from the queue already. The pop that follows takes away the
*next* key, so that a connection right behind a closed one loses its mark without being polled.
`Poller.run_keeps_marks` says that this is the only way in which marks are lost, and exactly when it
happens: `Poller.Strands` reads it off the queue and the output before the loop.
-/

namespace Aquic.Polling

/-- What polling a connection ended with. -/
inductive Outcome where
  /-- Nothing more to do. -/
  | done
  /-- To be marked again. -/
  | reactivate
  /-- The loop has to stop. -/
  | stop
  deriving DecidableEq, Repr

/-- A queue of keys `K`, connections `C` and a shared output `I` in a state `σ`. -/
structure Poller (σ I C K : Type) where
  queue : σ → List K
  conn : σ → K → Option C
  output : σ → I
  /-- History: the keys that were polled or forgotten. -/
  handled : σ → List K
  /-- Whether the loop may go on. -/
  ready : I → Bool
  closed : C → Bool
  /-- What writing the pending data of a connection does to the output; `none` is a panic. -/
  write : I → C → Option (I × Outcome)
  pop : σ → σ
  /-- Pops keys without a connection. -/
  skip : σ → σ
  mark : σ → K → σ
  forget : σ → K → σ
  poll : σ → K → Option (σ × Outcome)
  /-- What is done after a poll with the outcome `done`, and the pop. -/
  settle : σ → K → σ

namespace Poller

variable {σ I C K : Type} (p : Poller σ I C K)

/-- The loop, for at most `n` connections. -/
def run : Nat → σ → Option σ
  | 0, s => some (p.skip s)
  | n + 1, s =>
    let s := p.skip s
    match p.queue s with
    | [] => some s
    | k :: _ =>
      match p.conn s k with
      | none => some s
      | some c =>
        if p.ready (p.output s) = false then
          some s
        else if p.closed c then
          run n (p.pop (p.forget s k))
        else
          match p.poll s k with
          | none => none
          | some (s, .done) => run n (p.settle (p.pop s) k)
          | some (s, .reactivate) => run n (p.mark (p.pop s) k)
          | some (s, .stop) => some s

/-- What each operation touches. -/
structure Lawful [DecidableEq K] : Prop where
  queue_pop s : p.queue (p.pop s) = (p.queue s).tail
  conn_pop s : p.conn (p.pop s) = p.conn s
  output_pop s : p.output (p.pop s) = p.output s
  handled_pop s : p.handled (p.pop s) = p.handled s
  skip_live s k ks : p.queue s = k :: ks → (p.conn s k).isSome → p.skip s = s
  skip_dead s k ks : p.queue s = k :: ks → p.conn s k = none → p.skip s = p.skip (p.pop s)
  skip_nil s : p.queue s = [] → p.skip s = s
  queue_mark s k : p.queue (p.mark s k) = p.queue s ∨ p.queue (p.mark s k) = p.queue s ++ [k]
  conn_mark s k : p.conn (p.mark s k) = p.conn s
  output_mark s k : p.output (p.mark s k) = p.output s
  handled_mark s k : p.handled (p.mark s k) = p.handled s
  queue_forget s k : (p.conn s k).isSome → p.queue (p.forget s k) = (p.queue s).erase k
  conn_forget s k k' : k' ≠ k → p.conn (p.forget s k) k' = p.conn s k'
  output_forget s k : p.output (p.forget s k) = p.output s
  handled_forget s k : (p.conn s k).isSome → p.handled (p.forget s k) = p.handled s ++ [k]
  queue_poll s k s' o : p.poll s k = some (s', o) → p.queue s' = p.queue s
  conn_poll s k s' o k' : p.poll s k = some (s', o) → k' ≠ k → p.conn s' k' = p.conn s k'
  output_poll s k c s' o : p.poll s k = some (s', o) → p.conn s k = some c →
    p.write (p.output s) c = some (p.output s', o)
  handled_poll s k c s' o : p.poll s k = some (s', o) → p.conn s k = some c →
    p.handled s' = p.handled s ++ [k]
  queue_settle s k : p.queue (p.settle s k) = p.queue s
  conn_settle s k k' : k' ≠ k → p.conn (p.settle s k) k' = p.conn s k'
  output_settle s k : p.output (p.settle s k) = p.output s
  handled_settle s k : p.handled (p.settle s k) = p.handled s

/-! ## The condition -/

/-- Whether the loop stops within the keys, given the output it starts with. -/
def exhausts (conn : K → Option C) : I → List K → Bool
  | _, [] => false
  | output, k :: ks =>
    match conn k with
    | none => exhausts conn output ks
    | some c =>
      if p.ready output = false then true
      else if p.closed c then exhausts conn output ks
      else
        match p.write output c with
        | none => true
        | some (_, .stop) => true
        | some (output, _) => exhausts conn output ks

/-- **A connection is stranded**: a closed connection is followed directly by another connection, and
the loop does not stop before it has reached the closed one. -/
def Strands (conn : K → Option C) (output : I) (queue : List K) : Prop :=
  ∃ before k next after, queue = before ++ k :: next :: after ∧
    (conn k).any p.closed = true ∧ (conn next).isSome ∧
    p.exhausts conn output (before ++ [k]) = false

variable {p}

theorem exhausts_congr {conn conn' : K → Option C} {ks : List K} (h : ∀ k ∈ ks, conn k = conn' k)
    (output : I) : p.exhausts conn output ks = p.exhausts conn' output ks := by
  induction ks generalizing output with
  | nil => rfl
  | cons k ks ih =>
    have ih := ih fun k' hk' => h k' (List.mem_cons_of_mem _ hk')
    simp only [exhausts, h k List.mem_cons_self, ih]

theorem Strands.congr {conn conn' : K → Option C} {output : I} {queue : List K}
    (h : ∀ k ∈ queue, conn k = conn' k) :
    p.Strands conn output queue ↔ p.Strands conn' output queue := by
  unfold Strands
  refine exists_congr fun before => exists_congr fun k => exists_congr fun next =>
    exists_congr fun after => and_congr_right fun hq => ?_
  subst hq
  have hreach : p.exhausts conn output (before ++ [k]) = p.exhausts conn' output (before ++ [k]) :=
    exhausts_congr (fun k' hk' => h k' (by simp only [List.mem_append, List.mem_cons] at hk' ⊢; tauto))
      output
  rw [h k (by simp), h next (by simp), hreach]

section

variable {conn : K → Option C} {output output' : I} {k next : K} {ks : List K} {c : C} {o : Outcome}

theorem strands_nil : ¬ p.Strands conn output [] := by
  rintro ⟨before, _, _, _, h, -⟩
  simp at h

/-- What is stranded behind the first key is stranded in the rest of the queue. -/
theorem strands_cons_iff (output' : I) (hhead : (conn k).any p.closed = true → ∀ next, ks.head? = some next →
      conn next = none)
    (hpass : ∀ before, p.exhausts conn output (k :: before) = p.exhausts conn output' before) :
    p.Strands conn output (k :: ks) ↔ p.Strands conn output' ks := by
  constructor
  · rintro ⟨before, k', next, after, hq, hclosed, hnext, hreach⟩
    cases before with
    | nil =>
      obtain ⟨rfl, rfl⟩ := List.cons.inj hq
      simp [hhead hclosed next rfl] at hnext
    | cons first before =>
      obtain ⟨rfl, rfl⟩ := List.cons.inj hq
      exact ⟨before, k', next, after, rfl, hclosed, hnext, by rwa [← hpass]⟩
  · rintro ⟨before, k', next, after, rfl, hclosed, hnext, hreach⟩
    exact ⟨k :: before, k', next, after, rfl, hclosed, hnext, by rwa [List.cons_append, hpass]⟩

theorem strands_dead (h : conn k = none) :
    p.Strands conn output (k :: ks) ↔ p.Strands conn output ks :=
  strands_cons_iff output (by simp [h]) fun before => by simp [exhausts, h]

/-- Nothing is stranded behind the place where the loop stops. -/
theorem not_strands_of_stop (h : ∀ before, p.exhausts conn output (k :: before) = true) :
    ¬ p.Strands conn output (k :: ks) := by
  rintro ⟨before, k', next, after, hq, -, -, hreach⟩
  cases before with
  | nil =>
    obtain ⟨rfl, -⟩ := List.cons.inj hq
    simp [h] at hreach
  | cons first before =>
    obtain ⟨rfl, -⟩ := List.cons.inj hq
    simp [h] at hreach

/-- Nothing is stranded unless a connection with one behind it is closed. -/
theorem not_strands_of_open {queue : List K}
    (h : ∀ k ∈ queue.dropLast, (conn k).any p.closed = false) : ¬ p.Strands conn output queue := by
  rintro ⟨before, k, next, after, rfl, hclosed, -⟩
  have hmem : k ∈ (before ++ k :: next :: after).dropLast := by
    rw [List.dropLast_append_cons, List.dropLast_cons_cons]
    simp
  rw [h k hmem] at hclosed
  cases hclosed

theorem strands_closed (hk : conn k = some c) (hready : p.ready output = true)
    (hclosed : p.closed c = true) (hnext : (conn next).isSome) :
    p.Strands conn output (k :: next :: ks) :=
  ⟨[], k, next, ks, rfl, by simp [hk, hclosed], hnext, by simp [exhausts, hk, hready, hclosed]⟩

theorem strands_closed_dead (hk : conn k = some c) (hready : p.ready output = true)
    (hclosed : p.closed c = true) (hnext : conn next = none) :
    p.Strands conn output (k :: next :: ks) ↔ p.Strands conn output ks := by
  rw [strands_cons_iff output (by simp [hnext])
    fun before => by simp [exhausts, hk, hready, hclosed], strands_dead hnext]

theorem strands_open (hk : conn k = some c) (hready : p.ready output = true)
    (hopen : p.closed c = false) (hwrite : p.write output c = some (output', o)) (ho : o ≠ .stop) :
    p.Strands conn output (k :: ks) ↔ p.Strands conn output' ks := by
  refine strands_cons_iff output' (by simp [hk, hopen]) fun before => ?_
  cases o <;> simp_all [exhausts]

end

/-! ## The loop -/

/-- The marks of the keys in `ks` survive: each is still in the queue, or was handled. -/
def Kept (p : Poller σ I C K) (s s' : σ) (ks : List K) : Prop :=
  ∀ k ∈ ks, (p.conn s k).isSome → k ∈ p.queue s' ∨ k ∈ p.handled s'

theorem Kept.cons_iff {s s₁ s' : σ} {k : K} {ks : List K}
    (hk : (p.conn s k).isSome → k ∈ p.queue s' ∨ k ∈ p.handled s')
    (hconn : ∀ k' ∈ ks, p.conn s₁ k' = p.conn s k') :
    p.Kept s s' (k :: ks) ↔ p.Kept s₁ s' ks := by
  unfold Kept
  rw [List.forall_mem_cons]
  constructor
  · rintro ⟨-, h⟩ k' hk' hlive
    rw [hconn k' hk'] at hlive
    exact h k' hk' hlive
  · intro h
    refine ⟨hk, fun k' hk' hlive => ?_⟩
    rw [← hconn k' hk'] at hlive
    exact h k' hk' hlive

/-- The loop in progress: `ks` is the part of the queue that it has not reached, `back` are the keys
that were polled and marked again. -/
structure Stage (p : Poller σ I C K) (s : σ) (ks back : List K) : Prop where
  queue : p.queue s = ks ++ back
  nodup : (ks ++ back).Nodup
  back : ∀ k ∈ back, k ∈ p.handled s
  fresh : ∀ k ∈ ks, k ∉ p.handled s

theorem Stage.not_mem {s : σ} {k : K} {ks back : List K} (h : p.Stage s (k :: ks) back) : k ∉ ks ++ back :=
  (List.nodup_cons.mp h.nodup).1

theorem Stage.ne {s : σ} {k k' : K} {ks back : List K} (h : p.Stage s (k :: ks) back)
    (hk' : k' ∈ ks) : k' ≠ k :=
  fun heq => h.not_mem (heq ▸ List.mem_append_left _ hk')

variable [DecidableEq K]

theorem Lawful.skip_rule (h : p.Lawful) (Inv : σ → Prop) (hpop : ∀ s, Inv s → Inv (p.pop s))
    {s : σ} (hs : Inv s) : Inv (p.skip s) := by
  generalize hq : p.queue s = q
  induction q generalizing s with
  | nil => rwa [h.skip_nil s hq]
  | cons k ks ih =>
    cases hk : p.conn s k with
    | some c => rwa [h.skip_live s k ks hq (by simp [hk])]
    | none =>
      rw [h.skip_dead s k ks hq hk]
      exact ih (hpop s hs) (by rw [h.queue_pop, hq, List.tail_cons])

/-- The invariant rule of the loop. -/
theorem Lawful.run_rule (h : p.Lawful) (Inv : σ → Prop) (hpop : ∀ s, Inv s → Inv (p.pop s))
    (hforget : ∀ s k, k ∈ p.queue s → (p.conn s k).isSome → Inv s → Inv (p.forget s k))
    (hpoll : ∀ s k c s' o, k ∈ p.queue s → p.conn s k = some c → p.poll s k = some (s', o) →
      Inv s → Inv s')
    (hmark : ∀ s k, k ∈ p.handled s → Inv s → Inv (p.mark s k))
    (hsettle : ∀ s k, Inv s → Inv (p.settle s k))
    {n : Nat} {s s' : σ} (hrun : p.run n s = some s') (hs : Inv s) : Inv s' := by
  induction n generalizing s with
  | zero => exact Option.some.inj hrun ▸ h.skip_rule Inv hpop hs
  | succ n ih =>
    have hskip := h.skip_rule Inv hpop hs
    simp only [run] at hrun
    generalize p.skip s = t at hrun hskip
    split at hrun
    · exact Option.some.inj hrun ▸ hskip
    · next k ks hq =>
      have hmem : k ∈ p.queue t := by simp [hq]
      split at hrun
      · exact Option.some.inj hrun ▸ hskip
      · next c hc =>
        split at hrun
        · exact Option.some.inj hrun ▸ hskip
        · split at hrun
          · exact ih hrun (hpop _ (hforget t k hmem (by simp [hc]) hskip))
          · split at hrun
            · cases hrun
            · next u hu =>
              exact ih hrun (hsettle _ k (hpop _ (hpoll t k c u _ hmem hc hu hskip)))
            · next u hu =>
              have hhandled : k ∈ p.handled (p.pop u) := by
                rw [h.handled_pop, h.handled_poll t k c u _ hu hc]
                simp
              exact ih hrun (hmark _ k hhandled (hpop _ (hpoll t k c u _ hmem hc hu hskip)))
            · next u hu => exact Option.some.inj hrun ▸ hpoll t k c u _ hmem hc hu hskip

theorem Lawful.handled_mono (h : p.Lawful) {n : Nat} {s s' : σ} (hrun : p.run n s = some s') {k : K}
    (hk : k ∈ p.handled s) : k ∈ p.handled s' := by
  refine h.run_rule (fun s => k ∈ p.handled s) ?_ ?_ ?_ ?_ ?_ hrun hk
  · intro s hs
    rwa [h.handled_pop]
  · intro s k' _ hlive hs
    rw [h.handled_forget s k' hlive]
    exact List.mem_append_left _ hs
  · intro s k' c s' o _ hc hpoll hs
    rw [h.handled_poll s k' c s' o hpoll hc]
    exact List.mem_append_left _ hs
  · intro s k' _ hs
    rwa [h.handled_mark]
  · intro s k' hs
    rwa [h.handled_settle]

/-- A key that is not in the queue stays out of it, and is not handled. -/
theorem Lawful.untouched (h : p.Lawful) {n : Nat} {s s' : σ} (hrun : p.run n s = some s') {k : K}
    (hk : k ∉ p.queue s ∧ k ∉ p.handled s) : k ∉ p.queue s' ∧ k ∉ p.handled s' := by
  refine h.run_rule (fun s => k ∉ p.queue s ∧ k ∉ p.handled s) ?_ ?_ ?_ ?_ ?_ hrun hk
  · rintro s ⟨hq, hh⟩
    rw [h.queue_pop, h.handled_pop]
    exact ⟨fun hmem => hq (List.mem_of_mem_tail hmem), hh⟩
  · rintro s k' hk' hlive ⟨hq, hh⟩
    rw [h.queue_forget s k' hlive, h.handled_forget s k' hlive]
    refine ⟨fun hmem => hq (List.mem_of_mem_erase hmem), ?_⟩
    rw [List.mem_append, List.mem_singleton]
    rintro (hmem | rfl)
    · exact hh hmem
    · exact hq hk'
  · rintro s k' c s' o hk' hc hpoll ⟨hq, hh⟩
    rw [h.queue_poll s k' s' o hpoll, h.handled_poll s k' c s' o hpoll hc]
    refine ⟨hq, ?_⟩
    rw [List.mem_append, List.mem_singleton]
    rintro (hmem | rfl)
    · exact hh hmem
    · exact hq hk'
  · rintro s k' hk' ⟨hq, hh⟩
    rw [h.handled_mark]
    refine ⟨?_, hh⟩
    rcases h.queue_mark s k' with heq | heq
    · rwa [heq]
    · rw [heq, List.mem_append, List.mem_singleton]
      rintro (hmem | rfl)
      · exact hq hmem
      · exact hh hk'
  · rintro s k' ⟨hq, hh⟩
    rw [h.queue_settle, h.handled_settle]
    exact ⟨hq, hh⟩

/-- The loop drops a dead front first. -/
theorem Lawful.run_dead (h : p.Lawful) {s : σ} {k : K} {ks : List K} (hq : p.queue s = k :: ks)
    (hk : p.conn s k = none) (n : Nat) : p.run n s = p.run n (p.pop s) := by
  cases n with
  | zero => simp only [run, h.skip_dead s k ks hq hk]
  | succ n => simp only [run, h.skip_dead s k ks hq hk]

section

variable {s s₁ s' : σ} {k next : K} {ks back : List K} {c : C} {o : Outcome} {n : Nat}

theorem Stage.pop (hp : p.Lawful) (h : p.Stage s (k :: ks) back) : p.Stage (p.pop s) ks back where
  queue := by rw [hp.queue_pop, h.queue, List.cons_append, List.tail_cons]
  nodup := (List.nodup_cons.mp h.nodup).2
  back k' hk' := by
    rw [hp.handled_pop]
    exact h.back k' hk'
  fresh k' hk' := by
    rw [hp.handled_pop]
    exact h.fresh k' (List.mem_cons_of_mem _ hk')

/-- Forgetting the front takes it out of the queue. -/
theorem Stage.forget (hp : p.Lawful) (h : p.Stage s (k :: ks) back) (hk : p.conn s k = some c) :
    p.Stage (p.forget s k) ks back where
  queue := by rw [hp.queue_forget s k (by simp [hk]), h.queue, List.cons_append, List.erase_cons_head]
  nodup := (List.nodup_cons.mp h.nodup).2
  back k' hk' := by
    rw [hp.handled_forget s k (by simp [hk])]
    exact List.mem_append_left _ (h.back k' hk')
  fresh k' hk' := by
    rw [hp.handled_forget s k (by simp [hk]), List.mem_append, List.mem_singleton]
    rintro (hmem | heq)
    · exact h.fresh k' (List.mem_cons_of_mem _ hk') hmem
    · exact h.ne hk' heq

theorem Stage.poll_pop (hp : p.Lawful) (h : p.Stage s (k :: ks) back) (hk : p.conn s k = some c)
    (hpoll : p.poll s k = some (s₁, o)) : p.Stage (p.pop s₁) ks back where
  queue := by
    rw [hp.queue_pop, hp.queue_poll s k s₁ o hpoll, h.queue, List.cons_append, List.tail_cons]
  nodup := (List.nodup_cons.mp h.nodup).2
  back k' hk' := by
    rw [hp.handled_pop, hp.handled_poll s k c s₁ o hpoll hk]
    exact List.mem_append_left _ (h.back k' hk')
  fresh k' hk' := by
    rw [hp.handled_pop, hp.handled_poll s k c s₁ o hpoll hk, List.mem_append, List.mem_singleton]
    rintro (hmem | heq)
    · exact h.fresh k' (List.mem_cons_of_mem _ hk') hmem
    · exact h.ne hk' heq

theorem Stage.settle (hp : p.Lawful) (h : p.Stage s ks back) (k : K) :
    p.Stage (p.settle s k) ks back where
  queue := by rw [hp.queue_settle, h.queue]
  nodup := h.nodup
  back := by
    rw [hp.handled_settle]
    exact h.back
  fresh := by
    rw [hp.handled_settle]
    exact h.fresh

theorem Stage.mark (hp : p.Lawful) (h : p.Stage s ks back) (hk : k ∉ ks ++ back)
    (hhandled : k ∈ p.handled s) : ∃ back', p.Stage (p.mark s k) ks back' := by
  rcases hp.queue_mark s k with heq | heq
  · exact ⟨back, heq.trans h.queue, h.nodup, by rw [hp.handled_mark]; exact h.back,
      by rw [hp.handled_mark]; exact h.fresh⟩
  · refine ⟨back ++ [k], ?_, ?_, ?_, by rw [hp.handled_mark]; exact h.fresh⟩
    · rw [heq, h.queue, List.append_assoc]
    · rw [← List.append_assoc]
      exact List.nodup_append.mpr ⟨h.nodup, List.nodup_singleton k,
        by simpa [List.mem_singleton] using fun a ha (heq : a = k) => hk (heq ▸ by simpa using ha)⟩
    · intro k' hk'
      rw [hp.handled_mark]
      rcases List.mem_append.mp hk' with hk' | hk'
      · exact h.back k' hk'
      · exact List.mem_singleton.mp hk' ▸ hhandled

/-- One iteration with a connection at the front. -/
theorem Lawful.run_live (hp : p.Lawful) (hq : p.queue s = k :: ks) (hk : p.conn s k = some c) :
    p.run (n + 1) s =
      if p.ready (p.output s) = false then some s
      else if p.closed c then p.run n (p.pop (p.forget s k))
      else
        match p.poll s k with
        | none => none
        | some (s, .done) => p.run n (p.settle (p.pop s) k)
        | some (s, .reactivate) => p.run n (p.mark (p.pop s) k)
        | some (s, .stop) => some s := by
  rw [run, hp.skip_live s k ks hq (by simp [hk])]
  simp only [hq, hk]

/-- The front was polled and popped, the loop goes on with `s₂`. -/
theorem Stage.polled (hp : p.Lawful) (h : p.Stage s (k :: ks) back) (hk : p.conn s k = some c)
    (hready : p.ready (p.output s) = true) (hopen : p.closed c = false)
    (hpoll : p.poll s k = some (s₁, o)) (ho : o ≠ .stop) {s₂ : σ}
    (hconn : ∀ k' ≠ k, p.conn s₂ k' = p.conn (p.pop s₁) k')
    (houtput : p.output s₂ = p.output (p.pop s₁)) (hhandled : k ∈ p.handled s')
    (ih : p.Kept s₂ s' ks ↔ ¬ p.Strands (p.conn s₂) (p.output s₂) ks) :
    p.Kept s s' (k :: ks) ↔ ¬ p.Strands (p.conn s) (p.output s) (k :: ks) := by
  have hconn' : ∀ k' ∈ ks, p.conn s₂ k' = p.conn s k' := fun k' hk' => by
    rw [hconn k' (h.ne hk'), hp.conn_pop, hp.conn_poll s k s₁ o k' hpoll (h.ne hk')]
  have hwrite := hp.output_poll s k c s₁ o hpoll hk
  rw [houtput, hp.output_pop, Strands.congr hconn', ← strands_open hk hready hopen hwrite ho] at ih
  rw [← ih]
  exact Kept.cons_iff (fun _ => .inr hhandled) hconn'

/-- A key that is handled before the rest of the loop runs is handled. -/
theorem Lawful.handled_of_poll (hp : p.Lawful) (hk : p.conn s k = some c)
    (hpoll : p.poll s k = some (s₁, o)) : k ∈ p.handled (p.pop s₁) := by
  rw [hp.handled_pop, hp.handled_poll s k c s₁ o hpoll hk]
  simp

/-- The front was forgotten, and the next key popped. -/
theorem Stage.forgotten (hp : p.Lawful) (h : p.Stage s (k :: ks) back) (hk : p.conn s k = some c)
    (hready : p.ready (p.output s) = true) (hclosed : p.closed c = true)
    (hrun : p.run n (p.pop (p.forget s k)) = some s')
    (ih : ∀ next rest, ks = next :: rest → (p.Kept (p.pop (p.forget s k)) s' rest ↔
      ¬ p.Strands (p.conn (p.pop (p.forget s k))) (p.output (p.pop (p.forget s k))) rest)) :
    p.Kept s s' (k :: ks) ↔ ¬ p.Strands (p.conn s) (p.output s) (k :: ks) := by
  have hforget : k ∈ p.handled (p.pop (p.forget s k)) := by
    rw [hp.handled_pop, hp.handled_forget s k (by simp [hk])]
    simp
  have hhandled := hp.handled_mono hrun hforget
  have hstage := h.forget hp hk
  cases ks with
  | nil =>
    refine iff_of_true (fun k' hk' _ => .inr ?_) ?_
    · exact List.mem_singleton.mp hk' ▸ hhandled
    · rintro ⟨before, _, _, _, hq, -⟩
      have := congrArg List.length hq
      simp at this
      omega
  | cons next ks =>
    cases hnext : p.conn s next with
    | some c' =>
      -- the pop takes the mark of a connection that nobody has looked at
      refine iff_of_false (fun hkept => ?_)
        (not_not.mpr (strands_closed hk hready hclosed (by simp [hnext])))
      have hlost : next ∉ p.queue s' ∧ next ∉ p.handled s' := by
        refine hp.untouched hrun ⟨?_, ?_⟩
        · rw [(hstage.pop hp).queue]
          exact hstage.not_mem
        · rw [hp.handled_pop]
          exact hstage.fresh next (by simp)
      rcases hkept next (by simp) (by simp [hnext]) with hmem | hmem
      · exact hlost.1 hmem
      · exact hlost.2 hmem
    | none =>
      have ih := ih next ks rfl
      have hconn : ∀ k' ∈ ks, p.conn (p.pop (p.forget s k)) k' = p.conn s k' := by
        intro k' hk'
        rw [hp.conn_pop, hp.conn_forget s k k' (h.ne (List.mem_cons_of_mem _ hk'))]
      have hfront : p.Kept s s' (k :: next :: ks) ↔ p.Kept s s' (next :: ks) :=
        Kept.cons_iff (fun _ => .inr hhandled) fun _ _ => rfl
      rw [hp.output_pop, hp.output_forget, Strands.congr hconn,
        ← strands_closed_dead hk hready hclosed hnext] at ih
      rw [← ih, hfront]
      exact Kept.cons_iff (by simp [hnext]) hconn

end

/-- The induction behind `run_keeps_marks`, on the part of the queue not reached yet. -/
theorem Lawful.kept_iff (hp : p.Lawful) (ks : List K) {s s' : σ} {back : List K} {n : Nat}
    (h : p.Stage s ks back) (hn : ks.length ≤ n) (hrun : p.run n s = some s') :
    p.Kept s s' ks ↔ ¬ p.Strands (p.conn s) (p.output s) ks := by
  induction hlen : ks.length using Nat.strongRecOn generalizing ks s back n with
  | ind len ih =>
  subst hlen
  cases ks with
  | nil => exact iff_of_true (by simp [Kept]) strands_nil
  | cons k ks =>
    cases hk : p.conn s k with
    | none =>
      -- a dead key is dropped by the peek
      rw [hp.run_dead h.queue hk n] at hrun
      have ih := ih ks.length (by simp) ks (h.pop hp) (by simp at hn; omega) hrun rfl
      rw [hp.conn_pop, hp.output_pop, ← strands_dead hk] at ih
      rw [← ih]
      exact Kept.cons_iff (by simp [hk]) fun k' _ => by rw [hp.conn_pop]
    | some c =>
      obtain ⟨n, rfl⟩ : ∃ m, n = m + 1 := ⟨n - 1, by simp at hn; omega⟩
      have hn : ks.length ≤ n := by simpa using hn
      rw [hp.run_live h.queue hk] at hrun
      split at hrun
      · next hready =>
        cases hrun
        refine iff_of_true (fun k' hk' _ => .inl ?_) (not_strands_of_stop fun before => ?_)
        · rw [h.queue]
          exact List.mem_append_left _ hk'
        · simp [exhausts, hk, hready]
      · next hready =>
        have hready : p.ready (p.output s) = true := by simpa using hready
        split at hrun
        · next hclosed =>
          refine h.forgotten hp hk hready hclosed hrun fun next rest hrest => ?_
          subst hrest
          exact ih rest.length (by simp only [List.length_cons]; omega) rest ((h.forget hp hk).pop hp)
            (by simp at hn; omega) hrun rfl
        · next hopen =>
          have hopen : p.closed c = false := by simpa using hopen
          split at hrun
          · cases hrun
          · next s₁ hpoll =>
            have hhandled : k ∈ p.handled (p.settle (p.pop s₁) k) := by
              rw [hp.handled_settle]
              exact hp.handled_of_poll hk hpoll
            exact h.polled hp hk hready hopen hpoll (by simp)
              (fun k' hk' => hp.conn_settle _ k k' hk') (hp.output_settle ..)
              (hp.handled_mono hrun hhandled)
              (ih ks.length (by simp) ks ((h.poll_pop hp hk hpoll).settle hp k) hn hrun rfl)
          · next s₁ hpoll =>
            have hhandled := hp.handled_of_poll hk hpoll
            obtain ⟨back', hstage⟩ := (h.poll_pop hp hk hpoll).mark hp h.not_mem hhandled
            exact h.polled hp hk hready hopen hpoll (by simp) (fun k' _ => by rw [hp.conn_mark])
              (hp.output_mark ..) (hp.handled_mono hrun (by rwa [hp.handled_mark]))
              (ih ks.length (by simp) ks hstage hn hrun rfl)
          · next s₁ hpoll =>
            cases hrun
            refine iff_of_true (fun k' hk' _ => .inl ?_) (not_strands_of_stop fun before => ?_)
            · rw [hp.queue_poll s k s' _ hpoll, h.queue]
              exact List.mem_append_left _ hk'
            · simp [exhausts, hk, hready, hopen, hp.output_poll s k c s' _ hpoll hk]

/-- A loop that never marks a key again is over once it has looked at every key. -/
theorem Lawful.run_succ (hp : p.Lawful) (hpoll : ∀ s k s', p.poll s k ≠ some (s', .reactivate))
    {n : Nat} {s : σ} (hn : (p.queue s).length ≤ n) : p.run (n + 1) s = p.run n s := by
  induction n generalizing s with
  | zero =>
    have hq : p.queue s = [] := List.length_eq_zero_iff.mp (by omega)
    simp [run, hp.skip_nil s hq, hq]
  | succ n ih =>
    have hskip : (p.queue (p.skip s)).length ≤ n + 1 := by
      refine hp.skip_rule (fun s => (p.queue s).length ≤ n + 1) (fun s hs => ?_) hn
      rw [hp.queue_pop, List.length_tail]
      omega
    rw [run, run]
    generalize p.skip s = t at hskip
    split
    · rfl
    · next k ks hq =>
      have hlength : ks.length ≤ n := by simpa [hq] using hskip
      split
      · rfl
      · next c hc =>
        split
        · rfl
        · split
          · refine ih ?_
            rw [hp.queue_pop, hp.queue_forget t k (by simp [hc]), hq, List.erase_cons_head,
              List.length_tail]
            omega
          · split
            · rfl
            · next u hu =>
              refine ih ?_
              rw [hp.queue_settle, hp.queue_pop, hp.queue_poll t k u _ hu, hq]
              exact hlength
            · next u hu => exact absurd hu (hpoll t k u)
            · rfl

/-- **Exactly when every mark survives the loop.** -/
theorem Lawful.run_keeps_marks (hp : p.Lawful) {s s' : σ} {n : Nat} (hnodup : (p.queue s).Nodup)
    (hhandled : p.handled s = []) (hn : (p.queue s).length ≤ n) (hrun : p.run n s = some s') :
    p.Kept s s' (p.queue s) ↔ ¬ p.Strands (p.conn s) (p.output s) (p.queue s) :=
  hp.kept_iff (p.queue s) ⟨by rw [List.append_nil], by rwa [List.append_nil], by simp,
    by simp [hhandled]⟩ hn hrun

end Poller

end Aquic.Polling

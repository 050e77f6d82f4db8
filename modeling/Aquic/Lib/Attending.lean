import Aquic.Lib.Polling
import Mathlib.Data.Set.Insert

/-!
# Connections that are attended to

A connection that is not in the queue of a polling loop must be waited for in some other way, by a timer for
example: it is attended. So every connection is in the queue or attended, but perhaps for those that are being
looked after right now (`Tended`).

Almost every function is about one connection: it changes that connection and its place in the queue, and lets
the others be (`Minds`). Polling a connection has to leave it attended or in the queue; then no connection is left
alone by the loop either, unless one is stranded (`Lawful.tended`).
-/

namespace Aquic.Polling

/-- What there is to attend to. -/
structure Attendance (σ C K : Type) where
  queue : σ → List K
  conn : σ → K → Option C
  /-- What the timers rely on. -/
  Sound : σ → Prop
  /-- A timer will bring the connection back to the queue. -/
  Awaited : σ → K → Prop

namespace Attendance

/-- In a state of which this is a part. -/
def comap {σ σ' C K : Type} (a : Attendance σ C K) (part : σ' → σ) : Attendance σ' C K where
  queue s := a.queue (part s)
  conn s := a.conn (part s)
  Sound s := a.Sound (part s)
  Awaited s := a.Awaited (part s)

variable {σ C K : Type} (a : Attendance σ C K) (Needs : C → Prop)

/-- The connection waits to be polled, if there is one. -/
def Queued (s : σ) (key : K) : Prop :=
  (a.conn s key).isSome → key ∈ a.queue s

/-- If the connection needs a timer, there is one. -/
def Attended (s : σ) (key : K) : Prop :=
  ∀ c, a.conn s key = some c → Needs c → a.Awaited s key

/-- Every connection waits to be polled or is attended, but perhaps for these. -/
structure Tended (others : Set K) (s : σ) : Prop where
  sound : a.Sound s
  attended key : key ∈ a.queue s ∨ a.Attended Needs s key ∨ key ∈ others

/-- Something is done to one connection, which does not leave the queue alive. -/
structure Minds (key : K) (s s' : σ) : Prop where
  others : ∀ k ≠ key, a.conn s' k = a.conn s k
  active : ∀ k ≠ key, k ∈ a.queue s → k ∈ a.queue s'
  queued : a.Queued s key → a.Queued s' key
  awaited : a.Sound s → a.Sound s' ∧ ∀ k ≠ key, a.Awaited s k → a.Awaited s' k

/-- Nobody is left alone who was not before. -/
def Keeps (s s' : σ) : Prop :=
  a.Sound s → a.Sound s' ∧ ∀ k, a.Attended Needs s k → a.Attended Needs s' k

/-- Nobody is left alone, and the connection is attended afterwards. -/
structure Serves (key : K) (s s' : σ) : Prop where
  keeps : a.Keeps Needs s s'
  attended : a.Sound s → a.Attended Needs s' key

variable {a Needs} {s s' s'' : σ} {key : K} {others others' : Set K}

theorem attended_of_dead (h : a.conn s key = none) : a.Attended Needs s key := by
  intro c hget
  rw [h] at hget
  cases hget

theorem queued_of_dead (h : a.conn s key = none) : a.Queued s key := by
  intro hlive
  rw [h] at hlive
  cases hlive

namespace Tended

theorem mono (h : a.Tended Needs others s) (hothers : ∀ k ∈ others, k ∈ others') :
    a.Tended Needs others' s := by
  refine ⟨h.sound, fun k => ?_⟩
  rcases h.attended k with hk | hk | hk
  · exact .inl hk
  · exact .inr (.inl hk)
  · exact .inr (.inr (hothers k hk))

/-- The connections stay the same, and are waited for as before. -/
theorem keep (h : a.Tended Needs others s) (hqueue : a.queue s' = a.queue s) (hconn : a.conn s' = a.conn s)
    (hawaited : a.Sound s → a.Sound s' ∧ ∀ k, a.Awaited s k → a.Awaited s' k) :
    a.Tended Needs others s' := by
  obtain ⟨hsound, hkeeps⟩ := hawaited h.sound
  refine ⟨hsound, fun k => ?_⟩
  rw [hqueue]
  rcases h.attended k with hk | hk | hk
  · exact .inl hk
  · refine .inr (.inl fun c hget hneeds => hkeeps k ?_)
    rw [hconn] at hget
    exact hk c hget hneeds
  · exact .inr (.inr hk)

end Tended

namespace Minds

theorem refl (key : K) (s : σ) : a.Minds key s s :=
  ⟨fun _ _ => rfl, fun _ _ => id, id, fun hsound => ⟨hsound, fun _ _ => id⟩⟩

theorem trans (h : a.Minds key s s') (h' : a.Minds key s' s'') : a.Minds key s s'' where
  others k hk := (h'.others k hk).trans (h.others k hk)
  active k hk hmem := h'.active k hk (h.active k hk hmem)
  queued hqueued := h'.queued (h.queued hqueued)
  awaited hsound := by
    obtain ⟨hsound', hawaited⟩ := h.awaited hsound
    obtain ⟨hsound'', hawaited'⟩ := h'.awaited hsound'
    exact ⟨hsound'', fun k hk hb => hawaited' k hk (hawaited k hk hb)⟩

/-- The others stay attended. -/
theorem attended (h : a.Minds key s s') (hsound : a.Sound s) {k : K} (hk : k ≠ key)
    (hattended : a.Attended Needs s k) : a.Attended Needs s' k := by
  intro c hget hneeds
  rw [h.others k hk] at hget
  exact (h.awaited hsound).2 k hk (hattended c hget hneeds)

/-- The connection itself has to be looked after. -/
theorem tended (h : a.Minds key s s') (hs : a.Tended Needs others s) :
    a.Tended Needs (insert key others) s' := by
  refine ⟨(h.awaited hs.sound).1, fun k => ?_⟩
  by_cases hk : k = key
  · exact .inr (.inr (.inl hk))
  · rcases hs.attended k with hmem | hattended | hother
    · exact .inl (h.active k hk hmem)
    · exact .inr (.inl (h.attended hs.sound hk hattended))
    · exact .inr (.inr (.inr hother))

/-- Afterwards the connection waits to be polled. -/
theorem tended_of_queued (h : a.Minds key s s') (hqueued : a.Queued s' key)
    (hs : a.Tended Needs (insert key others) s) : a.Tended Needs others s' := by
  have hs' := h.tended hs
  refine ⟨hs'.sound, fun k => ?_⟩
  by_cases hk : k = key
  · subst hk
    cases hget : a.conn s' k with
    | none => exact .inr (.inl (attended_of_dead hget))
    | some c => exact .inl (hqueued (Option.isSome_of_eq_some hget))
  · rcases hs'.attended k with hmem | hattended | hother
    · exact .inl hmem
    · exact .inr (.inl hattended)
    · exact .inr (.inr ((hother.resolve_left hk).resolve_left hk))

/-- The connection is marked first. -/
theorem tended_of_marked (hmark : a.Minds key s s') (hqueued : a.Queued s' key) (h : a.Minds key s' s'')
    (hs : a.Tended Needs others s) : a.Tended Needs others s'' :=
  (hmark.trans h).tended_of_queued (h.queued hqueued) (hs.mono fun _ hk => .inr hk)

/-- The connection is not marked, but attended as before. -/
theorem tended_of_attended (h : a.Minds key s s') (hqueue : a.queue s' = a.queue s)
    (hown : a.Attended Needs s key → a.Attended Needs s' key) (hs : a.Tended Needs others s) :
    a.Tended Needs others s' := by
  refine ⟨(h.awaited hs.sound).1, fun k => ?_⟩
  rw [hqueue]
  rcases hs.attended k with hmem | hattended | hother
  · exact .inl hmem
  · refine .inr (.inl ?_)
    by_cases hk : k = key
    · subst hk
      exact hown hattended
    · exact h.attended hs.sound hk hattended
  · exact .inr (.inr hother)

end Minds

/-- **A fold that looks after connections**: each of its steps marks the connection that it is about, unless it has
nothing to do with the connection that is there. -/
theorem foldl_tended_of_about {α : Type} {f : σ → α → σ} (key : α → K) (About : α → C → Prop)
    (hf : ∀ s x, (a.Minds (key x) s (f s x) ∧ a.Queued (f s x) (key x)) ∨
      (f s x = s ∧ ∀ c ∈ a.conn s (key x), ¬ About x c))
    (xs : List α)
    (h : a.Tended Needs {k | ∃ x ∈ xs, key x = k ∧ ∃ c ∈ a.conn s k, About x c} s) :
    a.Tended Needs ∅ (xs.foldl f s) := by
  induction xs generalizing s with
  | nil =>
    apply h.mono
    rintro k ⟨x, hx, -⟩
    exact absurd hx List.not_mem_nil
  | cons x xs ih =>
    apply ih
    rcases hf s x with ⟨hminds, hqueued⟩ | ⟨hsame, hstale⟩
    · apply hminds.tended_of_queued hqueued
      apply h.mono
      rintro k ⟨y, hy, hkey, hc⟩
      by_cases hk : k = key x
      · exact .inl hk
      · -- the connections of the later ones have not changed
        refine .inr ⟨y, ?_, hkey, hminds.others k hk ▸ hc⟩
        rcases List.mem_cons.mp hy with rfl | hy
        · exact absurd hkey.symm hk
        · exact hy
    · rw [hsame]
      apply h.mono
      rintro k ⟨y, hy, rfl, c, hc, habout⟩
      rcases List.mem_cons.mp hy with rfl | hy
      · exact absurd habout (hstale c hc)
      · exact ⟨y, hy, rfl, c, hc, habout⟩

theorem foldl_tended {α : Type} {f : σ → α → σ} (key : α → K)
    (hf : ∀ s x, a.Minds (key x) s (f s x) ∧ a.Queued (f s x) (key x)) (xs : List α)
    (h : a.Tended Needs {k | k ∈ xs.map key} s) : a.Tended Needs ∅ (xs.foldl f s) := by
  apply foldl_tended_of_about key (fun _ _ => True) (fun s x => .inl (hf s x))
  refine ⟨h.sound, fun k => ?_⟩
  rcases h.attended k with hk | hk | hk
  · exact .inl hk
  · exact .inr (.inl hk)
  · cases hget : a.conn s k with
    | none => exact .inr (.inl (attended_of_dead hget))
    | some c =>
      obtain ⟨x, hx, rfl⟩ := List.mem_map.mp hk
      exact .inr (.inr ⟨x, hx, rfl, c, hget, trivial⟩)

/-- The others are as they were, and the connection is attended. -/
theorem serves_of_attended (hothers : ∀ k ≠ key, a.conn s' k = a.conn s k)
    (hawaited : a.Sound s → a.Sound s' ∧ ∀ k ≠ key, a.Awaited s k → a.Awaited s' k)
    (hown : a.Sound s → a.Attended Needs s' key) : a.Serves Needs key s s' := by
  refine ⟨fun hsound => ⟨(hawaited hsound).1, fun k hattended => ?_⟩, hown⟩
  by_cases hk : k = key
  · subst hk
    exact hown hsound
  · intro c hget hneeds
    rw [hothers k hk] at hget
    exact (hawaited hsound).2 k hk (hattended c hget hneeds)

end Attendance

/-! ## The loop -/

namespace Poller

variable {σ I C K : Type}

open Attendance

/-- How the steps of the loop attend to connections. -/
structure Attends (p : Poller σ I C K) (a : Attendance σ C K) (Needs : C → Prop) : Prop where
  queue : a.queue = p.queue
  conn : a.conn = p.conn
  pop s : a.Keeps Needs s (p.pop s)
  forget s k : (p.conn s k).isSome → a.Serves Needs k s (p.forget s k)
  done s k s' : (p.conn s k).isSome → p.poll s k = some (s', .done) →
    a.Serves Needs k s (p.settle (p.pop s') k)
  again s k s' : (p.conn s k).isSome → p.poll s k = some (s', .reactivate) →
    a.Serves Needs k s (p.mark (p.pop s') k)
  /-- The connection stays in the queue, and need not be attended. -/
  stop s k s' : (p.conn s k).isSome → p.poll s k = some (s', .stop) →
    a.Sound s → a.Sound s' ∧ ∀ k' ≠ k, a.Attended Needs s k' → a.Attended Needs s' k'

/-- The loop is in progress: the key is attended, if it was at the beginning or has been handled since. -/
structure Serving (p : Poller σ I C K) (a : Attendance σ C K) (Needs : C → Prop) (k : K) (before : Prop)
    (s : σ) : Prop where
  sound : a.Sound s
  attended : before ∨ k ∈ p.handled s → a.Attended Needs s k

/-- The loop is over. -/
structure Served (p : Poller σ I C K) (a : Attendance σ C K) (Needs : C → Prop) (k : K) (before : Prop)
    (s : σ) : Prop where
  sound : a.Sound s
  attended : before ∨ k ∈ p.handled s → k ∈ p.queue s ∨ a.Attended Needs s k

variable {p : Poller σ I C K} {a : Attendance σ C K} {Needs : C → Prop} {k : K} {before : Prop} {s s' : σ}

theorem Serving.served (h : p.Serving a Needs k before s) : p.Served a Needs k before s :=
  ⟨h.sound, fun hk => .inr (h.attended hk)⟩

/-- A connection has been handled, and is attended now. -/
theorem Serving.handle (h : p.Serving a Needs k before s) {k' : K} (hserves : a.Serves Needs k' s s')
    (hhandled : p.handled s' = p.handled s ++ [k']) : p.Serving a Needs k before s' := by
  obtain ⟨hsound, hkeeps⟩ := hserves.keeps h.sound
  refine ⟨hsound, fun hk => ?_⟩
  rw [hhandled, List.mem_append, List.mem_singleton] at hk
  rcases hk with hk | hk | rfl
  · exact hkeeps k (h.attended (.inl hk))
  · exact hkeeps k (h.attended (.inr hk))
  · exact hserves.attended h.sound

variable [DecidableEq K]

theorem Serving.pop (h : p.Serving a Needs k before s) (hp : p.Lawful) (ha : p.Attends a Needs) :
    p.Serving a Needs k before (p.pop s) := by
  obtain ⟨hsound, hkeeps⟩ := ha.pop s h.sound
  refine ⟨hsound, fun hk => hkeeps k (h.attended ?_)⟩
  rwa [hp.handled_pop] at hk

/-- The loop attends to every key that it handles. -/
theorem Lawful.served (hp : p.Lawful) (ha : p.Attends a Needs) {n : Nat} (hrun : p.run n s = some s')
    (h : p.Serving a Needs k before s) : p.Served a Needs k before s' := by
  have hskip {s : σ} (h : p.Serving a Needs k before s) : p.Serving a Needs k before (p.skip s) :=
    hp.skip_rule (p.Serving a Needs k before) (fun s h => h.pop hp ha) h
  induction n generalizing s with
  | zero => exact Option.some.inj hrun ▸ (hskip h).served
  | succ n ih =>
    simp only [run] at hrun
    have h := hskip h
    generalize p.skip s = t at hrun h
    split at hrun
    · exact Option.some.inj hrun ▸ h.served
    · next front ks hq =>
      split at hrun
      · exact Option.some.inj hrun ▸ h.served
      · next c hc =>
        have hlive : (p.conn t front).isSome := Option.isSome_of_eq_some hc
        split at hrun
        · exact Option.some.inj hrun ▸ h.served
        · split at hrun
          · apply ih hrun
            exact (h.handle (ha.forget t front hlive) (hp.handled_forget t front hlive)).pop hp ha
          · split at hrun
            · cases hrun
            · next u hu =>
              apply ih hrun
              apply h.handle (ha.done t front u hlive hu)
              rw [hp.handled_settle, hp.handled_pop, hp.handled_poll t front c u _ hu hc]
            · next u hu =>
              apply ih hrun
              apply h.handle (ha.again t front u hlive hu)
              rw [hp.handled_mark, hp.handled_pop, hp.handled_poll t front c u _ hu hc]
            · next u hu =>
              cases hrun
              obtain ⟨hsound, hothers⟩ := ha.stop t front s' hlive hu h.sound
              refine ⟨hsound, fun hk => ?_⟩
              by_cases hfront : k = front
              · subst hfront
                rw [hp.queue_poll t k s' _ hu, hq]
                exact .inl List.mem_cons_self
              · refine .inr (hothers k hfront (h.attended ?_))
                rw [hp.handled_poll t front c s' _ hu hc, List.mem_append, List.mem_singleton] at hk
                rcases hk with hk | hk | hk
                · exact .inl hk
                · exact .inr hk
                · exact absurd hk hfront

/-- **Nobody is left alone**, unless somebody is stranded. -/
theorem Lawful.tended (hp : p.Lawful) (ha : p.Attends a Needs) {n : Nat} (hnodup : (p.queue s).Nodup)
    (hhandled : p.handled s = []) (hn : (p.queue s).length ≤ n)
    (hstrands : ¬ p.Strands (p.conn s) (p.output s) (p.queue s)) (h : a.Tended Needs ∅ s)
    (hrun : p.run n s = some s') : a.Tended Needs ∅ s' := by
  have hserving (k : K) : p.Serving a Needs k (a.Attended Needs s k) s := by
    refine ⟨h.sound, fun hk => ?_⟩
    rw [hhandled] at hk
    exact hk.resolve_right List.not_mem_nil
  have hkept := (hp.run_keeps_marks hnodup hhandled hn hrun).mpr hstrands
  have hattends (k : K) : k ∈ p.queue s' ∨ a.Attended Needs s' k := by
    have hserved := hp.served ha hrun (hserving k)
    by_cases hbefore : a.Attended Needs s k
    · exact hserved.attended (.inl hbefore)
    · have hqueue : k ∈ p.queue s := by
        rcases h.attended k with hk | hk | hk
        · exact ha.queue ▸ hk
        · exact absurd hk hbefore
        · exact absurd hk (Set.notMem_empty k)
      have hlive : (p.conn s k).isSome := by
        rw [← ha.conn, Option.isSome_iff_ne_none]
        intro hdead
        exact hbefore (attended_of_dead hdead)
      rcases hkept k hqueue hlive with hk | hk
      · exact .inl hk
      · exact hserved.attended (.inr hk)
  refine ⟨?_, fun k => ?_⟩
  · cases hq : p.queue s with
    | nil =>
      -- any key would do, but there is none
      have hskip := hp.skip_nil s hq
      cases n with
      | zero =>
        rw [run, hskip] at hrun
        exact Option.some.inj hrun ▸ h.sound
      | succ n =>
        simp only [run, hskip, hq] at hrun
        exact Option.some.inj hrun ▸ h.sound
    | cons k ks => exact (hp.served ha hrun (hserving k)).sound
  · rw [ha.queue]
    exact (hattends k).imp_right .inl

end Poller

end Aquic.Polling

import Mathlib.Data.List.Induction

/-!
# Work in batches

A worker takes items one by one and adds each of them to an accumulator. Now and then it lends the
accumulator to somebody else, who works off what it holds and gives it back. `Follows` is the protocol:
the worker waits for an item only when everything it has taken is handed over and the accumulator is
back; it lends the accumulator only with something new in it; and after a final item it takes no other.

An accumulator whose contents are a list of chunks is an `Encoding`. What was handed over, together with
what is still held, is the output for the items that were taken (`Follows.output`).
-/

namespace Aquic.Batching

/-- What the worker does, and what is done to it. -/
inductive Event (ι ε : Type) where
  /-- The worker waits for an item. -/
  | wait
  | take (item : ι)
  | lend (acc : ε)
  | back (acc : ε)
  deriving DecidableEq, Repr

/-- Where the accumulator is. -/
inductive Phase (ε : Type) where
  /-- With the worker, and with nothing new in it. -/
  | idle (acc : ε)
  | filled (acc : ε)
  | lent (acc : ε)
  deriving DecidableEq, Repr

variable {ι ε τ β : Type}

/-- The worker adds with `add` and stops at an item that is `isFin`; an accumulator that was lent is given
back as some `gives`. The flag tells whether a final item was taken. -/
inductive Follows (add : ε → ι → ε) (isFin : ι → Bool) (gives : ε → ε → Prop) (acc₀ : ε) :
    List (Event ι ε) → Phase ε → Bool → Prop
  | nil : Follows add isFin gives acc₀ [] (.idle acc₀) false
  | wait {events : List (Event ι ε)} {acc : ε} :
      Follows add isFin gives acc₀ events (.idle acc) false →
      Follows add isFin gives acc₀ (events ++ [.wait]) (.idle acc) false
  | first {events : List (Event ι ε)} {acc : ε} {item : ι} :
      Follows add isFin gives acc₀ events (.idle acc) false →
      Follows add isFin gives acc₀ (events ++ [.take item]) (.filled (add acc item)) (isFin item)
  | more {events : List (Event ι ε)} {acc : ε} {item : ι} :
      Follows add isFin gives acc₀ events (.filled acc) false →
      Follows add isFin gives acc₀ (events ++ [.take item]) (.filled (add acc item)) (isFin item)
  | lend {events : List (Event ι ε)} {acc : ε} {fin : Bool} :
      Follows add isFin gives acc₀ events (.filled acc) fin →
      Follows add isFin gives acc₀ (events ++ [.lend acc]) (.lent acc) fin
  | back {events : List (Event ι ε)} {acc acc' : ε} {fin : Bool} :
      Follows add isFin gives acc₀ events (.lent acc) fin → gives acc acc' →
      Follows add isFin gives acc₀ (events ++ [.back acc']) (.idle acc') fin

/-- The item that was taken. -/
def Event.taken : Event ι ε → Option ι
  | .take item => some item
  | _ => none

def taken (events : List (Event ι ε)) : List ι := events.filterMap Event.taken

@[simp]
theorem taken_append (events : List (Event ι ε)) (e : Event ι ε) :
    taken (events ++ [e]) = taken events ++ e.taken.toList := by
  cases e <;> simp [taken, Event.taken]

variable {add : ε → ι → ε} {isFin : ι → Bool} {gives : ε → ε → Prop} {acc₀ : ε}
  {events : List (Event ι ε)} {phase : Phase ε} {fin : Bool}

/-- **A final item is the last one.** -/
theorem Follows.fin_last (h : Follows add isFin gives acc₀ events phase fin) :
    (fin = false → ∀ item ∈ taken events, isFin item = false) ∧
      (fin = true → ∃ items last, taken events = items ++ [last] ∧ isFin last = true ∧
        ∀ item ∈ items, isFin item = false) := by
  induction h with
  | nil => exact ⟨fun _ => by simp [taken], fun h => by cases h⟩
  | wait _ ih => simpa [Event.taken] using ih
  | @first events acc item _ ih | @more events acc item _ ih =>
    simp only [taken_append, Event.taken, Option.toList_some]
    refine ⟨fun hfin it hmem => ?_, fun hfin => ⟨_, item, rfl, hfin, ih.1 rfl⟩⟩
    rcases List.mem_append.mp hmem with hmem | hmem
    · exact ih.1 rfl it hmem
    · rw [List.mem_singleton.mp hmem]
      exact hfin
  | lend _ ih | back _ _ ih =>
    simpa [Event.taken] using ih

/-! ## What is handed over -/

/-- An accumulator that holds chunks. What it makes of an item may depend on the items before, as far as
it remembers them in `τ`. -/
structure Encoding (ι ε τ β : Type) where
  memory : ε → τ
  pending : ε → List β
  encode : τ → ι → τ × List β

namespace Encoding

variable (E : Encoding ι ε τ β)

structure Lawful (add : ε → ι → ε) : Prop where
  memory_add : ∀ acc item, E.memory (add acc item) = (E.encode (E.memory acc) item).1
  pending_add : ∀ acc item,
    E.pending (add acc item) = E.pending acc ++ (E.encode (E.memory acc) item).2

/-- Everything was worked off, and nothing forgotten. -/
def Flushed (acc acc' : ε) : Prop := E.memory acc' = E.memory acc ∧ E.pending acc' = []

/-- What is remembered of a list of items, and the chunks they make. -/
def run (memory : τ) (items : List ι) : τ × List β :=
  items.foldl (fun state item =>
    ((E.encode state.1 item).1, state.2 ++ (E.encode state.1 item).2)) (memory, [])

/-- The chunks that a list of items makes. -/
def output (memory : τ) (items : List ι) : List β := (E.run memory items).2

theorem run_append (memory : τ) (items : List ι) (item : ι) :
    E.run memory (items ++ [item]) =
      ((E.encode (E.run memory items).1 item).1,
        (E.run memory items).2 ++ (E.encode (E.run memory items).1 item).2) := by
  simp only [run, List.foldl_append, List.foldl_cons, List.foldl_nil]

/-- The chunks of more items begin with those of the first ones. -/
theorem output_isPrefix (memory : τ) {items items' : List ι} (h : items <+: items') :
    E.output memory items <+: E.output memory items' := by
  obtain ⟨rest, rfl⟩ := h
  induction rest using List.reverseRecOn with
  | nil => simp
  | append_singleton rest item ih =>
    rw [← List.append_assoc]
    apply ih.trans
    unfold output
    rw [run_append]
    exact List.prefix_append _ _

/-- What was handed over. -/
def handed (events : List (Event ι ε)) : List β :=
  events.flatMap fun
    | .lend acc => E.pending acc
    | _ => []

/-- What is held back. -/
def held : Phase ε → List β
  | .idle acc => E.pending acc
  | .filled acc => E.pending acc
  | .lent _ => []

def memoryOf : Phase ε → τ
  | .idle acc => E.memory acc
  | .filled acc => E.memory acc
  | .lent acc => E.memory acc

theorem handed_append (events : List (Event ι ε)) (e : Event ι ε) :
    E.handed (events ++ [e]) = E.handed events ++ E.handed [e] := List.flatMap_append

end Encoding

/-- What has been handed over is the output for the items so far, less what is held back. -/
structure Output (E : Encoding ι ε τ β) (acc₀ : ε) (events : List (Event ι ε)) (phase : Phase ε) :
    Prop where
  memory : E.memoryOf phase = (E.run (E.memory acc₀) (taken events)).1
  chunks : E.handed events ++ E.held phase = E.output (E.memory acc₀) (taken events)
  /-- With nothing new in it the accumulator is empty. -/
  idle : ∀ acc, phase = .idle acc → E.pending acc = []

/-- An item is added to what is held. -/
theorem Output.take {E : Encoding ι ε τ β} (hE : E.Lawful add) {acc : ε} (item : ι)
    (h : Output E acc₀ events phase) (hphase : phase = .idle acc ∨ phase = .filled acc) :
    Output E acc₀ (events ++ [.take item]) (.filled (add acc item)) := by
  have hmemory : E.memory acc = (E.run (E.memory acc₀) (taken events)).1 := by
    rw [← h.memory]
    rcases hphase with rfl | rfl <;> rfl
  have hheld : E.handed events ++ E.pending acc = E.output (E.memory acc₀) (taken events) := by
    rw [← h.chunks]
    rcases hphase with rfl | rfl <;> rfl
  refine ⟨?_, ?_, fun acc' heq => by cases heq⟩
  · rw [taken_append]
    simp only [Event.taken, Option.toList_some, E.run_append]
    show E.memory (add acc item) = _
    rw [hE.memory_add, hmemory]
  · rw [taken_append, E.handed_append]
    simp only [Event.taken, Option.toList_some, Encoding.output, E.run_append]
    show E.handed events ++ [] ++ E.pending (add acc item) = _
    rw [List.append_nil, hE.pending_add, ← List.append_assoc, hheld, hmemory]
    rfl

/-- **Nothing is lost, doubled or reordered.** If everybody who gives the accumulator back has worked off
what it holds, then what was handed over and what is held back make the output for what was taken. -/
theorem Follows.output {E : Encoding ι ε τ β} (hE : E.Lawful add)
    (hgives : ∀ acc acc', gives acc acc' → E.Flushed acc acc') (hacc₀ : E.pending acc₀ = [])
    (h : Follows add isFin gives acc₀ events phase fin) : Output E acc₀ events phase := by
  induction h with
  | nil =>
    refine ⟨rfl, ?_, fun acc heq => ?_⟩
    · show [] ++ E.pending acc₀ = []
      rw [hacc₀]
      rfl
    · cases heq
      exact hacc₀
  | wait _ ih =>
    refine ⟨?_, ?_, ih.idle⟩
    · simpa [Event.taken] using ih.memory
    · simpa [Event.taken, E.handed_append, Encoding.handed] using ih.chunks
  | @first events acc item _ ih => exact ih.take hE item (.inl rfl)
  | @more events acc item _ ih => exact ih.take hE item (.inr rfl)
  | lend _ ih =>
    refine ⟨?_, ?_, fun acc' heq => by cases heq⟩
    · simpa [Event.taken, Encoding.memoryOf] using ih.memory
    · simpa [Event.taken, E.handed_append, Encoding.handed, Encoding.held] using ih.chunks
  | back _ hback ih =>
    obtain ⟨hmemory, hempty⟩ := hgives _ _ hback
    refine ⟨?_, ?_, fun acc' heq => ?_⟩
    · simpa [Event.taken, Encoding.memoryOf, hmemory] using ih.memory
    · simpa [Event.taken, E.handed_append, Encoding.handed, Encoding.held, hempty] using ih.chunks
    · cases heq
      exact hempty

/-! ## The log of a worker

The worker is a loop that keeps a log of its calls with their answers. Some answers bring an item, some end
the loop. -/

/-- How the worker adds and stops, and by whom the accumulator is given back. -/
structure Rules (ι ε : Type) where
  add : ε → ι → ε
  isFin : ι → Bool
  gives : ε → ε → Prop

/-- How the calls of a log are read. -/
structure Log (κ ι ε χ : Type) where
  events : κ → List (Event ι ε)
  /-- The item that the call has brought. -/
  received : κ → Option ι
  /-- The item that was added to the accumulator, or was to be. -/
  added : κ → Option ι
  /-- How the answer ends the loop. -/
  failure : κ → Option χ

namespace Log

variable {κ χ : Type}

structure Lawful (L : Log κ ι ε χ) : Prop where
  added : ∀ call, L.failure call = none → taken (L.events call) = (L.added call).toList
  failed : ∀ call, taken (L.events call) <+: (L.added call).toList

/-- Every item that was received was added. -/
def Forwarded (L : Log κ ι ε χ) (calls : List κ) : Prop :=
  calls.filterMap L.added = calls.filterMap L.received

/-- The calls so far follow the protocol. -/
abbrev Protocol (L : Log κ ι ε χ) (R : Rules ι ε) (acc₀ : ε) (calls : List κ) (phase : Phase ε)
    (fin : Bool) : Prop :=
  Follows R.add R.isFin R.gives acc₀ (calls.flatMap L.events) phase fin

/-- The loop is on its way. -/
structure Underway (L : Log κ ι ε χ) (R : Rules ι ε) (acc₀ : ε) (calls : List κ) (phase : Phase ε)
    (fin : Bool) : Prop where
  forwarded : L.Forwarded calls
  unfailed : ∀ call ∈ calls, L.failure call = none
  protocol : L.Protocol R acc₀ calls phase fin

/-- The last answer has ended the loop, and it is the only one that could. -/
def FailsLast (L : Log κ ι ε χ) (calls : List κ) (exit : χ) : Prop :=
  ∃ earlier call, calls = earlier ++ [call] ∧ L.failure call = some exit ∧
    ∀ call ∈ earlier, L.failure call = none

structure Failed (L : Log κ ι ε χ) (R : Rules ι ε) (acc₀ : ε) (calls : List κ) (exit : χ) : Prop where
  forwarded : L.Forwarded calls
  failure : L.FailsLast calls exit
  protocol : ∃ phase fin, L.Protocol R acc₀ calls phase fin

/-- What a run of the loop has come to; `none` if it goes on. -/
def Ran (L : Log κ ι ε χ) (R : Rules ι ε) (acc₀ : ε) (calls : List κ) :
    Option (Except χ Unit) → Prop
  | none => ∃ phase fin, L.Underway R acc₀ calls phase fin
  | some (.ok _) => ∃ acc, L.Underway R acc₀ calls (.idle acc) true
  | some (.error exit) => L.Failed R acc₀ calls exit

variable {L : Log κ ι ε χ} {R : Rules ι ε} {calls : List κ} {call : κ}

theorem underway_nil : L.Underway R acc₀ [] (.idle acc₀) false :=
  ⟨rfl, by simp, .nil⟩

theorem flatMap_concat (calls : List κ) (call : κ) :
    (calls ++ [call]).flatMap L.events = calls.flatMap L.events ++ L.events call := by
  rw [List.flatMap_append, List.flatMap_singleton]

theorem Forwarded.append (h : L.Forwarded calls) (hcall : L.added call = L.received call) :
    L.Forwarded (calls ++ [call]) := by
  unfold Forwarded at h ⊢
  simp only [List.filterMap_append, h, List.filterMap_cons, hcall, List.filterMap_nil]

/-- The call that brings an item, and the one that adds it. -/
theorem Forwarded.item (h : L.Forwarded calls) {call' : κ} {item : ι}
    (hreceived : L.received call = some item) (hadded : L.added call = none)
    (hreceived' : L.received call' = none) (hadded' : L.added call' = some item) :
    L.Forwarded (calls ++ [call] ++ [call']) := by
  unfold Forwarded at h ⊢
  simp only [List.append_assoc, List.cons_append, List.nil_append, List.filterMap_append, h,
    List.filterMap_cons, hreceived, hadded, hreceived', hadded', List.filterMap_nil]

theorem unfailed_append (h : ∀ call ∈ calls, L.failure call = none) (hcall : L.failure call = none) :
    ∀ c ∈ calls ++ [call], L.failure c = none := by
  intro c hmem
  rcases List.mem_append.mp hmem with hmem | hmem
  · exact h c hmem
  · rw [List.mem_singleton.mp hmem]
    exact hcall

/-- A call that brings nothing, and after which the loop goes on. -/
theorem Underway.append (h : L.Underway R acc₀ calls phase fin) {phase' : Phase ε} {fin' : Bool}
    (hcall : L.added call = L.received call) (hfailure : L.failure call = none)
    (hprotocol : L.Protocol R acc₀ (calls ++ [call]) phase' fin') :
    L.Underway R acc₀ (calls ++ [call]) phase' fin' :=
  ⟨h.forwarded.append hcall, unfailed_append h.unfailed hfailure, hprotocol⟩

/-- A call that has nothing to do with the accumulator. -/
theorem Underway.aside (h : L.Underway R acc₀ calls phase fin)
    (hcall : L.added call = L.received call) (hfailure : L.failure call = none)
    (hevents : L.events call = []) : L.Underway R acc₀ (calls ++ [call]) phase fin := by
  apply h.append hcall hfailure
  unfold Protocol
  rw [flatMap_concat, hevents, List.append_nil]
  exact h.protocol

/-- A call that ends the loop. -/
theorem Underway.fail (h : L.Underway R acc₀ calls phase fin) {exit : χ} {phase' : Phase ε}
    {fin' : Bool} (hcall : L.added call = L.received call) (hfailure : L.failure call = some exit)
    (hprotocol : L.Protocol R acc₀ (calls ++ [call]) phase' fin') :
    L.Failed R acc₀ (calls ++ [call]) exit :=
  ⟨h.forwarded.append hcall, ⟨calls, call, rfl, hfailure, h.unfailed⟩, phase', fin', hprotocol⟩

/-- `call` brings an item, and `call'` adds it to the accumulator. -/
theorem Underway.item (h : L.Underway R acc₀ calls phase fin) {call' : κ} {item : ι} {acc : ε}
    {phase' : Phase ε} (hreceived : L.received call = some item) (hadded : L.added call = none)
    (hfailure : L.failure call = none) (hphase : phase' = .idle acc ∨ phase' = .filled acc)
    (hprotocol : L.Protocol R acc₀ (calls ++ [call]) phase' false)
    (hreceived' : L.received call' = none) (hadded' : L.added call' = some item)
    (hfailure' : L.failure call' = none) (hevents' : L.events call' = [.take item]) :
    L.Underway R acc₀ (calls ++ [call] ++ [call']) (.filled (R.add acc item)) (R.isFin item) := by
  refine ⟨h.forwarded.item hreceived hadded hreceived' hadded',
    unfailed_append (unfailed_append h.unfailed hfailure) hfailure', ?_⟩
  unfold Protocol
  rw [flatMap_concat, hevents']
  rcases hphase with rfl | rfl
  · exact hprotocol.first
  · exact hprotocol.more

/-- `call` brings an item that cannot be added. -/
theorem Underway.failItem (h : L.Underway R acc₀ calls phase fin) {call' : κ} {item : ι} {exit : χ}
    {phase' : Phase ε} (hreceived : L.received call = some item) (hadded : L.added call = none)
    (hfailure : L.failure call = none) (hprotocol : L.Protocol R acc₀ (calls ++ [call]) phase' false)
    (hreceived' : L.received call' = none) (hadded' : L.added call' = some item)
    (hfailure' : L.failure call' = some exit) (hevents' : L.events call' = []) :
    L.Failed R acc₀ (calls ++ [call] ++ [call']) exit := by
  refine ⟨h.forwarded.item hreceived hadded hreceived' hadded',
    ⟨_, call', rfl, hfailure', unfailed_append h.unfailed hfailure⟩, phase', false, ?_⟩
  unfold Protocol
  rw [flatMap_concat, hevents', List.append_nil]
  exact hprotocol

/-- As long as no call has failed, what was to be added was added. -/
theorem taken_of_unfailed (hL : L.Lawful) (h : ∀ call ∈ calls, L.failure call = none) :
    taken (calls.flatMap L.events) = calls.filterMap L.added := by
  induction calls with
  | nil => rfl
  | cons call calls ih =>
    have hrest := ih fun c hmem => h c (List.mem_cons_of_mem _ hmem)
    have hcall := hL.added call (h call List.mem_cons_self)
    have happend : taken (L.events call ++ calls.flatMap L.events) =
        taken (L.events call) ++ taken (calls.flatMap L.events) := List.filterMap_append
    rw [List.flatMap_cons, happend, hcall, hrest]
    cases hadded : L.added call <;> simp [hadded]

theorem Underway.taken_eq (hL : L.Lawful) (h : L.Underway R acc₀ calls phase fin) :
    taken (calls.flatMap L.events) = calls.filterMap L.received := by
  rw [taken_of_unfailed hL h.unfailed]
  exact h.forwarded

/-- What was added was received. -/
theorem Failed.taken_isPrefix (hL : L.Lawful) {exit : χ} (h : L.Failed R acc₀ calls exit) :
    taken (calls.flatMap L.events) <+: calls.filterMap L.received := by
  obtain ⟨earlier, call, hcalls, -, hunfailed⟩ := h.failure
  have hforwarded := h.forwarded
  unfold Forwarded at hforwarded
  have happend : taken (earlier.flatMap L.events ++ L.events call) =
      taken (earlier.flatMap L.events) ++ taken (L.events call) := List.filterMap_append
  rw [← hforwarded, hcalls, flatMap_concat, List.filterMap_append, happend,
    taken_of_unfailed hL hunfailed]
  apply (List.prefix_append_right_inj _).mpr
  have hlast := hL.failed call
  cases hadded : L.added call <;> simpa [hadded] using hlast

variable {result : Option (Except χ Unit)}

/-- **The worker works in batches.** Whatever it receives it adds; its calls follow the protocol, and when
it is done the accumulator is back after the final item; and it is ended by the first answer that fails, at
once and as that answer says. -/
theorem Ran.goes_in_batches (h : L.Ran R acc₀ calls result) :
    L.Forwarded calls ∧
    (∃ phase fin, L.Protocol R acc₀ calls phase fin ∧
      (result = some (.ok ()) → fin = true ∧ ∃ acc, phase = .idle acc)) ∧
    ∀ exit, result = some (.error exit) ↔ L.FailsLast calls exit := by
  have hunfailed : ∀ {phase fin}, L.Underway R acc₀ calls phase fin →
      ∀ exit, ¬L.FailsLast calls exit := by
    rintro phase fin hunderway exit ⟨earlier, call, hcalls, hfailure, -⟩
    have hnone := hunderway.unfailed call (by simp [hcalls])
    cases hnone.symm.trans hfailure
  match result, h with
  | none, ⟨phase, fin, hunderway⟩ =>
    exact ⟨hunderway.forwarded, ⟨phase, fin, hunderway.protocol, by simp⟩,
      fun exit => iff_of_false (by simp) (hunfailed hunderway exit)⟩
  | some (.ok _), ⟨acc, hunderway⟩ =>
    exact ⟨hunderway.forwarded, ⟨_, _, hunderway.protocol, fun _ => ⟨rfl, acc, rfl⟩⟩,
      fun exit => iff_of_false (by simp) (hunfailed hunderway exit)⟩
  | some (.error exit), hfailed =>
    obtain ⟨phase, fin, hprotocol⟩ := hfailed.protocol
    refine ⟨hfailed.forwarded, ⟨phase, fin, hprotocol, by simp⟩, fun exit' => ⟨fun heq => ?_, ?_⟩⟩
    · cases heq
      exact hfailed.failure
    · rintro ⟨earlier, call, hcalls, hfailure, -⟩
      obtain ⟨earlier', call', hcalls', hfailure', -⟩ := hfailed.failure
      have hlast : [call] = [call'] := (List.append_inj' (hcalls.symm.trans hcalls') rfl).2
      cases List.singleton_inj.mp hlast
      cases hfailure.symm.trans hfailure'
      rfl

/-- **Nothing is lost on the way.** With an accumulator that holds chunks, what was handed over is at any
time a prefix of the chunks of what was received, and all of it when the worker is done. -/
theorem Ran.handed_isPrefix (hL : L.Lawful) {E : Encoding ι ε τ β} (hE : E.Lawful R.add)
    (hgives : ∀ acc acc', R.gives acc acc' → E.Flushed acc acc') (hacc₀ : E.pending acc₀ = [])
    (h : L.Ran R acc₀ calls result) :
    E.handed (calls.flatMap L.events) <+: E.output (E.memory acc₀) (calls.filterMap L.received) ∧
      (result = some (.ok ()) →
        E.handed (calls.flatMap L.events) =
          E.output (E.memory acc₀) (calls.filterMap L.received) ∧
        ∃ items last, calls.filterMap L.received = items ++ [last] ∧ R.isFin last = true ∧
          ∀ item ∈ items, R.isFin item = false) := by
  have hbegins : ∀ {phase fin}, L.Protocol R acc₀ calls phase fin →
      taken (calls.flatMap L.events) <+: calls.filterMap L.received →
      E.handed (calls.flatMap L.events) <+:
        E.output (E.memory acc₀) (calls.filterMap L.received) := by
    intro phase fin hprotocol htaken
    apply List.IsPrefix.trans _ (E.output_isPrefix _ htaken)
    rw [← (hprotocol.output hE hgives hacc₀).chunks]
    exact List.prefix_append _ _
  match result, h with
  | none, ⟨phase, fin, hunderway⟩ =>
    exact ⟨hbegins hunderway.protocol (hunderway.taken_eq hL ▸ List.prefix_rfl), by simp⟩
  | some (.error exit), hfailed =>
    obtain ⟨phase, fin, hprotocol⟩ := hfailed.protocol
    exact ⟨hbegins hprotocol (hfailed.taken_isPrefix hL), by simp⟩
  | some (.ok _), ⟨acc, hunderway⟩ =>
    refine ⟨hbegins hunderway.protocol (hunderway.taken_eq hL ▸ List.prefix_rfl), fun _ => ⟨?_, ?_⟩⟩
    · have houtput := hunderway.protocol.output hE hgives hacc₀
      have hchunks := houtput.chunks
      simp only [Encoding.held, houtput.idle _ rfl, List.append_nil] at hchunks
      rw [hchunks, hunderway.taken_eq hL]
    · have hlast := hunderway.protocol.fin_last.2 rfl
      rwa [hunderway.taken_eq hL] at hlast

end Log

end Aquic.Batching

import Aquic.Backend.Quiche.Establishment
import Aquic.Backend.Quiche.Polls

/-!
# Exhausted streams

An application whose `stream_open_send` is refused with `StreamsExhausted` waits for a
`StreamsAvailable` event of this direction. The connection remembers the refusal in a flag, one for each
direction, and `get_connection_streams_available_events` answers it at the next poll that finds streams
left.

The flag of bidirectional streams is cleared then; the flag of unidirectional streams is not. So once
an application was refused a unidirectional stream, every poll that finds streams left announces them
again.
-/

namespace Aquic.Backend.Quiche

open Aquic.Cid Aquic.Run Aquic.Trace

variable {Conn Cfg G T : Type}

/-! ## Marks about streams -/

namespace Mark

/-- The number of `StreamsAvailable` events. -/
def announcements (key : ConnectionKey) (bidirectional : Bool) (m : Mark Conn) : Nat :=
  m.events.count (.connection (.streamsAvailable key bidirectional))

def announces (key : ConnectionKey) (bidirectional : Bool) (m : Mark Conn) : Bool :=
  0 < m.announcements key bidirectional

end Mark

namespace Recorded

/-! ## Edges -/

/-- **`StreamsAvailable` is edge-triggered** for one connection and direction. The history has all the
events; there is a refusal between any two events, and before the first; and after a refusal the next
poll that finds streams left emits the event. -/
structure EdgeTriggered (lib : Library Conn Cfg) (s : Recorded Conn Cfg G T) (key : ConnectionKey)
    (bidirectional : Bool) : Prop where
  recorded : s.events.count (.connection (.streamsAvailable key bidirectional)) =
    (s.history.map (Mark.announcements key bidirectional)).sum
  once : ∀ m ∈ s.history, m.announcements key bidirectional ≤ 1
  refused : Throughout (fun earlier m => m.announces key bidirectional = true →
    since (Mark.refuses key bidirectional) (Mark.announces key bidirectional) earlier = true)
    s.history
  answered : Throughout (fun earlier m => m.offers lib key bidirectional = true →
    since (Mark.refuses key bidirectional) (Mark.offers lib key bidirectional) earlier = true →
      m.announces key bidirectional = true) s.history

/-- **Unidirectional refusals are renewed**: a poll that finds unidirectional streams left after there
was a refusal comes after a refusal since the last such poll. -/
def Renewed (lib : Library Conn Cfg) (key : ConnectionKey) (history : List (Mark Conn)) : Prop :=
  Throughout (fun earlier m => m.offers lib key false = true →
    earlier.any (Mark.refuses key false) = true →
      since (Mark.refuses key false) (Mark.offers lib key false) earlier = true) history

/-- The flag of a direction, as the history tells. -/
def armed (lib : Library Conn Cfg) (key : ConnectionKey) (bidirectional : Bool)
    (history : List (Mark Conn)) : Bool :=
  if bidirectional then since (Mark.refuses key true) (Mark.offers lib key true) history
  else history.any (Mark.refuses key false)

/-- A refusal that was not answered by a poll is still there. -/
theorem armed_of_since {lib : Library Conn Cfg} {key : ConnectionKey} {bidirectional : Bool}
    {history : List (Mark Conn)}
    (h : since (Mark.refuses key bidirectional) (Mark.offers lib key bidirectional) history = true) :
    armed lib key bidirectional history = true := by
  unfold armed
  cases bidirectional with
  | true => exact h
  | false => exact any_of_since h

/-- What a poll announces: the streams that are left, if the flag of their direction is set. -/
def Announced (lib : Library Conn Cfg) (earlier : List (Mark Conn)) (m : Mark Conn) : Prop :=
  ∀ key bidirectional, m.announcements key bidirectional =
    if armed lib key bidirectional earlier && m.offers lib key bidirectional then 1 else 0

theorem KnownPoll.announced {lib : Library Conn Cfg} {earlier : List (Mark Conn)} {m : Mark Conn}
    (h : KnownPoll lib earlier m) : Announced lib earlier m := by
  intro key bidirectional
  cases m with
  | refused => simp [Mark.announcements, Mark.events, Mark.offers]
  | read => simp [Mark.announcements, Mark.events, Mark.offers]
  | polled k before after events =>
    obtain ⟨hpolls, hwaits⟩ := h k before after events rfl
    rw [waits_eq] at hwaits
    -- the flags are what the history tells: one is cleared by a poll, the other never
    have hexhausted : before.exhausted bidirectional = armed lib k bidirectional earlier := by
      unfold Connection.exhausted armed
      cases bidirectional with
      | true => exact congrArg (·.1) hwaits
      | false => exact congrArg (·.2.1) hwaits
    show events.count _ = _
    rw [hpolls.streams, hexhausted]
    by_cases hkey : key = k
    · subst hkey
      simp [Mark.offers]
    · simp [Mark.offers, hkey, Ne.symm hkey]

variable {lib : Library Conn Cfg} {key : ConnectionKey} {bidirectional : Bool}
  {history : List (Mark Conn)} {earlier : List (Mark Conn)} {m : Mark Conn}

theorem Announced.announces_iff (h : Announced lib earlier m) :
    m.announces key bidirectional = true ↔
      armed lib key bidirectional earlier = true ∧ m.offers lib key bidirectional = true := by
  unfold Mark.announces
  rw [h key bidirectional]
  split <;> simp_all

/-- A refusal waits for the next event as long as it waits for the next poll that finds streams left. -/
theorem since_announces (h : Throughout (Announced lib) history) :
    since (Mark.refuses key bidirectional) (Mark.announces key bidirectional) history =
      since (Mark.refuses key bidirectional) (Mark.offers lib key bidirectional) history := by
  induction history using List.reverseRecOn with
  | nil => rfl
  | append_singleton history m ih =>
    obtain ⟨hhistory, hm⟩ := throughout_concat.mp h
    rw [since_concat, since_concat, ih hhistory]
    -- an unanswered refusal sets the flag, and then the poll announces what it finds
    cases hsince : since (Mark.refuses key bidirectional) (Mark.offers lib key bidirectional)
      history with
    | false => rfl
    | true =>
      have hiff : m.announces key bidirectional = true ↔ _ := hm.announces_iff
      rw [armed_of_since hsince] at hiff
      have heq : m.announces key bidirectional = m.offers lib key bidirectional := by
        rw [Bool.eq_iff_iff, hiff]
        exact ⟨And.right, fun hoffers => ⟨rfl, hoffers⟩⟩
      rw [heq]

/-- All but the first property of an edge hold of both directions, but for the flag that is not
cleared. -/
theorem edgeTriggered_iff {s : Recorded Conn Cfg G T} {env : Env Conn Cfg G T}
    (h : Reachable Init anyStep (exec env) s) :
    s.EdgeTriggered env.quiche key bidirectional ↔
      Throughout (fun earlier m => m.offers env.quiche key bidirectional = true →
        armed env.quiche key bidirectional earlier = true →
          since (Mark.refuses key bidirectional) (Mark.offers env.quiche key bidirectional) earlier =
            true) s.history := by
  have hknown := known h
  have hannounced : Throughout (Announced env.quiche) s.history := by
    intro earlier m later heq
    exact (hknown.polls earlier m later heq).announced
  have hinitial {earlier later : List (Mark Conn)} (heq : s.history = earlier ++ later) :
      Throughout (Announced env.quiche) earlier := by
    intro before m after hbefore
    apply hannounced before m (after ++ later)
    rw [heq, hbefore, List.append_assoc, List.cons_append]
  constructor
  · intro hedge earlier m later heq hoffers harmed
    have hannounces := (hannounced earlier m later heq).announces_iff.mpr ⟨harmed, hoffers⟩
    rw [← since_announces (hinitial heq)]
    exact hedge.refused earlier m later heq hannounces
  · intro hrenewed
    refine ⟨?_, ?_, ?_, ?_⟩
    · rw [hknown.events _ rfl, List.count_flatMap]
      rfl
    · intro m hm
      obtain ⟨earlier, later, heq⟩ := List.append_of_mem hm
      rw [hannounced earlier m later heq]
      split <;> simp
    · intro earlier m later heq hannounces
      obtain ⟨harmed, hoffers⟩ := (hannounced earlier m later heq).announces_iff.mp hannounces
      rw [since_announces (hinitial heq)]
      exact hrenewed earlier m later heq hoffers harmed
    · intro earlier m later heq hoffers hsince
      exact (hannounced earlier m later heq).announces_iff.mpr ⟨armed_of_since hsince, hoffers⟩

/-- **Streams are announced on edges** in a run exactly if every unidirectional refusal is renewed.
The bidirectional direction is right in every run. -/
theorem streams_available_iff {s : Recorded Conn Cfg G T} {env : Env Conn Cfg G T}
    (h : Reachable Init anyStep (exec env) s) :
    (∀ key bidirectional, s.EdgeTriggered env.quiche key bidirectional) ↔
      ∀ key, Renewed env.quiche key s.history := by
  constructor
  · intro hedge key
    exact (edgeTriggered_iff h).mp (hedge key false)
  · intro hrenewed key bidirectional
    rw [edgeTriggered_iff h]
    cases bidirectional with
    -- the flag of bidirectional streams is the unanswered refusal itself
    | true => exact fun _ _ _ _ _ harmed => harmed
    | false => exact hrenewed key

/-- An application that is never refused a unidirectional stream is told on edges. -/
theorem renewed_of_not_refused (h : ∀ m ∈ history, m.refuses m.key false = false)
    (key : ConnectionKey) : Renewed lib key history := by
  intro earlier m later heq _ hany
  obtain ⟨refusal, hmem, hrefuses⟩ := List.any_eq_true.mp hany
  have hkey : refusal.key = key := by
    cases refusal with
    | refused k direction => exact eq_of_beq (Bool.and_eq_true_iff.mp hrefuses).1
    | read => cases hrefuses
    | polled => cases hrefuses
  have hnone := h refusal (by rw [heq]; exact List.mem_append_left _ hmem)
  rw [hkey, hrefuses] at hnone
  cases hnone

/-- Client connections whose peer allows streams of both directions with its first packet. -/
def creditEnv : Env IdleConnection Unit RandomIdGenerator Unit :=
  { Observed.handshakeEnv with
    quiche :=
      { Observed.handshakeEnv.quiche with
        peerStreamsLeftBidi := fun c => if c.closed then 1 else 0
        peerStreamsLeftUni := fun c => if c.closed then 1 else 0 } }

/-- A client is refused a stream, and then receives two packets. -/
def refused (bidirectional : Bool) : List Operation :=
  [.connect "" QuicheBackend.peerAddr none, .streamOpenSend 0 bidirectional [] false,
    .recv [Observed.handshakePacket] [], .recv [Observed.handshakePacket] []]

/-- A bidirectional refusal is answered once. -/
theorem streams_available_bidi : ∃ s : Recorded IdleConnection Unit RandomIdGenerator Unit,
    s.history.length = 3 ∧ s.events.count (.connection (.streamsAvailable 0 true)) = 1 ∧
      ∀ key bidirectional, s.EdgeTriggered creditEnv.quiche key bidirectional := by
  obtain ⟨s, hs, hp⟩ := exists_idleClient creditEnv (refused true)
    (p := fun s => decide (s.history.length = 3) &&
      decide (s.events.count (.connection (.streamsAvailable 0 true)) = 1) &&
        s.history.all fun m => !m.refuses m.key false) (by decide +kernel)
  obtain ⟨hobserved, hnone⟩ := Bool.and_eq_true_iff.mp hp
  obtain ⟨hlength, hcount⟩ := Bool.and_eq_true_iff.mp hobserved
  refine ⟨s, of_decide_eq_true hlength, of_decide_eq_true hcount, ?_⟩
  apply (streams_available_iff hs).mpr
  apply renewed_of_not_refused
  intro m hm
  exact Bool.not_eq_true' _ |>.mp (List.all_eq_true.mp hnone m hm)

/-- **A unidirectional refusal is answered twice.** -/
theorem streams_announced_again : ∃ s : Recorded IdleConnection Unit RandomIdGenerator Unit,
    Reachable Init anyStep (exec creditEnv) s ∧ ¬ s.EdgeTriggered creditEnv.quiche 0 false := by
  obtain ⟨s, hs, hp⟩ := exists_idleClient creditEnv (refused false)
    (p := fun s => s.history.getLast?.any (Mark.announces 0 false) &&
      !since (Mark.refuses 0 false) (Mark.announces 0 false) s.history.dropLast) (by decide +kernel)
  obtain ⟨hlast, hsince⟩ := Bool.and_eq_true_iff.mp hp
  obtain ⟨m, hlast, hannounces⟩ := (Option.any_eq_true ..).mp hlast
  refine ⟨s, hs, ?_⟩
  intro hedge
  have hrefused := hedge.refused s.history.dropLast m [] (List.dropLast_append_getLast? m hlast).symm
    hannounces
  rw [hrefused] at hsince
  cases hsince

end Recorded

end Aquic.Backend.Quiche

import Aquic.Backend.Quiche.Establishment
import Aquic.Backend.Quiche.Polls

/-!
# Drained datagrams

An application reads the datagrams of a connection until a read reports that there is none, and then
waits for an `InAvailable` event. The connection remembers the report in `dgram_in_drained`, and
`write_stream_dgram_events` answers it at the next poll that finds the queue of received datagrams *not
full*.

Whether the queue is empty is never asked. So a poll that finds it empty wakes the application for
nothing, and one that finds it full lets the application wait. Besides, `dgram_recv` returns the length
of the datagram, and `0` is also its report that there is none: a reader of an empty datagram waits
although `dgram_in_drained` is not set.
-/

namespace Aquic.Backend.Quiche

open Aquic.Cid Aquic.Run Aquic.Trace

variable {Conn Cfg G T : Type}

/-! ## Marks about datagrams -/

namespace Mark

/-- A read that returned `0` or `None`: nothing is available. -/
def readsNothing (key : ConnectionKey) : Mark Conn → Bool
  | .read k outcome => k == key && decide (outcome ≠ .other)
  | _ => false

/-- A read that ended otherwise. -/
def readsOther (key : ConnectionKey) : Mark Conn → Bool
  | .read k outcome => k == key && decide (outcome = .other)
  | _ => false

/-- The number of `InAvailable` events. -/
def wakeUps (key : ConnectionKey) (m : Mark Conn) : Nat :=
  m.events.count (.datagram (.inAvailable key))

def wakes (key : ConnectionKey) (m : Mark Conn) : Bool := 0 < m.wakeUps key

/-- A poll that leaves datagrams in the queue. -/
def leavesData (queueLen : Conn → Nat) (key : ConnectionKey) : Mark Conn → Bool
  | .polled k _ after _ => k == key && queueLen after.inner != 0
  | _ => false

end Mark

namespace Recorded

/-! ## Readers -/

/-- **Waiting readers are woken, and only when there is data.** The history has all the events; a poll
that leaves datagrams in the queue after the last read reported nothing, with no event since, emits one;
and a poll that emits an event leaves datagrams in the queue. -/
structure WakesReaders (queueLen : Conn → Nat) (s : Recorded Conn Cfg G T) (key : ConnectionKey) :
    Prop where
  recorded : s.events.count (.datagram (.inAvailable key)) =
    (s.history.map (Mark.wakeUps key)).sum
  woken : Throughout (fun earlier m => m.leavesData queueLen key = true →
    since (Mark.readsNothing key) (fun m => m.readsOther key || m.wakes key) earlier = true →
      m.wakes key = true) s.history
  data : Throughout (fun _ m => m.wakes key = true → m.leavesData queueLen key = true) s.history

/-- The last read reported nothing, and no poll since then left a datagram and room for another. -/
def waiting (lib : Library Conn Cfg) (queueLen : Conn → Nat) (key : ConnectionKey)
    (history : List (Mark Conn)) : Bool :=
  since (Mark.readsNothing key)
    (fun m => m.readsOther key || (m.leavesData queueLen key && m.hasRoom lib key)) history

/-- quiche had no datagram for a read, and no poll since then found room in the queue. -/
def missing (lib : Library Conn Cfg) (key : ConnectionKey) (history : List (Mark Conn)) : Bool :=
  since (Mark.misses key) (Mark.hasRoom lib key) history

/-- **A poll comes in time**: if it leaves datagrams to a waiting reader, quiche had none for a read and
there is room in the queue now; and if quiche had none and there is room now, it leaves datagrams. -/
structure Timely (lib : Library Conn Cfg) (queueLen : Conn → Nat) (key : ConnectionKey)
    (earlier : List (Mark Conn)) (m : Mark Conn) : Prop where
  full : m.leavesData queueLen key = true → waiting lib queueLen key earlier = true →
    missing lib key earlier = true ∧ m.hasRoom lib key = true
  empty : missing lib key earlier = true → m.hasRoom lib key = true →
    m.leavesData queueLen key = true

/-- What a poll announces: datagrams, if there were none for a read and there is room now. -/
def Answered (lib : Library Conn Cfg) (earlier : List (Mark Conn)) (m : Mark Conn) : Prop :=
  ∀ key, m.wakeUps key = if missing lib key earlier && m.hasRoom lib key then 1 else 0

theorem KnownPoll.answered {lib : Library Conn Cfg} {earlier : List (Mark Conn)} {m : Mark Conn}
    (h : KnownPoll lib earlier m) : Answered lib earlier m := by
  intro key
  cases m with
  | refused => simp [Mark.wakeUps, Mark.events, Mark.hasRoom]
  | read => simp [Mark.wakeUps, Mark.events, Mark.hasRoom]
  | polled k before after events =>
    obtain ⟨hpolls, hwaits⟩ := h k before after events rfl
    rw [waits_eq] at hwaits
    have hdrained : before.dgramInDrained = missing lib k earlier := congrArg (·.2.2) hwaits
    show events.count _ = _
    rw [hpolls.datagrams, hdrained]
    by_cases hkey : key = k
    · subst hkey
      simp [Mark.hasRoom]
    · simp [Mark.hasRoom, hkey, Ne.symm hkey]

variable {lib : Library Conn Cfg} {queueLen : Conn → Nat} {key : ConnectionKey}
  {history : List (Mark Conn)} {earlier : List (Mark Conn)} {m : Mark Conn}

theorem Answered.wakes_iff (h : Answered lib earlier m) :
    m.wakes key = true ↔ missing lib key earlier = true ∧ m.hasRoom lib key = true := by
  unfold Mark.wakes
  rw [h key]
  split <;> simp_all

@[simp]
theorem waiting_concat (lib : Library Conn Cfg) (queueLen : Conn → Nat) (key : ConnectionKey)
    (history : List (Mark Conn)) (m : Mark Conn) : waiting lib queueLen key (history ++ [m]) =
      (m.readsNothing key || (waiting lib queueLen key history &&
        !(m.readsOther key || (m.leavesData queueLen key && m.hasRoom lib key)))) :=
  since_concat ..

/-- A poll in time wakes a waiting reader if it leaves a datagram and room for another. -/
theorem Timely.wakes_eq (htimely : Timely lib queueLen key earlier m) (h : Answered lib earlier m)
    (hwaiting : waiting lib queueLen key earlier = true) :
    m.wakes key = (m.leavesData queueLen key && m.hasRoom lib key) := by
  rw [Bool.eq_iff_iff, h.wakes_iff, Bool.and_eq_true]
  constructor
  · rintro ⟨hmissing, hroom⟩
    exact ⟨htimely.empty hmissing hroom, hroom⟩
  · rintro ⟨hdata, -⟩
    exact htimely.full hdata hwaiting

/-- After polls that came in time, the readers that wait for an event are those that wait for
datagrams. -/
theorem since_wakes (hanswered : Throughout (Answered lib) history)
    (htimely : Throughout (Timely lib queueLen key) history) :
    since (Mark.readsNothing key) (fun m => m.readsOther key || m.wakes key) history =
      waiting lib queueLen key history := by
  induction history using List.reverseRecOn with
  | nil => rfl
  | append_singleton history m ih =>
    obtain ⟨hhistory, hm⟩ := throughout_concat.mp hanswered
    obtain ⟨htimely, hpoll⟩ := throughout_concat.mp htimely
    rw [since_concat, waiting_concat, ih hhistory htimely]
    -- only a waiting reader can be woken; a poll in time closes both sides or neither
    cases hwaiting : waiting lib queueLen key history with
    | false => rfl
    | true => rw [hpoll.wakes_eq hm hwaiting]

/-- The two promises to the readers of a connection hold as long as all polls come in time. -/
theorem throughout_timely_iff (hanswered : Throughout (Answered lib) history) :
    Throughout (fun earlier m => m.leavesData queueLen key = true →
      since (Mark.readsNothing key) (fun m => m.readsOther key || m.wakes key) earlier = true →
        m.wakes key = true) history ∧
      Throughout (fun _ m => m.wakes key = true → m.leavesData queueLen key = true) history ↔
    Throughout (Timely lib queueLen key) history := by
  -- both sides are about every prefix; the step may use that the polls before came in time
  induction history using List.reverseRecOn with
  | nil => exact ⟨fun _ => throughout_nil _, fun _ => ⟨throughout_nil _, throughout_nil _⟩⟩
  | append_singleton history m ih =>
    obtain ⟨hhistory, hm⟩ := throughout_concat.mp hanswered
    have ih := ih hhistory
    simp only [throughout_concat]
    constructor
    · rintro ⟨⟨hwoken, hwakes⟩, hdata, hleaves⟩
      have htimely := ih.mp ⟨hwoken, hdata⟩
      rw [since_wakes hhistory htimely] at hwakes
      refine ⟨htimely, ?_, ?_⟩
      · intro hnonempty hwaiting
        exact hm.wakes_iff.mp (hwakes hnonempty hwaiting)
      · intro hmissing hroom
        exact hleaves (hm.wakes_iff.mpr ⟨hmissing, hroom⟩)
    · rintro ⟨htimely, hpoll⟩
      obtain ⟨hwoken, hdata⟩ := ih.mpr htimely
      rw [since_wakes hhistory htimely]
      refine ⟨⟨hwoken, ?_⟩, hdata, ?_⟩
      · intro hnonempty hwaiting
        exact hm.wakes_iff.mpr (hpoll.full hnonempty hwaiting)
      · intro hwakes
        obtain ⟨hmissing, hroom⟩ := hm.wakes_iff.mp hwakes
        exact hpoll.empty hmissing hroom

/-- **Readers are woken when there is data** in a run exactly if all polls come in time. -/
theorem in_available_iff {s : Recorded Conn Cfg G T} {env : Env Conn Cfg G T}
    (h : Reachable Init anyStep (exec env) s) (queueLen : Conn → Nat) :
    (∀ key, s.WakesReaders queueLen key) ↔
      ∀ key, Throughout (Timely env.quiche queueLen key) s.history := by
  have hknown := known h
  have hanswered : Throughout (Answered env.quiche) s.history := by
    intro earlier m later heq
    exact (hknown.polls earlier m later heq).answered
  constructor
  · intro hwakes key
    exact (throughout_timely_iff hanswered).mp ⟨(hwakes key).woken, (hwakes key).data⟩
  · intro htimely key
    obtain ⟨hwoken, hdata⟩ := (throughout_timely_iff hanswered).mpr (htimely key)
    refine ⟨?_, hwoken, hdata⟩
    rw [hknown.events _ rfl, List.count_flatMap]
    rfl

/-- Polls come in time if no read finds an empty datagram, and the queue is never left empty with room
nor full with a datagram. -/
theorem timely_of_partly_filled
    (hreads : ∀ m ∈ history, m.readsNothing m.key = m.misses m.key)
    (hpolls : ∀ m ∈ history, m.leavesData queueLen m.key = m.hasRoom lib m.key)
    (key : ConnectionKey) : Throughout (Timely lib queueLen key) history := by
  have hread {m : Mark Conn} (hm : m ∈ history) : m.readsNothing key = m.misses key := by
    have hm := hreads m hm
    cases m <;> simp_all [Mark.readsNothing, Mark.misses, Mark.key]
  have hpoll {m : Mark Conn} (hm : m ∈ history) :
      m.leavesData queueLen key = m.hasRoom lib key := by
    have hm := hpolls m hm
    cases m <;> simp_all [Mark.leavesData, Mark.hasRoom, Mark.key]
  intro earlier m later heq
  have hmem : m ∈ history := by simp [heq]
  have hearlier {m : Mark Conn} (hm : m ∈ earlier) : m ∈ history := by simp [heq, hm]
  constructor
  · -- what ends `missing` ends `waiting` as well, as no poll finds room in an empty queue
    intro hdata hwaiting
    rw [hpoll hmem] at hdata
    refine ⟨since_mono ?_ ?_ hwaiting, hdata⟩
    · intro m hm hreads
      rw [← hread (hearlier hm)]
      exact hreads
    · intro m hm hroom
      rw [hpoll (hearlier hm), hroom]
      exact Bool.or_true _
  · intro _ hroom
    rw [hpoll hmem]
    exact hroom

/-! ## One datagram -/

/-- The datagrams that a connection has received and not given away. -/
def queued (c : IdleConnection) : Nat := if c.closed then 1 else 0

/-- Client connections whose first packet brings a datagram. They are not closed; the flag of idle
connections says that the datagram is there. -/
def queueEnv (capacity : Nat) : Env IdleConnection Unit RandomIdGenerator Unit :=
  { Observed.handshakeEnv with
    quiche :=
      { Observed.handshakeEnv.quiche with
        isEstablished := fun _ => false
        dgramRecvVec := fun c =>
          ({ c with closed := false }, if c.closed then .ok [1] else .error .done)
        isDgramRecvQueueFull := fun c => decide (capacity ≤ queued c) } }

/-- A client whose reader finds no datagram, and one more operation. -/
def drained (op : Operation) : List Operation :=
  [.connect "" QuicheBackend.peerAddr none, .dgramRecvZc 0, op]

/-- **A reader is woken by its datagram** if the queue has room for another. -/
theorem in_available_partly_filled : ∃ s : Recorded IdleConnection Unit RandomIdGenerator Unit,
    s.events.count (.datagram (.inAvailable 0)) = 1 ∧ ∀ key, s.WakesReaders queued key := by
  obtain ⟨s, hs, hp⟩ := exists_idleClient (queueEnv 2) (drained (.recv [Observed.handshakePacket] []))
    (p := fun s => decide (s.events.count (.datagram (.inAvailable 0)) = 1) &&
      s.history.all fun m => m.readsNothing m.key == m.misses m.key &&
        m.leavesData queued m.key == m.hasRoom (queueEnv 2).quiche m.key) (by decide +kernel)
  obtain ⟨hcount, hfilled⟩ := Bool.and_eq_true_iff.mp hp
  refine ⟨s, of_decide_eq_true hcount, ?_⟩
  apply (in_available_iff hs queued).mpr
  apply timely_of_partly_filled
  · intro m hm
    exact eq_of_beq (Bool.and_eq_true_iff.mp (List.all_eq_true.mp hfilled m hm)).1
  · intro m hm
    exact eq_of_beq (Bool.and_eq_true_iff.mp (List.all_eq_true.mp hfilled m hm)).2

/-- **A reader sleeps while the queue is full, and is woken while it is empty.** The queue has room for
one datagram. -/
theorem in_available_untimely :
    (∃ s : Recorded IdleConnection Unit RandomIdGenerator Unit,
      Reachable Init anyStep (exec (queueEnv 1)) s ∧
        s.events.count (.datagram (.inAvailable 0)) = 0 ∧ ¬ s.WakesReaders queued 0) ∧
    ∃ s : Recorded IdleConnection Unit RandomIdGenerator Unit,
      Reachable Init anyStep (exec (queueEnv 1)) s ∧
        s.events.count (.datagram (.inAvailable 0)) = 1 ∧ ¬ s.WakesReaders queued 0 := by
  constructor
  · -- the packet fills the queue, and nobody is told
    obtain ⟨s, hs, hp⟩ := exists_idleClient (queueEnv 1) (drained (.recv [Observed.handshakePacket] []))
      (p := fun s => decide (s.events.count (.datagram (.inAvailable 0)) = 0) &&
        s.history.getLast?.any fun m => m.leavesData queued 0 && !m.wakes 0 &&
          since (Mark.readsNothing 0) (fun m => m.readsOther 0 || m.wakes 0) s.history.dropLast)
      (by decide +kernel)
    obtain ⟨hcount, hlast⟩ := Bool.and_eq_true_iff.mp hp
    refine ⟨s, hs, of_decide_eq_true hcount, ?_⟩
    intro hwakes
    obtain ⟨m, hm, hlast⟩ := (Option.any_eq_true ..).mp hlast
    obtain ⟨hlast, hwaiting⟩ := Bool.and_eq_true_iff.mp hlast
    obtain ⟨hdata, hsilent⟩ := Bool.and_eq_true_iff.mp hlast
    have hwoken := hwakes.woken s.history.dropLast m [] (List.dropLast_append_getLast? m hm).symm
      hdata hwaiting
    rw [hwoken] at hsilent
    cases hsilent
  · -- the first poll after the read announces what is not there
    obtain ⟨s, hs, hp⟩ := exists_idleClient (queueEnv 1) (drained (.send []))
      (p := fun s => decide (s.events.count (.datagram (.inAvailable 0)) = 1) &&
        s.history.getLast?.any fun m => m.wakes 0 && !m.leavesData queued 0) (by decide +kernel)
    obtain ⟨hcount, hlast⟩ := Bool.and_eq_true_iff.mp hp
    refine ⟨s, hs, of_decide_eq_true hcount, ?_⟩
    intro hwakes
    obtain ⟨m, hm, hlast⟩ := (Option.any_eq_true ..).mp hlast
    obtain ⟨hwoken, hempty⟩ := Bool.and_eq_true_iff.mp hlast
    have hdata := hwakes.data s.history.dropLast m [] (List.dropLast_append_getLast? m hm).symm
      hwoken
    rw [hdata] at hempty
    cases hempty

end Recorded

end Aquic.Backend.Quiche

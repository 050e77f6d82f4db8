import Aquic.Backend.Quiche.Follows

/-!
# Established connections

`ConnectionEvent::Established` says that a connection is fully established. The quinn backend pushes it
when quinn reports `Connected`. The quiche backend has a place for it,
`check_connection_handshake_progress`, which is called after `Handshake` packets and looks at
`is_established()`; it cancels the establishment timeout there, stores the session and allocates spare
ids, and pushes nothing. No other code does.
-/

namespace Aquic.Backend.Quiche

open Aquic.Cid Aquic.Net Aquic.Run

/-- The number of `Established` events of a connection. -/
def establishments (key : ConnectionKey) (events : List (Event ConnectionKey)) : Nat :=
  events.countP fun e => e.establishes = some key

namespace QuicheBackend

variable {Conn Cfg G T : Type} (env : Env Conn Cfg G T)

/-- The live connections that are established. -/
def establishedKeys (b : QuicheBackend Conn Cfg G T) : List ConnectionKey :=
  (List.range b.connections.all.slots.length).filter fun key =>
    (b.connections.get key).any fun c => env.quiche.isEstablished c.inner

/-- The connections that are established at some point of a call of `recv`: before it, or after some of
the packets. -/
def establishedDuring (b : QuicheBackend Conn Cfg G T) (inPackets : List Packet)
    (outMessages : List Message) : List ConnectionKey :=
  (List.range (inPackets.length + 1)).flatMap fun n =>
    match b.recv env (inPackets.take n) outMessages with
    | none => []
    | some (b, _, _) => b.establishedKeys env

end QuicheBackend

/-- A backend in use, with a history of the connections that were established during a call of
`recv`. -/
structure Observed (Conn Cfg G T : Type) where
  running : Running Conn Cfg G T
  established : List ConnectionKey

namespace Observed

variable {Conn Cfg G T : Type} (env : Env Conn Cfg G T)

def Init (s : Observed Conn Cfg G T) : Prop := s.running.Init ∧ s.established = []

def exec (s : Observed Conn Cfg G T) (op : Operation) : Option (Observed Conn Cfg G T) :=
  (s.running.exec env op).map fun running =>
    { running
      established :=
        match op with
        | .recv inPackets outMessages =>
          s.established ++ s.running.backend.establishedDuring env inPackets outMessages
        | _ => s.established }

/-- **Establishment is announced exactly once**, by the end of the call of `recv` in which it happened,
and for no other connection. -/
def AnnouncedOnce (s : Observed Conn Cfg G T) : Prop :=
  ∀ key, establishments key (s.running.consumed ++ s.running.backend.events) =
    if key ∈ s.established then 1 else 0

variable {env}

theorem reachable_running {s : Observed Conn Cfg G T} (h : Reachable Init anyStep (exec env) s) :
    Reachable Running.Init anyStep (Running.exec env) s.running := by
  induction h with
  | init hinit => exact .init hinit.1
  | step _ _ hexec ih =>
    obtain ⟨running, hrunning, rfl⟩ := Option.map_eq_some_iff.mp hexec
    exact ih.step trivial hrunning

/-- No step of the backend pushes an `Established` event. -/
theorem establishes_eq_none {s : Running Conn Cfg G T}
    (h : Reachable Running.Init anyStep (Running.exec env) s) :
    ∀ e ∈ s.consumed ++ s.backend.events, e.establishes = none := by
  refine Running.ledger_invariant env (P := fun g => ∀ e ∈ g.events, e.establishes = none)
    ?_ ?_ ?_ ?_ h
  · exact fun _ e he => absurd he List.not_mem_nil
  · intro g g' hstep hquiet
    have happend {events : List (Event ConnectionKey)}
        (hevents : ∀ e ∈ events, e.establishes = none) :
        ∀ e ∈ g.events ++ events, e.establishes = none := by
      intro e he
      rcases List.mem_append.mp he with he | he
      · exact hquiet e he
      · exact hevents e he
    cases hstep with
    | push hroutine => exact happend fun e he => (hroutine e he).2
    | register hfree isServer =>
      refine happend fun e he => ?_
      obtain rfl := List.mem_singleton.mp he
      rfl
    | report hget hunsent hterminates =>
      refine happend fun e he => ?_
      obtain rfl := List.mem_singleton.mp he
      exact Event.establishes_of_terminates hterminates
    | schedule hget kind hschedule => exact hquiet
    | unschedule hget kind => exact hquiet
    | forget hget hsent htimers => exact hquiet
  · exact fun g events hperm hquiet e he => hquiet e (hperm.mem_iff.mp he)
  · exact fun g timer hquiet => hquiet

theorem establishments_eq_zero {s : Observed Conn Cfg G T}
    (h : Reachable Init anyStep (exec env) s) (key : ConnectionKey) :
    establishments key (s.running.consumed ++ s.running.backend.events) = 0 := by
  refine List.countP_eq_zero.mpr fun e he => ?_
  rw [establishes_eq_none (reachable_running h) e he]
  exact fun hnone => absurd (of_decide_eq_true hnone) (Option.some_ne_none key).symm

/-- **Establishment is announced as long as there is none**: in every state of every run, the
announcements are right if and only if no connection has been established. -/
theorem announced_iff {s : Observed Conn Cfg G T} (h : Reachable Init anyStep (exec env) s) :
    s.AnnouncedOnce ↔ s.established = [] := by
  unfold AnnouncedOnce
  simp only [establishments_eq_zero h]
  constructor
  · intro hnone
    refine List.eq_nil_iff_forall_not_mem.mpr fun key hkey => ?_
    have hone := hnone key
    rw [if_pos hkey] at hone
    exact absurd hone Nat.zero_ne_one
  · intro hnil key
    rw [hnil, if_neg List.not_mem_nil]

/-- A connection that is never established. -/
theorem announced_iff_idle :
    ∃ s : Observed IdleConnection Unit RandomIdGenerator Unit,
      s.running.backend.connections.get 0 ≠ none ∧ s.AnnouncedOnce := by
  have hrun : ∃ s : Observed IdleConnection Unit RandomIdGenerator Unit,
      Reachable Init anyStep (exec QuicheBackend.idleEnv) s ∧
        decide (s.running.backend.connections.get 0 ≠ none ∧ s.established = []) = true :=
    exists_reachable (Running.idleClient.map (⟨⟨·, []⟩, []⟩)) (fun s hs => by
        obtain ⟨b, hb, rfl⟩ := Option.map_eq_some_iff.mp hs
        exact ⟨Running.idleClient_init hb, rfl⟩)
      [.connect "" QuicheBackend.peerAddr none, .recv [] []]
      (by decide +kernel)
  obtain ⟨s, hs, hstate⟩ := hrun
  obtain ⟨hlive, hnone⟩ := of_decide_eq_true hstate
  exact ⟨s, hlive, (announced_iff hs).mpr hnone⟩

/-! ## A handshake -/

/-- The header of a `Handshake` packet. -/
def handshakeHeader : List UInt8 → Option Header
  | first :: 0 :: 0 :: 0 :: 1 :: rest => do
    if first &&& 0xf0 ≠ 0xe0 then none
    let (dcid, rest) ← takePrefixed rest
    let (scid, _) ← takePrefixed rest
    some { ty := .handshake, version := 1, dcid, scid, token := none }
  | _ => none

/-- Client connections that are established by the first packet. They are not closed; the flag of idle
connections says that the handshake is complete. -/
def handshakeEnv : Env IdleConnection Unit RandomIdGenerator Unit :=
  { QuicheBackend.idleEnv with
    quiche :=
      { idleLibrary with
        headerFromSlice := fun buf _ => handshakeHeader buf
        isServer := fun _ => false
        isEstablished := IdleConnection.closed
        isClosed := fun _ => false
        isDraining := fun _ => false
        recv := fun c payload _ => ({ c with closed := true }, .ok payload.length) } }

/-- A `Handshake` packet to the first connection of a client. -/
def handshakePacket : Packet where
  fromAddr := QuicheBackend.peerAddr
  toAddr := .localhost
  ecn := .nEct
  payload := [0xe0, 0, 0, 0, 1, 8, 0, 1, 2, 3, 4, 5, 6, 7, 0]

/-- **A client that completes its handshake** is not told that its connection is established. -/
theorem established_silently :
    ∃ s : Observed IdleConnection Unit RandomIdGenerator Unit,
      Reachable Init anyStep (exec handshakeEnv) s ∧ 0 ∈ s.established ∧ ¬ s.AnnouncedOnce := by
  have hrun : ∃ s : Observed IdleConnection Unit RandomIdGenerator Unit,
      Reachable Init anyStep (exec handshakeEnv) s ∧ decide (0 ∈ s.established ∧
        establishments 0 (s.running.consumed ++ s.running.backend.events) = 0) = true :=
    exists_reachable (Running.idleClient.map (⟨⟨·, []⟩, []⟩)) (fun s hs => by
        obtain ⟨b, hb, rfl⟩ := Option.map_eq_some_iff.mp hs
        exact ⟨Running.idleClient_init hb, rfl⟩)
      [.connect "" QuicheBackend.peerAddr none, .recv [handshakePacket] []]
      (by decide +kernel)
  obtain ⟨s, hs, hstate⟩ := hrun
  obtain ⟨hestablished, hnone⟩ := of_decide_eq_true hstate
  refine ⟨s, hs, hestablished, fun honce => ?_⟩
  have hone := honce 0
  rw [hnone, if_pos hestablished] at hone
  exact absurd hone Nat.zero_ne_one

end Observed

end Aquic.Backend.Quiche

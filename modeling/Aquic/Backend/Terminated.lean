import Aquic.Backend.Quiche.Follows
import Aquic.Backend.Quinn.Follows

/-!
# Every connection ends with one terminal event

Both backends go through the steps of a roster, which balances announcements and terminal events. What
is left to say is how often one id is announced. The quiche backend never uses a key twice. The quinn
backend uses handles again, and tells connections under one handle apart by a version of 32 bits: an id
comes back after `2 ^ 32` connections, and with it a second terminal event.
-/

namespace Aquic.Backend

open Aquic.Collections Aquic.Net Aquic.Run Aquic.Timer

/-! ## How often an id is announced -/

namespace Quiche.Ledger

/-- Keys are used one after the other. -/
def Numbered (g : Ledger) : Prop :=
  ∀ key, introductions key g.events = if key < g.nextKey then 1 else 0

theorem Step.numbered {g g' : Ledger} (hstep : Step g g') (h : g.Numbered) : g'.Numbered := by
  have hquiet {events : List (Event ConnectionKey)} (hevents : ∀ e ∈ events, e.introduces = none) :
      ∀ key, introductions key (g.events ++ events) = if key < g.nextKey then 1 else 0 := by
    intro key
    rw [← h key]
    exact countP_introduces_append hevents (· = some key) rfl
  cases hstep with
  | push hroutine => exact hquiet fun e he => (hroutine e he).1.introduces
  | register hfree isServer =>
    intro key
    have hold := h key
    show introductions key (g.events ++ [_]) = if key < g.nextKey + 1 then 1 else 0
    unfold introductions at hold ⊢
    rw [List.countP_append, hold]
    by_cases hkey : key = g.nextKey
    · subst hkey
      simp [Event.introduces]
    · have hlt : key < g.nextKey + 1 ↔ key < g.nextKey :=
        Nat.lt_succ_iff_lt_or_eq.trans (or_iff_left hkey)
      simp [Event.introduces, hlt, Ne.symm hkey]
  | report hget hunsent hterminates =>
    refine hquiet fun e he => ?_
    obtain rfl := List.mem_singleton.mp he
    exact Event.introduces_of_terminates hterminates
  | schedule hget kind hschedule => exact h
  | unschedule hget kind => exact h
  | forget hget hsent htimers => exact h

end Quiche.Ledger

namespace Quinn.Ledger

/-- The version counts the connections, so that no id is used twice until it wraps. -/
structure Numbered (g : Ledger) : Prop where
  version : g.versionSequence = UInt32.ofNat (registrations g.events)
  unique : registrations g.events ≤ 2 ^ 32 → ∀ id, introductions id g.events ≤ 1 ∧
    (0 < introductions id g.events → id.version.toNat < registrations g.events)

theorem Numbered.of_quiet {g g' : Ledger} (h : g.Numbered)
    (hversion : g'.versionSequence = g.versionSequence) {events : List (Event QuinnConnectionId)}
    (happend : g'.events = g.events ++ events) (hevents : ∀ e ∈ events, e.introduces = none) :
    g'.Numbered := by
  have hregistrations : registrations g'.events = registrations g.events := by
    rw [happend]
    exact countP_introduces_append hevents Option.isSome rfl
  have hintroductions (id : QuinnConnectionId) :
      introductions id g'.events = introductions id g.events := by
    rw [happend]
    exact countP_introduces_append hevents (· = some id) rfl
  refine ⟨?_, ?_⟩
  · rw [hversion, hregistrations]
    exact h.version
  · simp only [hregistrations, hintroductions]
    exact h.unique

theorem Step.numbered {g g' : Ledger} (hstep : Step g g') (h : g.Numbered) : g'.Numbered := by
  cases hstep with
  | push hordinary => exact h.of_quiet rfl rfl fun e he => (hordinary e he).introduces
  | @register key hfree isServer =>
    have hregistrations : registrations (g.events ++
        [.connection (.new ⟨key, g.versionSequence⟩ isServer)]) = registrations g.events + 1 := by
      unfold registrations
      rw [List.countP_append]
      rfl
    refine ⟨?_, fun hfits id => ?_⟩
    · show g.versionSequence + 1 = UInt32.ofNat (registrations (g.events ++ [_]))
      rw [hregistrations, h.version, UInt32.ofNat_add]
      rfl
    · replace hfits : registrations (g.events ++ [_]) ≤ 2 ^ 32 := hfits
      show introductions id (g.events ++ [_]) ≤ 1 ∧ (0 < introductions id (g.events ++ [_]) →
        id.version.toNat < registrations (g.events ++ [_]))
      rw [hregistrations] at hfits ⊢
      obtain ⟨hunique, hversion⟩ := h.unique (by omega) id
      -- the counter has not wrapped, and so it is a new version
      have hsequence : g.versionSequence.toNat = registrations g.events := by
        rw [h.version, UInt32.toNat_ofNat']
        exact Nat.mod_eq_of_lt (by omega)
      unfold introductions at hunique hversion ⊢
      rw [List.countP_append]
      by_cases hid : id = ⟨key, g.versionSequence⟩
      · have hnone : g.events.countP (fun e => e.introduces = some id) = 0 := by
          refine Nat.eq_zero_of_not_pos fun hpos => ?_
          have hlt := hversion hpos
          rw [hid, hsequence] at hlt
          exact lt_irrefl _ hlt
        rw [hnone, hid]
        simp [Event.introduces, hsequence]
      · simp only [List.countP_singleton, Event.introduces, Option.some.injEq, Ne.symm hid,
          decide_false, Bool.false_eq_true, if_false, Nat.add_zero]
        exact ⟨hunique, fun hpos => (hversion hpos).trans (Nat.lt_succ_self _)⟩
  | report hunsent hterminates =>
    refine h.of_quiet rfl rfl fun e he => ?_
    obtain rfl := List.mem_singleton.mp he
    exact Event.introduces_of_terminates hterminates
  | forget hsent => exact h.of_quiet rfl (List.append_nil _).symm (by simp)
  | replace id => exact h.of_quiet rfl (List.append_nil _).symm (by simp)

theorem Numbered.perm {g : Ledger} (h : g.Numbered) {events : List (Event QuinnConnectionId)}
    (hperm : events.Perm g.events) : { g with events }.Numbered := by
  have hregistrations : registrations events = registrations g.events := hperm.countP_eq _
  have hintroductions (id : QuinnConnectionId) :
    introductions id events = introductions id g.events := hperm.countP_eq _
  refine ⟨?_, ?_⟩
  · simp only [hregistrations]
    exact h.version
  · simp only [hregistrations, hintroductions]
    exact h.unique

end Quinn.Ledger

/-! ## Runs -/

/-- In the quiche backend a key is announced at most once, and every announcement is balanced. -/
theorem Quiche.Running.ledger_balanced {Conn Cfg G T : Type} {env : Quiche.Env Conn Cfg G T}
    {s : Quiche.Running Conn Cfg G T}
    (h : Reachable Quiche.Running.Init anyStep (Quiche.Running.exec env) s) :
    s.ledger.Numbered ∧ s.ledger.roster.Balanced := by
  refine Quiche.Running.ledger_invariant env (P := fun g => g.Numbered ∧ g.roster.Balanced)
    ?_ ?_ ?_ ?_ h
  · exact fun timer => ⟨fun key => rfl, fun _ key => rfl⟩
  · rintro g g' hstep ⟨hnumbered, hbalanced⟩
    exact ⟨hstep.numbered hnumbered, hbalanced.steps hstep.roster⟩
  · rintro g events hperm ⟨hnumbered, hbalanced⟩
    refine ⟨fun key => ?_, hbalanced.perm hperm⟩
    exact (hperm.countP_eq _).trans (hnumbered key)
  · exact fun g timer h => h

theorem Quinn.Running.ledger_balanced {Conn End Cfg Incoming Signal Report : Type}
    {env : Quinn.Env Conn End Cfg Incoming Signal Report} {s : Quinn.Running Conn End Cfg}
    (h : Reachable Quinn.Running.Init anyStep (Quinn.Running.exec env) s) :
    s.ledger.Numbered ∧ s.ledger.roster.Balanced := by
  refine Quinn.Running.ledger_invariant env (P := fun g => g.Numbered ∧ g.roster.Balanced)
    ?_ ?_ ?_ h
  · exact ⟨⟨rfl, fun _ id => ⟨Nat.zero_le _, fun hpos => absurd hpos (lt_irrefl 0)⟩⟩, fun _ id => rfl⟩
  · rintro g g' hstep ⟨hnumbered, hbalanced⟩
    exact ⟨hstep.numbered hnumbered, hstep.roster.balanced hbalanced⟩
  · rintro g events hperm ⟨hnumbered, hbalanced⟩
    exact ⟨hnumbered.perm hperm, hbalanced.perm hperm⟩

/-- **Exactly one terminal event per connection.** In the quiche backend, each connection gets at most
one `Closed` or `Halted` event, and has got it when it is not registered any more. So it is in the quinn
backend, as long as no handle is handed out twice, until the versions of its ids wrap; after that, an id
gets as many terminal events as connections were registered under it, one for each. -/
theorem terminal_event_once :
    (∀ (Conn Cfg G T : Type) (env : Quiche.Env Conn Cfg G T) (s : Quiche.Running Conn Cfg G T),
      Reachable Quiche.Running.Init anyStep (Quiche.Running.exec env) s →
      ∀ key, EndedOnce key (s.backend.connections.get key).isSome
        (s.consumed ++ s.backend.events)) ∧
    ∀ (Conn End Cfg Incoming Signal Report : Type)
      (env : Quinn.Env Conn End Cfg Incoming Signal Report) (s : Quinn.Running Conn End Cfg),
      Reachable Quinn.Running.Init anyStep (Quinn.Running.exec env) s →
      s.backend.replaced = [] →
      ∀ id,
        terminations id (s.consumed ++ s.backend.events) ≤
          introductions id (s.consumed ++ s.backend.events) ∧
        (s.backend.connections.get id = none →
          terminations id (s.consumed ++ s.backend.events) =
            introductions id (s.consumed ++ s.backend.events)) ∧
        (registrations (s.consumed ++ s.backend.events) ≤ 2 ^ 32 →
          EndedOnce id (s.backend.connections.get id).isSome
            (s.consumed ++ s.backend.events)) := by
  constructor
  · intro Conn Cfg G T env s hs key
    obtain ⟨hnumbered, hbalanced⟩ := Quiche.Running.ledger_balanced hs
    have hle := hbalanced.terminations_le rfl key
    have hone := hnumbered key
    refine ⟨hle.trans ?_, fun hpos hgone => ?_⟩
    · show introductions key s.ledger.events ≤ 1
      rw [hone]
      split <;> omega
    · have hsent : s.ledger.roster.sent key = none := by
        show ((s.backend.connections.get key).map _).map _ = none
        rw [Option.not_isSome_iff_eq_none.mp hgone]
        rfl
      rw [show terminations key (s.consumed ++ s.backend.events) = introductions key s.ledger.events
        from hbalanced.terminations_eq rfl hsent]
      replace hpos : 0 < introductions key s.ledger.events := hpos
      rw [hone] at hpos ⊢
      split at hpos
      · exact if_pos ‹_›
      · exact absurd hpos (lt_irrefl 0)
  · intro Conn End Cfg Incoming Signal Report env s hs hreplaced id
    obtain ⟨hnumbered, hbalanced⟩ := Quinn.Running.ledger_balanced hs
    have hle := hbalanced.terminations_le hreplaced id
    have heq (hgone : s.backend.connections.get id = none) :
        terminations id (s.consumed ++ s.backend.events) =
          introductions id (s.consumed ++ s.backend.events) := by
      refine hbalanced.terminations_eq hreplaced ?_
      show (s.backend.connections.get id).map _ = none
      rw [hgone]
      rfl
    refine ⟨hle, heq, fun hfits => ?_⟩
    obtain ⟨hunique, -⟩ := hnumbered.unique hfits id
    refine ⟨hle.trans hunique, fun hpos hgone => ?_⟩
    rw [heq (Option.not_isSome_iff_eq_none.mp hgone)]
    exact le_antisymm hunique hpos

/-! ## An id that comes back -/

namespace Quinn

/-- A connection that its peer resets with the first packet. -/
inductive Fragile where
  | opened
  | lost
  | drained
  deriving DecidableEq, Repr

/-- The library of fragile connections. -/
def fragileLibrary : Library Fragile where
  isDrained c := c != .opened
  isClosed c := c != .opened
  isServer _ := false
  currentMtu _ := 1200
  close c _ _ _ := c
  handleTimeout c _ := c
  pollTimeout c := (c, none)
  pollTransmit c _ _ := (c, none)
  poll c := if c = .lost then (.drained, some (.connectionLost .reset)) else (c, none)
  localAddressChanged c := c
  pathChanged c _ := c
  openStream c _ := (c, none)
  acceptStream c _ := (c, none)
  readStream c _ := (c, .error .closedStream)
  nextChunk c _ _ := (c, .error .blocked)
  writeChunk c _ _ := (c, .error .closedStream)
  finish c _ := (c, .error .closedStream)
  stop c _ _ := c
  reset c _ _ := c
  setPriority c _ _ := c
  recvDatagram c := (c, none)
  sendDatagram c _ := (c, .error .unsupportedByPeer)
  datagramMaxSize _ := none
  display _ := "error"

/-- An endpoint for one connection at a time, always under the same handle. -/
def fragileEndpoint : EndpointLibrary Fragile Unit Unit Unit Unit Unit where
  connect _ _ _ _ _ := ((), .ok (0, .opened))
  handle _ _ _ _ _ _ := ((), some (.connectionEvent 0 ()), [])
  handleEvent _ _ _ := ((), none)
  ignore _ _ := ()
  retry _ incoming := ((), .error incoming)
  accept _ _ _ _ := ((), .error none)
  remoteAddressValidated _ := true
  deliver _ _ := .lost
  -- the endpoint is told when a connection is drained
  pollEndpointEvents c := (c, if c = .opened then [] else [()])

def fragileEnv : Env Fragile Unit Unit Unit Unit Unit where
  quinn := fragileLibrary
  endpoint := fragileEndpoint

def fragilePeer : SocketAddr := ⟨.localhost, 443⟩

def resetPacket : Packet := ⟨fragilePeer, .localhost, .nEct, []⟩

namespace Running

/-- A client between two connections. -/
def fragileClient (versionSequence : UInt32) (slots : List (Option (Connection Fragile)))
    (events : List (Event QuinnConnectionId)) (calls : List Call) : Running Fragile Unit Unit where
  backend :=
    { connections := { all := ⟨slots⟩, active := .empty, versionSequence }
      io := { primaryBuffers := [], listenAddr := .localhost }
      time := .new .zero
      events
      calls
      config := { client := some (), server := none }
      endpoint := ()
      reservedBuffers := [1500]
      isOpen := true
      replaced := [] }
  consumed := []

/-- The client has a connection. -/
def fragileLink (version : UInt32) (events : List (Event QuinnConnectionId)) (calls : List Call) :
    Running Fragile Unit Unit :=
  let client := fragileClient (version + 1) [some (.new .opened version)] events calls
  { client with
    backend :=
      { client.backend with
        connections := { client.backend.connections with active := LinkedHashSet.empty.replace 0 } } }

theorem fragileClient_connect {slots : List (Option (Connection Fragile))}
    (hslots : slots = [] ∨ slots = [none]) (version : UInt32)
    (events : List (Event QuinnConnectionId)) (calls : List Call) :
    exec fragileEnv (fragileClient version slots events calls) (.connect "" fragilePeer) =
      some (fragileLink version (events ++ [.connection (.new ⟨0, version⟩ false)]) calls) := by
  have hlink : (EndpointBackend.registerNewConnection fragileEnv
      (fragileClient version slots events calls).backend 0 .opened).1 =
      (fragileLink version (events ++ [.connection (.new ⟨0, version⟩ false)]) calls).backend := by
    rcases hslots with rfl | rfl <;>
      simp [EndpointBackend.registerNewConnection, fragileClient, fragileLink, fragileEnv,
        fragileLibrary, Connections.insertRaw, Connections.removeRaw, Slots.get, Slots.insert,
        Connection.new, QuinnBackend.scheduleQuinnTimeout, Connections.get, QuinnBackend.put,
        Connections.put, Slots.set, QuinnBackend.push, Option.filter_some]
  show some (Running.mk _ []) = _
  exact congrArg (fun b => some (Running.mk b [])) hlink

theorem fragileLink_reset (version : UInt32) (events : List (Event QuinnConnectionId))
    (calls : List Call) :
    exec fragileEnv (fragileLink version events calls) (.recv [resetPacket] [] 3) =
      some (fragileClient (version + 1) [none]
        (events ++ [.connection (.halted ⟨0, version⟩ .statelessReset)]) (calls ++ [.forget 0])) := by
  have hempty : (((LinkedHashSet.empty.replace 0).replace 0).replace 0).remove 0 =
    LinkedHashSet.empty := rfl
  simp [exec, call, fragileLink, fragileClient, EndpointBackend.recv, EndpointBackend.recvLoop,
    fragileEnv, fragileEndpoint, fragileLibrary, EndpointBackend.handleQuinnDatagramEvent,
    EndpointBackend.handleQuinnConnectionEvent, Connections.getMarkActiveRaw, Slots.get,
    Connection.new, EndpointBackend.deliverLoop, QuinnBackend.put, Connections.put, Slots.set,
    QuinnBackend.drainEvents, QuinnBackend.pollLoop, Connections.get, Connection.id,
    QuinnBackend.handleQuinnEvent, QuinnBackend.handleQuinnConnectionLostEvent,
    Connections.getMarkActive, Connection.getLostEvent, Connection.getHaltEvent, QuinnBackend.push,
    QuinnBackend.forgetConnection, Connections.remove, Connections.removeRaw, Slots.remove,
    QuinnBackend.log, EndpointBackend.returnBuffer, Option.filter_some, hempty]

/-- After `n` connections, one after the other. The first of them has ended. -/
theorem fragileClient_reachable (n : Nat) :
    ∃ slots events calls, (slots = [] ∨ slots = [none]) ∧
      Reachable Init anyStep (exec fragileEnv)
        (fragileClient (UInt32.ofNat n) slots events calls) ∧
      (0 < n → 0 < terminations ⟨0, 0⟩ events) := by
  induction n with
  | zero =>
    exact ⟨[], [], [], .inl rfl, .init ⟨rfl, { client := some (), server := none }, (), [], [1500],
      .localhost, .zero, rfl⟩, fun h => absurd h (lt_irrefl 0)⟩
  | succ n ih =>
    obtain ⟨slots, events, calls, hslots, hreach, hended⟩ := ih
    have hlink := hreach.step trivial (fragileClient_connect hslots (UInt32.ofNat n) events calls)
    have hreset := hlink.step trivial (fragileLink_reset ..)
    rw [show UInt32.ofNat n + 1 = UInt32.ofNat (n + 1) from (UInt32.ofNat_add n 1).symm] at hreset
    refine ⟨_, _, _, .inr rfl, hreset, fun _ => ?_⟩
    unfold terminations at hended ⊢
    rw [List.countP_append, List.countP_append]
    rcases Nat.eq_zero_or_pos n with rfl | hpos
    · exact Nat.add_pos_right _ Nat.one_pos
    · exact Nat.add_pos_left (Nat.add_pos_left (hended hpos) _) _

/-- **A version that wraps brings an id back**: the `2 ^ 32 + 1`st connection has the id of the first,
and each of them gets its terminal event. -/
theorem terminal_event_repeated :
    ∃ s : Running Fragile Unit Unit, Reachable Init anyStep (exec fragileEnv) s ∧
      s.backend.replaced = [] ∧ 1 < terminations ⟨0, 0⟩ (s.consumed ++ s.backend.events) := by
  obtain ⟨slots, events, calls, hslots, hreach, hended⟩ := fragileClient_reachable (2 ^ 32)
  rw [show UInt32.ofNat (2 ^ 32) = 0 from rfl] at hreach
  have hlink := hreach.step trivial (fragileClient_connect hslots 0 events calls)
  refine ⟨_, hlink.step trivial (fragileLink_reset ..), rfl, ?_⟩
  have hfirst := hended (by decide)
  show 1 < terminations ⟨0, 0⟩ (events ++ [_] ++ [_])
  unfold terminations at hfirst ⊢
  rw [List.countP_append, List.countP_append]
  exact Nat.lt_add_of_pos_left (Nat.add_pos_left hfirst _)

end Running

end Quinn

/-- A connection of each backend that is closed and forgotten. -/
theorem terminal_event_once_closed :
    (∃ s : Quiche.Running Quiche.IdleConnection Unit Cid.RandomIdGenerator Unit,
      s.backend.connections.get 0 = none ∧ s.consumed ≠ [] ∧
        terminations 0 (s.consumed ++ s.backend.events) = 1) ∧
    ∃ s : Quinn.Running Quinn.Fragile Unit Unit,
      s.backend.connections.get ⟨0, 0⟩ = none ∧
        terminations ⟨0, 0⟩ (s.consumed ++ s.backend.events) = 1 := by
  constructor
  · have hrun : ∃ s : Quiche.Running Quiche.IdleConnection Unit Cid.RandomIdGenerator Unit,
        Reachable Quiche.Running.Init anyStep
          (Quiche.Running.exec Quiche.QuicheBackend.idleEnv) s ∧
          decide (0 < introductions 0 (s.consumed ++ s.backend.events) ∧
            s.backend.connections.get 0 = none ∧ s.consumed ≠ []) = true :=
      exists_reachable (Quiche.Running.idleClient.map (⟨·, []⟩)) (fun s hs => by
          obtain ⟨b, hb, rfl⟩ := Option.map_eq_some_iff.mp hs
          exact Quiche.Running.idleClient_init hb)
        [.connect "" Quiche.QuicheBackend.peerAddr none, .connectionClose 0 0 [], .consumeEvents,
          .send []]
        (by decide +kernel)
    obtain ⟨s, hs, hstate⟩ := hrun
    obtain ⟨hannounced, hgone, hconsumed⟩ := of_decide_eq_true hstate
    refine ⟨s, hgone, hconsumed, ?_⟩
    exact (terminal_event_once.1 _ _ _ _ _ s hs 0).2 hannounced (by simp [hgone])
  · have hstart : Reachable Quinn.Running.Init anyStep (Quinn.Running.exec Quinn.fragileEnv)
        (Quinn.Running.fragileClient 0 [] [] []) :=
      .init ⟨rfl, { client := some (), server := none }, (), [], [1500], .localhost, .zero, rfl⟩
    have hlink := hstart.step trivial (Quinn.Running.fragileClient_connect (.inl rfl) 0 [] [])
    have hreset := hlink.step trivial (Quinn.Running.fragileLink_reset ..)
    obtain ⟨-, -, hfirst⟩ := terminal_event_once.2 _ _ _ _ _ _ _ _ hreset rfl ⟨0, 0⟩
    refine ⟨_, ?_, (hfirst (by decide)).2 (by decide) (by decide)⟩
    rfl

end Aquic.Backend

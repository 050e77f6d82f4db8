import Aquic.Backend.Quiche.Connection
import Aquic.Lib.Run

/-!
# Runs of the collection of connections

The backend calls the operations of `Connections` in any order, with any keys: keys of connections
that were removed long ago are passed as well. In between it changes the connections themselves,
which it borrows (`get_mut`, or any of the operations that mark a connection active).

The counters feed the firewall. They are exact in every run, and so is the queue of active
connections.
-/

namespace Aquic.Backend.Quiche

open Aquic.Collections Aquic.Net Aquic.Run Aquic.Word

variable {Conn Cfg : Type}

/-- What quiche says about its source connection ids: retired ones are reported once, and reporting
them changes nothing else. -/
structure Library.Faithful (lib : Library Conn Cfg) : Prop where
  isServer_retired c : lib.isServer (lib.retiredScids c).1 = lib.isServer c
  sourceId_retired c : lib.sourceId (lib.retiredScids c).1 = lib.sourceId c
  sourceIds_retired c : lib.sourceIds (lib.retiredScids c).1 = lib.sourceIds c
  retired_once c : (lib.retiredScids (lib.retiredScids c).1).2 = []

/-- The number of elements at which `SlotMap::insert` panics. -/
def slotMapLimit : Nat := 2 ^ 32 - 2

inductive ConnectionsLabel (Conn : Type) where
  | insert (connection : Connection Conn) (peerAddr : SocketAddr)
  /-- A borrowed connection is changed to this one. -/
  | change (key : ConnectionKey) (connection : Connection Conn)
  | markActive (key : ConnectionKey)
  | getMarkActiveIf (key : ConnectionKey) (filter : Connection Conn → Bool)
  /-- The iterator has returned these keys when it is dropped. -/
  | allIterMarkActive (keys : List ConnectionKey)
  | peekActive
  | nextActive
  | markVerified (key : ConnectionKey)
  | updateScidsDict (key : ConnectionKey)
  | remove (key : ConnectionKey)

namespace Connections

/-- `get_mark_active_if`, the collection afterwards. -/
def getMarkActiveIf (cs : Connections Conn) (key : ConnectionKey)
    (filter : Connection Conn → Bool) : Connections Conn :=
  if (cs.get key).any filter then { cs with active := cs.active.replace key } else cs

/-- `all_iter_mark_active`, the collection afterwards. -/
def allIterMarkActive (cs : Connections Conn) (keys : List ConnectionKey) : Connections Conn :=
  { cs with active := keys.foldl LinkedHashSet.replace cs.active }

variable (lib : Library Conn Cfg)

/-- One operation; nothing but `mark_verified` changes the flag, and the role of a connection never
changes. -/
def exec (cs : Connections Conn) : ConnectionsLabel Conn → Option (Connections Conn)
  | .insert c peerAddr =>
    if cs.all.length < slotMapLimit then (cs.insert lib c peerAddr).map (·.1) else none
  | .change key c =>
    match cs.get key with
    | some old =>
      if lib.isServer c.inner = lib.isServer old.inner ∧
          c.peerAddressVerified = old.peerAddressVerified then
        some (cs.put key c)
      else
        none
    | none => none
  | .markActive key => some (cs.markActive key)
  | .getMarkActiveIf key filter => some (cs.getMarkActiveIf key filter)
  | .allIterMarkActive keys =>
    if keys.all cs.all.contains then some (cs.allIterMarkActive keys) else none
  | .peekActive => some cs.peekActive
  | .nextActive => some cs.nextActive
  | .markVerified key => some (cs.markVerified lib key)
  | .updateScidsDict key => some (cs.updateScidsDict lib key)
  | .remove key =>
    match cs.remove lib key with
    | some (cs, _) => some cs
    | none => some cs

def Init (cs : Connections Conn) : Prop := cs = new

/-! ## Counters and active connections -/

def isServer (c : Connection Conn) : Bool := lib.isServer c.inner

def isUnverified (c : Connection Conn) : Bool := lib.isServer c.inner && !c.peerAddressVerified

/-- **The counters and the active set are exact**: the counters count the live server connections,
all and unverified; active connections are live; and where `mark_verified` or `remove` would decrement a
counter, the counter is positive. -/
structure Counted (cs : Connections Conn) : Prop where
  server : cs.serverConnectionsCount = cs.all.countP (isServer lib)
  unverified : cs.serverUnverifiedConnectionsCount = cs.all.countP (isUnverified lib)
  active : ∀ key ∈ cs.active.toList, cs.all.contains key = true
  nodup : cs.active.toList.Nodup
  server_pos key c : cs.get key = some c → isServer lib c = true → 0 < cs.serverConnectionsCount
  unverified_pos key c : cs.get key = some c → isUnverified lib c = true →
    0 < cs.serverUnverifiedConnectionsCount

/-- The inductive part of `Counted`; the slot map keeps the counters from wrapping. -/
structure Tally (cs : Connections Conn) : Prop where
  server : cs.serverConnectionsCount = cs.all.countP (isServer lib)
  unverified : cs.serverUnverifiedConnectionsCount = cs.all.countP (isUnverified lib)
  active : ∀ key ∈ cs.active.toList, cs.all.contains key = true
  length : cs.all.length ≤ slotMapLimit

variable {lib} {cs cs' : Connections Conn}

theorem Tally.counted (h : Tally lib cs) : Counted lib cs where
  server := h.server
  unverified := h.unverified
  active := h.active
  nodup := cs.active.nodup
  server_pos _ _ hget hserver := h.server ▸ Slots.countP_pos hget hserver
  unverified_pos _ _ hget hunverified := h.unverified ▸ Slots.countP_pos hget hunverified

theorem Tally.new : Tally lib (new : Connections Conn) where
  server := rfl
  unverified := rfl
  active := nofun
  length := Nat.zero_le _

/-- A queue without new keys. -/
theorem Tally.activate (h : Tally lib cs) {active : LinkedHashSet ConnectionKey}
    (hactive : ∀ key ∈ active.toList, key ∈ cs.active.toList ∨ cs.all.contains key = true) :
    Tally lib { cs with active } where
  server := h.server
  unverified := h.unverified
  active key hkey := (hactive key hkey).elim (h.active key) id
  length := h.length

theorem Tally.mark (h : Tally lib cs) {key : ConnectionKey} (hlive : cs.all.contains key = true) :
    Tally lib { cs with active := cs.active.replace key } := by
  refine h.activate fun k hk => ?_
  rcases LinkedHashSet.mem_replace.mp hk with hk | rfl
  · exact .inl hk
  · exact .inr hlive

theorem wrappingAdd_count {n : Nat} (h : n < slotMapLimit) : wrappingAdd usizeBits n 1 = n + 1 := by
  apply wrappingAdd_of_lt
  have : slotMapLimit + 1 < 2 ^ usizeBits := by decide
  omega

/-- The address under which `insert` registers a connection without a source id. -/
def registeredAddr (lib : Library Conn Cfg) (c : Connection Conn) (peerAddr : SocketAddr) :
    SocketAddr :=
  (((lib.pathStats c.inner).find? (·.active)).map (·.peerAddr)).getD peerAddr

/-- What `insert` does. -/
theorem insert_cases {c : Connection Conn} {peerAddr : SocketAddr} {key : ConnectionKey}
    (h : cs.insert lib c peerAddr = some (cs', key)) :
    key = (cs.all.push c).2 ∧ cs'.all = (cs.all.push c).1 ∧
    cs'.active = cs.active.replace key ∧
    cs'.serverConnectionsCount = (if isServer lib c then
      wrappingAdd usizeBits cs.serverConnectionsCount 1 else cs.serverConnectionsCount) ∧
    cs'.serverUnverifiedConnectionsCount = (if isUnverified lib c then
      wrappingAdd usizeBits cs.serverUnverifiedConnectionsCount 1
      else cs.serverUnverifiedConnectionsCount) ∧
    if lib.sourceId c.inner = [] then
      cs'.cidDictionary = cs.cidDictionary ∧
      cs'.addrDictionary =
        Function.update cs.addrDictionary (registeredAddr lib c peerAddr) (some key)
    else
      cs'.cidDictionary = Function.update cs.cidDictionary (lib.sourceId c.inner) (some key) ∧
      cs'.addrDictionary = cs.addrDictionary := by
  simp only [insert, Option.bind_eq_bind, Option.bind_eq_some_iff] at h
  obtain ⟨sourceCid, hcid, h⟩ := h
  obtain ⟨rfl, rfl⟩ := Prod.mk.inj (Option.some.inj h)
  have hbytes : sourceCid.bytes = lib.sourceId c.inner := by
    unfold Cid.ConnectionId.tryFromSlice at hcid
    split at hcid <;> cases hcid
    rfl
  rw [← hbytes]
  cases hempty : sourceCid.bytes <;> cases hserver : lib.isServer c.inner <;>
    cases hverified : c.peerAddressVerified <;>
    simp [isServer, isUnverified, hserver, hverified, registeredAddr]

theorem Tally.insert (h : Tally lib cs) {c : Connection Conn} {peerAddr : SocketAddr}
    {key : ConnectionKey} (hroom : cs.all.length < slotMapLimit)
    (hinsert : cs.insert lib c peerAddr = some (cs', key)) : Tally lib cs' := by
  obtain ⟨hkey, hall, hactive, hserver, hunverified, -⟩ := insert_cases hinsert
  have hserverCount := Slots.countP_le_length cs.all (isServer lib)
  have hunverifiedCount := Slots.countP_le_length cs.all (isUnverified lib)
  refine ⟨?_, ?_, ?_, ?_⟩
  · rw [hserver, hall, Slots.countP_push, h.server]
    split
    · exact wrappingAdd_count (by omega)
    · rfl
  · rw [hunverified, hall, Slots.countP_push, h.unverified]
    split
    · exact wrappingAdd_count (by omega)
    · rfl
  · intro k hk
    rw [hactive, LinkedHashSet.mem_replace] at hk
    rw [hall, Slots.contains, Slots.get_push, ← hkey]
    split
    · rfl
    · next hne => exact h.active k (hk.resolve_right hne)
  · rw [hall, Slots.length_push]
    exact hroom

/-- The address whose entry `remove` erases for a connection without a source id. -/
def validatedAddr (lib : Library Conn Cfg) (c : Connection Conn) : Option SocketAddr :=
  let inner := (lib.retiredScids c.inner).1
  ((lib.pathStats inner).find? fun path =>
    lib.isPathValidated inner path.localAddr path.peerAddr).map (·.peerAddr)

/-- The source ids that quiche knows of: current ones, and retired ones that it has not reported. -/
def knownIds (lib : Library Conn Cfg) (c : Connection Conn) : List (List UInt8) :=
  lib.sourceIds c.inner ++ (lib.retiredScids c.inner).2

/-- What `remove` does. -/
theorem remove_cases (hlib : lib.Faithful) {key : ConnectionKey} {c c' : Connection Conn}
    (hget : cs.get key = some c) (h : cs.remove lib key = some (cs', c')) :
    cs'.all = cs.all.remove key ∧ cs'.active = cs.active.remove key ∧
    cs'.serverConnectionsCount = (if isServer lib c then
      wrappingSub usizeBits cs.serverConnectionsCount 1 else cs.serverConnectionsCount) ∧
    cs'.serverUnverifiedConnectionsCount = (if isUnverified lib c then
      wrappingSub usizeBits cs.serverUnverifiedConnectionsCount 1
      else cs.serverUnverifiedConnectionsCount) ∧
    (∀ cid ∈ knownIds lib c, cs'.cidDictionary cid = none) ∧
    (∀ cid ∉ knownIds lib c, cs'.cidDictionary cid = cs.cidDictionary cid) ∧
    cs'.addrDictionary =
      match (knownIds lib c).all List.isEmpty, validatedAddr lib c with
      | true, some addr => Function.update cs.addrDictionary addr none
      | _, _ => cs.addrDictionary := by
  simp only [remove, hget, Option.bind_eq_bind, Option.bind_some] at h
  obtain ⟨rfl, rfl⟩ := Prod.mk.inj (Option.some.inj h)
  refine ⟨rfl, rfl, ?_, ?_, fun cid hcid => ?_, fun cid hcid => ?_, rfl⟩
  · show (if lib.isServer (lib.retiredScids c.inner).1 then _ else _) = _
    rw [hlib.isServer_retired]
    rfl
  · show (if lib.isServer (lib.retiredScids c.inner).1 && !c.peerAddressVerified then _ else _) = _
    rw [hlib.isServer_retired]
    rfl
  · exact (foldl_update ..).trans (if_pos hcid)
  · exact (foldl_update ..).trans (if_neg hcid)

theorem isSome_get_put {key k : ConnectionKey} {old c : Connection Conn}
    (hold : cs.get key = some old) (hk : cs.all.contains k = true) :
    (cs.put key c).all.contains k = true := by
  show ((cs.all.set key c).get k).isSome = true
  rw [Slots.get_set (by rw [show cs.all.get key = some old from hold]; rfl)]
  split
  · rfl
  · exact hk

/-- A connection is replaced by one of the same kind. -/
theorem Tally.put (h : Tally lib cs) {key : ConnectionKey} {old c : Connection Conn}
    (hold : cs.get key = some old) (hserver : isServer lib c = isServer lib old)
    (hunverified : isUnverified lib c = isUnverified lib old) : Tally lib (cs.put key c) where
  server := by
    have hcount := Slots.countP_set hold c (isServer lib)
    rw [hserver] at hcount
    exact h.server.trans (Nat.add_right_cancel hcount).symm
  unverified := by
    have hcount := Slots.countP_set hold c (isUnverified lib)
    rw [hunverified] at hcount
    exact h.unverified.trans (Nat.add_right_cancel hcount).symm
  active k hk := isSome_get_put hold (h.active k hk)
  length := (Slots.length_set hold c).trans_le h.length

theorem Tally.markVerified (h : Tally lib cs) (key : ConnectionKey) :
    Tally lib (cs.markVerified lib key) := by
  unfold Connections.markVerified
  cases hget : cs.get key with
  | none => exact h
  | some c =>
    simp only
    split
    · next hcond =>
      have hserver : lib.isServer c.inner = true := (Bool.and_eq_true _ _ ▸ hcond).1
      have hpos := h.counted.unverified_pos key c hget hcond
      refine ⟨?_, ?_, fun k hk => isSome_get_put hget (h.active k hk), ?_⟩
      · have hcount := Slots.countP_set hget { c with peerAddressVerified := true } (isServer lib)
        exact h.server.trans (Nat.add_right_cancel hcount).symm
      · have hcount :=
          Slots.countP_set hget { c with peerAddressVerified := true } (isUnverified lib)
        simp only [isUnverified, hcond, if_true, Bool.not_true, Bool.and_false, Bool.false_eq_true,
          if_false] at hcount
        show wrappingSub usizeBits cs.serverUnverifiedConnectionsCount 1 = _
        rw [wrappingSub_of_le hpos, h.unverified]
        exact (Nat.eq_sub_of_add_eq hcount).symm
      · exact (Slots.length_set hget { c with peerAddressVerified := true }).trans_le h.length
    · exact h

theorem Tally.remove (hlib : lib.Faithful) (h : Tally lib cs) {key : ConnectionKey}
    {c c' : Connection Conn} (hget : cs.get key = some c)
    (hremove : cs.remove lib key = some (cs', c')) : Tally lib cs' := by
  obtain ⟨hall, hactive, hserver, hunverified, -⟩ := remove_cases hlib hget hremove
  have hsub {n m : Nat} {p : Connection Conn → Bool} (hn : n = cs.all.countP p)
      (hm : m = if p c then wrappingSub usizeBits n 1 else n) :
      m = (cs.all.remove key).countP p := by
    have hcount := Slots.countP_remove hget p
    rw [hm, hn]
    split
    · next hp =>
      rw [if_pos hp] at hcount
      rw [wrappingSub_of_le (Slots.countP_pos hget hp)]
      exact (Nat.eq_sub_of_add_eq hcount).symm
    · next hp =>
      rw [if_neg hp] at hcount
      exact hcount.symm
  refine ⟨?_, ?_, ?_, ?_⟩
  · rw [hall]
    exact hsub h.server hserver
  · rw [hall]
    exact hsub h.unverified hunverified
  · intro k hk
    rw [hactive, LinkedHashSet.mem_remove] at hk
    rw [hall, Slots.contains, Slots.get_remove, if_neg hk.1]
    exact h.active k hk.2
  · rw [hall]
    exact (Nat.le_of_add_right_le (Slots.length_remove hget).le).trans h.length

theorem Tally.updateScidsDict (hlib : lib.Faithful) (h : Tally lib cs) (key : ConnectionKey) :
    Tally lib (cs.updateScidsDict lib key) := by
  unfold Connections.updateScidsDict
  cases hget : cs.get key with
  | none => exact h
  | some c =>
    have hput := h.put hget (c := { c with inner := (lib.retiredScids c.inner).1 })
      (hlib.isServer_retired _) (by simp only [isUnverified, hlib.isServer_retired])
    exact ⟨hput.server, hput.unverified, hput.active, hput.length⟩

theorem Tally.exec (hlib : lib.Faithful) (h : Tally lib cs) {l : ConnectionsLabel Conn}
    (hexec : cs.exec lib l = some cs') : Tally lib cs' := by
  cases l with
  | insert c peerAddr =>
    simp only [Connections.exec] at hexec
    split at hexec
    · next hroom =>
      obtain ⟨⟨cs₁, key⟩, hinsert, rfl⟩ := Option.map_eq_some_iff.mp hexec
      exact h.insert hroom hinsert
    · cases hexec
  | change key c =>
    simp only [Connections.exec] at hexec
    split at hexec
    · next old hold =>
      split at hexec <;> cases hexec
      next hsame =>
      exact h.put hold hsame.1 (by simp only [isUnverified, hsame.1, hsame.2])
    · cases hexec
  | markActive key =>
    cases hexec
    unfold Connections.markActive
    split
    · next hlive => exact h.mark hlive
    · exact h
  | getMarkActiveIf key filter =>
    cases hexec
    unfold Connections.getMarkActiveIf
    split
    · next hfilter => exact h.mark (Option.isSome_of_any hfilter)
    · exact h
  | allIterMarkActive keys =>
    simp only [Connections.exec] at hexec
    split at hexec <;> cases hexec
    next hlive =>
    refine h.activate fun k hk => ?_
    rcases LinkedHashSet.mem_foldl_replace.mp hk with hk | hk
    · exact .inl hk
    · exact .inr (List.all_eq_true.mp hlive k hk)
  | peekActive =>
    cases hexec
    exact h.activate fun k hk => .inl (LinkedHashSet.mem_of_mem_popUntil hk)
  | nextActive =>
    cases hexec
    exact h.activate fun k hk => .inl (LinkedHashSet.mem_of_mem_popFront hk)
  | markVerified key =>
    cases hexec
    exact h.markVerified key
  | updateScidsDict key =>
    cases hexec
    exact h.updateScidsDict hlib key
  | remove key =>
    simp only [Connections.exec] at hexec
    cases hget : cs.get key with
    | none =>
      simp only [Connections.remove, hget, Option.bind_eq_bind, Option.bind_none] at hexec
      cases hexec
      exact h
    | some c =>
      obtain ⟨cs₁, c', hremove, -⟩ := remove_spec lib hget
      simp only [hremove] at hexec
      cases hexec
      exact h.remove hlib hget hremove

/-- **The counters and the active set are exact** in every state that a run reaches. -/
theorem counters_exact (hlib : lib.Faithful) {cs : Connections Conn}
    (h : Reachable Init anyStep (Connections.exec lib) cs) : Counted lib cs := by
  have htally : Tally lib cs := by
    induction h with
    | init hinit => exact hinit ▸ Tally.new
    | step _ _ hexec ih => exact ih.exec hlib hexec
  exact htally.counted

theorem idleLibrary_faithful : idleLibrary.Faithful := ⟨fun _ => rfl, fun _ => rfl, fun _ => rfl,
  fun _ => rfl⟩

/-- Of three server connections one is removed before it is verified, one is verified twice, and the
key of the removed one is used again. -/
theorem counters_exact_three : ∃ cs : Connections IdleConnection,
    Reachable Init anyStep (Connections.exec idleLibrary) cs ∧
    cs.serverConnectionsCount = 2 ∧ cs.serverUnverifiedConnectionsCount = 1 ∧
    Counted idleLibrary cs := by
  have hrun : ∃ cs : Connections IdleConnection,
      Reachable Init anyStep (Connections.exec idleLibrary) cs ∧
      decide (cs.serverConnectionsCount = 2 ∧ cs.serverUnverifiedConnectionsCount = 1) = true :=
    exists_reachable (some new) (fun cs hcs => (Option.some.inj hcs).symm)
      [.insert (.new idleLibrary ⟨[1], false⟩ false) ⟨.localhost, 443⟩,
        .insert (.new idleLibrary ⟨[2], false⟩ false) ⟨.localhost, 443⟩,
        .insert (.new idleLibrary ⟨[3], false⟩ false) ⟨.localhost, 443⟩,
        .remove 0, .markVerified 1, .markVerified 1, .markVerified 0, .markActive 0, .remove 0]
      (by decide +kernel)
  obtain ⟨cs, hcs, hp⟩ := hrun
  obtain ⟨hserver, hunverified⟩ := of_decide_eq_true hp
  exact ⟨cs, hcs, hserver, hunverified, counters_exact idleLibrary_faithful hcs⟩

end Connections

end Aquic.Backend.Quiche

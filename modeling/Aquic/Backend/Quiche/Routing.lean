import Aquic.Backend.Quiche.Connections

/-!
# Routing dictionaries

A packet is routed to its connection by its destination id, or by the peer's address if the
application chose zero-length source ids. `insert` and `update_scids_dict` write the two
dictionaries, and `remove` cleans them up: the ids by what quiche reports, the address by the first
validated path.

What quiche reports is a condition on the steps (`Plausible`): ids of distinct connections are
distinct, and an id stays known until it is reported as retired. The address of a validated path
need not be the one that was registered; `ErasesOwnEntry` says when it is.
-/

namespace Aquic.Backend.Quiche

open Aquic.Cid Aquic.Collections Aquic.Net Aquic.Run

variable {Conn Cfg : Type}

namespace Connections

variable (lib : Library Conn Cfg)

/-- What quiche reports about the source ids of one connection: they are short enough, none of them
or all of them are empty, and a retired one is not current. -/
structure Reported (c : Connection Conn) : Prop where
  sourceId_mem : lib.sourceId c.inner ∈ lib.sourceIds c.inner
  length_le : ∀ cid ∈ lib.sourceIds c.inner, cid.length ≤ maxCidLen
  empty_iff : ∀ cid ∈ knownIds lib c, cid = [] ↔ lib.sourceId c.inner = []
  retired : ∀ cid ∈ lib.sourceIds c.inner, cid ≠ [] → cid ∉ (lib.retiredScids c.inner).2

/-- No id of `c` but the empty one belongs to another connection. -/
def Distinct (cs : Connections Conn) (key : ConnectionKey) (c : Connection Conn) : Prop :=
  ∀ k c', cs.get k = some c' → k ≠ key → ∀ cid ∈ knownIds lib c, cid ∈ knownIds lib c' → cid = []

/-- What quiche can report in a step. -/
def Plausible (cs : Connections Conn) : ConnectionsLabel Conn → Prop
  | .insert c _ => Reported lib c ∧ Distinct lib cs (cs.all.push c).2 c
  | .change key c =>
    Reported lib c ∧ Distinct lib cs key c ∧
    ∀ old, cs.get key = some old →
      (∀ cid ∈ knownIds lib old, cid ∈ knownIds lib c) ∧
      (lib.sourceId c.inner = [] ↔ lib.sourceId old.inner = [])
  | _ => True

/-- A connection without a source id is removed only when the first validated path leads to the
address under which the dictionary holds the connection, and under which it holds no other one. -/
def ErasesOwnEntry (cs : Connections Conn) : ConnectionsLabel Conn → Prop
  | .remove key =>
    ∀ c, cs.get key = some c → lib.sourceId c.inner = [] → ∀ addr,
      (cs.addrDictionary addr = some key → validatedAddr lib c = some addr) ∧
      (validatedAddr lib c = some addr → ∀ k, cs.addrDictionary addr = some k → k = key)
  | _ => True

/-- A collection with its history. -/
structure Routed (Conn : Type) where
  connections : Connections Conn
  /-- History: connections without a source id, with the address they were registered for. The last
  one comes first. -/
  registered : List (SocketAddr × ConnectionKey)
  /-- History: the ids that were current at the last update of the dictionary, and still are. -/
  synced : ConnectionKey → List (List UInt8)

namespace Routed

def Init (s : Routed Conn) : Prop := s = ⟨new, [], fun _ => []⟩

def exec (s : Routed Conn) (l : ConnectionsLabel Conn) : Option (Routed Conn) :=
  (s.connections.exec lib l).map fun connections =>
    match l with
    | .insert c peerAddr =>
      let key := (s.connections.all.push c).2
      { connections
        registered := if lib.sourceId c.inner = [] then
          (registeredAddr lib c peerAddr, key) :: s.registered else s.registered
        synced := Function.update s.synced key [lib.sourceId c.inner] }
    | .change key c =>
      { s with
        connections
        synced := Function.update s.synced key
          ((s.synced key).filter (· ∈ lib.sourceIds c.inner)) }
    | .updateScidsDict key =>
      { s with
        connections
        synced := Function.update s.synced key
          (((connections.get key).map fun c => lib.sourceIds c.inner).getD []) }
    | _ => { s with connections }

/-- **The routing dictionaries are exact**: they lead to live connections only, to every id of a
connection that is current and has been entered by an update, and to the connection without a source
id that was the last one registered for its address. -/
structure Exact (s : Routed Conn) : Prop where
  cid_live cid key : s.connections.cidDictionary cid = some key →
    s.connections.all.contains key = true
  addr_live addr key : s.connections.addrDictionary addr = some key →
    s.connections.all.contains key = true
  cid_found key cid peerAddr : s.connections.all.contains key = true → cid ∈ s.synced key →
    cid ≠ [] → s.connections.findConnectionKey cid peerAddr = some key
  addr_found key peerAddr : s.connections.all.contains key = true →
    s.registered.lookup peerAddr = some key →
    s.connections.findConnectionKey [] peerAddr = some key

/-! ## The invariant -/

/-- Entries lead to live connections that own them; what was entered and is current is there. -/
structure Wired (s : Routed Conn) : Prop where
  reported key c : s.connections.get key = some c → Reported lib c
  distinct key c : s.connections.get key = some c → Distinct lib s.connections key c
  cid cid key : s.connections.cidDictionary cid = some key →
    ∃ c, s.connections.get key = some c ∧ cid ∈ knownIds lib c
  addr addr key : s.connections.addrDictionary addr = some key →
    ∃ c, s.connections.get key = some c ∧ lib.sourceId c.inner = []
  synced key c : s.connections.get key = some c → ∀ cid ∈ s.synced key,
    cid ∈ lib.sourceIds c.inner ∧ (cid ≠ [] → s.connections.cidDictionary cid = some key)
  latest addr key c : s.connections.get key = some c → s.registered.lookup addr = some key →
    s.connections.addrDictionary addr = some key
  old addr key : s.registered.lookup addr = some key → key < s.connections.all.slots.length

variable {lib} {s s' : Routed Conn}

theorem Wired.exact (h : Wired lib s) : Exact s where
  cid_live cid key hcid := by
    obtain ⟨c, hget, -⟩ := h.cid cid key hcid
    exact Slots.contains_iff.mpr ⟨c, hget⟩
  addr_live addr key haddr := by
    obtain ⟨c, hget, -⟩ := h.addr addr key haddr
    exact Slots.contains_iff.mpr ⟨c, hget⟩
  cid_found key cid peerAddr hlive hsynced hne := by
    obtain ⟨c, hget⟩ := Slots.contains_iff.mp hlive
    rw [findConnectionKey, if_neg (by simpa using hne)]
    exact (h.synced key c hget cid hsynced).2 hne
  addr_found key peerAddr hlive hlookup := by
    obtain ⟨c, hget⟩ := Slots.contains_iff.mp hlive
    exact h.latest peerAddr key c hget hlookup

theorem Wired.init (h : Init s) : Wired lib s := by
  subst h
  constructor <;> intros <;> contradiction

/-- Only the queue and the counters change. -/
theorem Wired.of_eq (h : Wired lib s) {connections : Connections Conn}
    (hall : connections.all = s.connections.all)
    (hcid : connections.cidDictionary = s.connections.cidDictionary)
    (haddr : connections.addrDictionary = s.connections.addrDictionary) :
    Wired lib { s with connections } := by
  have hget : connections.get = s.connections.get := by
    funext key
    simp only [Connections.get, hall]
  exact {
    reported := fun key c hkey => h.reported key c (hget ▸ hkey)
    distinct := fun key c hkey k c' hk => h.distinct key c (hget ▸ hkey) k c' (hget ▸ hk)
    cid := fun cid key hentry => hget ▸ h.cid cid key (hcid ▸ hentry)
    addr := fun addr key hentry => hget ▸ h.addr addr key (haddr ▸ hentry)
    synced := fun key c hkey => hcid ▸ h.synced key c (hget ▸ hkey)
    latest := fun addr key c hkey => haddr ▸ h.latest addr key c (hget ▸ hkey)
    old := fun addr key hlookup => hall ▸ h.old addr key hlookup }

/-- One connection is new, or replaced by another one. -/
theorem distinct_update {cs cs' : Connections Conn} {key : ConnectionKey} {c : Connection Conn}
    (hget : ∀ k, cs'.get k = if k = key then some c else cs.get k) (hc : Distinct lib cs key c)
    (hcs : ∀ k c', cs.get k = some c' → Distinct lib cs k c') (k : ConnectionKey)
    (c' : Connection Conn) (hk : cs'.get k = some c') : Distinct lib cs' k c' := by
  intro k' c'' hk' hne cid hcid hcid'
  rw [hget] at hk hk'
  split at hk <;> split at hk'
  · next heq heq' => exact absurd (heq'.trans heq.symm) hne
  · next heq hne' =>
    cases hk
    exact hc k' c'' hk' hne' cid hcid hcid'
  · next hne' heq =>
    cases hk'
    exact hc k c' hk hne' cid hcid' hcid
  · exact hcs k c' hk k' c'' hk' hne cid hcid hcid'

theorem get_put {cs : Connections Conn} {key : ConnectionKey} {old : Connection Conn}
    (hold : cs.get key = some old) (c : Connection Conn) (k : ConnectionKey) :
    (cs.put key c).get k = if k = key then some c else cs.get k :=
  Slots.get_set (Option.isSome_iff_exists.mpr ⟨old, hold⟩) c k

/-- A connection is replaced by one with its ids, and more; the dictionaries are kept. -/
theorem Wired.put (h : Wired lib s) {key : ConnectionKey} {old c : Connection Conn}
    (hold : s.connections.get key = some old) (hreported : Reported lib c)
    (hdistinct : Distinct lib s.connections key c)
    (hknown : ∀ cid ∈ knownIds lib old, cid ∈ knownIds lib c)
    (hempty : lib.sourceId c.inner = [] ↔ lib.sourceId old.inner = [])
    {synced : ConnectionKey → List (List UInt8)}
    (hsynced : ∀ cid ∈ synced key, cid ∈ s.synced key ∧ cid ∈ lib.sourceIds c.inner)
    (hothers : ∀ k, k ≠ key → synced k = s.synced k) :
    Wired lib { s with connections := s.connections.put key c, synced } where
  reported k c' hk := by
    rw [get_put hold] at hk
    split at hk
    · cases hk
      exact hreported
    · exact h.reported k c' hk
  distinct := distinct_update (get_put hold c) hdistinct h.distinct
  cid cid k hentry := by
    obtain ⟨c', hk, hcid⟩ := h.cid cid k hentry
    rw [get_put hold]
    split
    · next heq =>
      subst heq
      obtain rfl := Option.some.inj (hold.symm.trans hk)
      exact ⟨c, rfl, hknown cid hcid⟩
    · exact ⟨c', hk, hcid⟩
  addr addr k hentry := by
    obtain ⟨c', hk, hcid⟩ := h.addr addr k hentry
    rw [get_put hold]
    split
    · next heq =>
      subst heq
      obtain rfl := Option.some.inj (hold.symm.trans hk)
      exact ⟨c, rfl, hempty.mpr hcid⟩
    · exact ⟨c', hk, hcid⟩
  synced k c' hk cid hcid := by
    rw [get_put hold] at hk
    split at hk
    · next heq =>
      cases hk
      subst heq
      obtain ⟨hcid, hcurrent⟩ := hsynced cid hcid
      exact ⟨hcurrent, (h.synced k old hold cid hcid).2⟩
    · next hne =>
      have hcid : cid ∈ synced k := hcid
      rw [hothers k hne] at hcid
      exact h.synced k c' hk cid hcid
  latest addr k c' hk hlookup := by
    rw [get_put hold] at hk
    split at hk
    · next heq =>
      subst heq
      exact h.latest addr k old hold hlookup
    · exact h.latest addr k c' hk hlookup
  old addr k hlookup := by
    show k < (s.connections.all.slots.set key (some c)).length
    rw [List.length_set]
    exact h.old addr k hlookup

/-! ### Inserting

The new connection gets one entry: under its id, or under its address if the id is empty. -/

section

variable {c : Connection Conn} {peerAddr : SocketAddr} {connections : Connections Conn}
  {key : ConnectionKey}

/-- An entry that was there leads to an older connection. -/
theorem get_of_insert (hinsert : s.connections.insert lib c peerAddr = some (connections, key))
    {k : ConnectionKey} {c' : Connection Conn} (hk : s.connections.get k = some c') :
    connections.get k = some c' := by
  obtain ⟨hfresh, hget⟩ := insert_spec lib hinsert
  rw [hget, if_neg]
  · exact hk
  · rintro rfl
    rw [hfresh] at hk
    cases hk

theorem Wired.insert_cid (h : Wired lib s)
    (hinsert : s.connections.insert lib c peerAddr = some (connections, key))
    (hreported : Reported lib c) {cid : List UInt8} {k : ConnectionKey}
    (hentry : connections.cidDictionary cid = some k) :
    ∃ c', connections.get k = some c' ∧ cid ∈ knownIds lib c' := by
  have hnew : cid = lib.sourceId c.inner → k = key →
      ∃ c', connections.get k = some c' ∧ cid ∈ knownIds lib c' := by
    rintro rfl rfl
    refine ⟨c, ?_, List.mem_append_left _ hreported.sourceId_mem⟩
    rw [(insert_spec lib hinsert).2, if_pos rfl]
  have hold (hentry : s.connections.cidDictionary cid = some k) :
      ∃ c', connections.get k = some c' ∧ cid ∈ knownIds lib c' := by
    obtain ⟨c', hk, hcid⟩ := h.cid cid k hentry
    exact ⟨c', get_of_insert hinsert hk, hcid⟩
  obtain ⟨-, -, -, -, -, hdictionaries⟩ := insert_cases hinsert
  split at hdictionaries
  · rw [hdictionaries.1] at hentry
    exact hold hentry
  · rw [hdictionaries.1, Function.update_apply] at hentry
    split at hentry
    · next heq => exact hnew heq (Option.some.inj hentry).symm
    · exact hold hentry

theorem Wired.insert_addr (h : Wired lib s)
    (hinsert : s.connections.insert lib c peerAddr = some (connections, key))
    {addr : SocketAddr} {k : ConnectionKey} (hentry : connections.addrDictionary addr = some k) :
    ∃ c', connections.get k = some c' ∧ lib.sourceId c'.inner = [] := by
  have hold (hentry : s.connections.addrDictionary addr = some k) :
      ∃ c', connections.get k = some c' ∧ lib.sourceId c'.inner = [] := by
    obtain ⟨c', hk, hempty⟩ := h.addr addr k hentry
    exact ⟨c', get_of_insert hinsert hk, hempty⟩
  obtain ⟨-, -, -, -, -, hdictionaries⟩ := insert_cases hinsert
  split at hdictionaries
  · next hempty =>
    rw [hdictionaries.2, Function.update_apply] at hentry
    split at hentry
    · cases hentry
      refine ⟨c, ?_, hempty⟩
      rw [(insert_spec lib hinsert).2, if_pos rfl]
    · exact hold hentry
  · rw [hdictionaries.2] at hentry
    exact hold hentry

theorem Wired.insert_synced (h : Wired lib s)
    (hinsert : s.connections.insert lib c peerAddr = some (connections, key))
    (hreported : Reported lib c) (hdistinct : Distinct lib s.connections key c)
    {k : ConnectionKey} {c' : Connection Conn} (hk : connections.get k = some c')
    {cid : List UInt8}
    (hsynced : cid ∈ Function.update s.synced key [lib.sourceId c.inner] k) :
    cid ∈ lib.sourceIds c'.inner ∧ (cid ≠ [] → connections.cidDictionary cid = some k) := by
  obtain ⟨-, -, -, -, -, hdictionaries⟩ := insert_cases hinsert
  rw [Function.update_apply] at hsynced
  rw [(insert_spec lib hinsert).2] at hk
  split at hk
  · next heq =>
    cases hk
    subst heq
    rw [if_pos rfl, List.mem_singleton] at hsynced
    subst hsynced
    refine ⟨hreported.sourceId_mem, fun hne => ?_⟩
    rw [if_neg hne] at hdictionaries
    rw [hdictionaries.1, Function.update_self]
  · next hne =>
    rw [if_neg hne] at hsynced
    obtain ⟨hcurrent, hentry⟩ := h.synced k c' hk cid hsynced
    refine ⟨hcurrent, fun hcid => ?_⟩
    split at hdictionaries
    · rw [hdictionaries.1]
      exact hentry hcid
    · rw [hdictionaries.1, Function.update_of_ne]
      · exact hentry hcid
      · -- the id of the new connection is in no older one
        rintro rfl
        exact hcid (hdistinct k c' hk hne _ (List.mem_append_left _ hreported.sourceId_mem)
          (List.mem_append_left _ hcurrent))

theorem Wired.insert_latest (h : Wired lib s)
    (hinsert : s.connections.insert lib c peerAddr = some (connections, key))
    {addr : SocketAddr} {k : ConnectionKey} {c' : Connection Conn}
    (hk : connections.get k = some c')
    (hlookup : (if lib.sourceId c.inner = [] then
      (registeredAddr lib c peerAddr, key) :: s.registered else s.registered).lookup addr = some k) :
    connections.addrDictionary addr = some k := by
  obtain ⟨hkey, -, -, -, -, hdictionaries⟩ := insert_cases hinsert
  have hold (hlookup : s.registered.lookup addr = some k) :
      s.connections.addrDictionary addr = some k := by
    have hne : k ≠ key := by
      have hlt := h.old addr k hlookup
      rw [hkey]
      exact Nat.ne_of_lt hlt
    rw [(insert_spec lib hinsert).2, if_neg hne] at hk
    exact h.latest addr k c' hk hlookup
  split at hdictionaries
  · next hempty =>
    rw [hdictionaries.2, Function.update_apply]
    rw [if_pos hempty, List.lookup_cons] at hlookup
    split at hlookup
    · next heq =>
      rw [if_pos (by simpa using heq)]
      exact hlookup
    · next hne =>
      rw [if_neg (by simpa using hne)]
      exact hold hlookup
  · next hempty =>
    rw [if_neg hempty] at hlookup
    rw [hdictionaries.2]
    exact hold hlookup

theorem Wired.insert_old (h : Wired lib s)
    (hinsert : s.connections.insert lib c peerAddr = some (connections, key))
    {addr : SocketAddr} {k : ConnectionKey}
    (hlookup : (if lib.sourceId c.inner = [] then
      (registeredAddr lib c peerAddr, key) :: s.registered else s.registered).lookup addr = some k) :
    k < connections.all.slots.length := by
  obtain ⟨hkey, hall, -⟩ := insert_cases hinsert
  have hlength : connections.all.slots.length = s.connections.all.slots.length + 1 := by
    rw [hall]
    simp [Slots.push]
  rw [hlength]
  split at hlookup
  · rw [List.lookup_cons] at hlookup
    split at hlookup
    · cases hlookup
      rw [hkey]
      exact Nat.lt_succ_self _
    · exact Nat.lt_succ_of_lt (h.old addr k hlookup)
  · exact Nat.lt_succ_of_lt (h.old addr k hlookup)

theorem Wired.insert (h : Wired lib s)
    (hinsert : s.connections.insert lib c peerAddr = some (connections, key))
    (hreported : Reported lib c) (hdistinct : Distinct lib s.connections key c) :
    Wired lib
      { connections
        registered := if lib.sourceId c.inner = [] then
          (registeredAddr lib c peerAddr, key) :: s.registered else s.registered
        synced := Function.update s.synced key [lib.sourceId c.inner] } where
  reported k c' hk := by
    rw [(insert_spec lib hinsert).2] at hk
    split at hk
    · cases hk
      exact hreported
    · exact h.reported k c' hk
  distinct := distinct_update (insert_spec lib hinsert).2 hdistinct h.distinct
  cid _ _ := h.insert_cid hinsert hreported
  addr _ _ := h.insert_addr hinsert
  synced _ _ hk _ := h.insert_synced hinsert hreported hdistinct hk
  latest _ _ _ := h.insert_latest hinsert
  old _ _ := h.insert_old hinsert

end

/-! ### Removing

The ids of the connection are erased, and the address of its first validated path. -/

section

variable {key : ConnectionKey} {c c' : Connection Conn} {connections : Connections Conn}

/-- The other connections stay. -/
theorem get_of_remove (hlib : lib.Faithful) (hget : s.connections.get key = some c)
    (hremove : s.connections.remove lib key = some (connections, c')) (k : ConnectionKey) :
    connections.get k = if k = key then none else s.connections.get k := by
  rw [Connections.get, (remove_cases hlib hget hremove).1, Slots.get_remove]
  rfl

theorem live_of_remove (hlib : lib.Faithful) (hget : s.connections.get key = some c)
    (hremove : s.connections.remove lib key = some (connections, c')) {k : ConnectionKey}
    {c'' : Connection Conn} :
    connections.get k = some c'' ↔ k ≠ key ∧ s.connections.get k = some c'' := by
  rw [get_of_remove hlib hget hremove]
  split
  · next heq => simp [heq]
  · next hne => simp [hne]

/-- The address dictionary loses an entry of a connection without a source id only. -/
theorem Wired.addrDictionary_of_remove (hlib : lib.Faithful) (h : Wired lib s)
    (hget : s.connections.get key = some c)
    (hremove : s.connections.remove lib key = some (connections, c')) (addr : SocketAddr) :
    connections.addrDictionary addr = s.connections.addrDictionary addr ∨
      connections.addrDictionary addr = none ∧ lib.sourceId c.inner = [] ∧
        validatedAddr lib c = some addr := by
  obtain ⟨-, -, -, -, -, -, haddr⟩ := remove_cases hlib hget hremove
  rw [haddr]
  split
  · next addr' hcids hvalidated =>
    by_cases heq : addr = addr'
    · subst heq
      have hmem : lib.sourceId c.inner ∈ knownIds lib c :=
        List.mem_append_left _ (h.reported key c hget).sourceId_mem
      have hempty : lib.sourceId c.inner = [] := by
        simpa using List.all_eq_true.mp hcids _ hmem
      exact .inr ⟨Function.update_self .., hempty, hvalidated⟩
    · exact .inl (Function.update_of_ne heq ..)
  · exact .inl rfl

theorem Wired.remove_cid (hlib : lib.Faithful) (h : Wired lib s)
    (hget : s.connections.get key = some c)
    (hremove : s.connections.remove lib key = some (connections, c')) {cid : List UInt8}
    {k : ConnectionKey} (hentry : connections.cidDictionary cid = some k) :
    ∃ c'', connections.get k = some c'' ∧ cid ∈ knownIds lib c'' := by
  obtain ⟨-, -, -, -, herased, hkept, -⟩ := remove_cases hlib hget hremove
  by_cases hcid : cid ∈ knownIds lib c
  · rw [herased cid hcid] at hentry
    cases hentry
  · rw [hkept cid hcid] at hentry
    obtain ⟨c'', hk, hknown⟩ := h.cid cid k hentry
    refine ⟨c'', (live_of_remove hlib hget hremove).mpr ⟨?_, hk⟩, hknown⟩
    rintro rfl
    obtain rfl := Option.some.inj (hget.symm.trans hk)
    exact hcid hknown

theorem Wired.remove_addr (hlib : lib.Faithful) (h : Wired lib s)
    (hget : s.connections.get key = some c)
    (hremove : s.connections.remove lib key = some (connections, c'))
    (herases : ErasesOwnEntry lib s.connections (.remove key)) {addr : SocketAddr}
    {k : ConnectionKey} (hentry : connections.addrDictionary addr = some k) :
    ∃ c'', connections.get k = some c'' ∧ lib.sourceId c''.inner = [] := by
  rcases h.addrDictionary_of_remove hlib hget hremove addr with hsame | ⟨hnone, -⟩
  · have hbefore : s.connections.addrDictionary addr = some k := hsame.symm.trans hentry
    obtain ⟨c'', hk, hzero⟩ := h.addr addr k hbefore
    refine ⟨c'', (live_of_remove hlib hget hremove).mpr ⟨?_, hk⟩, hzero⟩
    -- an entry of the removed connection is erased
    rintro rfl
    obtain rfl := Option.some.inj (hget.symm.trans hk)
    have hvalidated := (herases c hget hzero addr).1 hbefore
    have hcids : (knownIds lib c).all List.isEmpty = true := by
      refine List.all_eq_true.mpr fun cid hcid => ?_
      simpa using ((h.reported k c hget).empty_iff cid hcid).mpr hzero
    obtain ⟨-, -, -, -, -, -, haddr⟩ := remove_cases hlib hget hremove
    rw [haddr, hcids, hvalidated] at hentry
    simp at hentry
  · rw [hnone] at hentry
    cases hentry

theorem Wired.remove_synced (hlib : lib.Faithful) (h : Wired lib s)
    (hget : s.connections.get key = some c)
    (hremove : s.connections.remove lib key = some (connections, c')) {k : ConnectionKey}
    {c'' : Connection Conn} (hk : connections.get k = some c'') {cid : List UInt8}
    (hsynced : cid ∈ s.synced k) :
    cid ∈ lib.sourceIds c''.inner ∧ (cid ≠ [] → connections.cidDictionary cid = some k) := by
  obtain ⟨hne, hk⟩ := (live_of_remove hlib hget hremove).mp hk
  obtain ⟨hcurrent, hentry⟩ := h.synced k c'' hk cid hsynced
  obtain ⟨-, -, -, -, -, hkept, -⟩ := remove_cases hlib hget hremove
  refine ⟨hcurrent, fun hcid => ?_⟩
  rw [hkept]
  · exact hentry hcid
  · intro hknown
    exact hcid (h.distinct key c hget k c'' hk hne cid hknown (List.mem_append_left _ hcurrent))

theorem Wired.remove_latest (hlib : lib.Faithful) (h : Wired lib s)
    (hget : s.connections.get key = some c)
    (hremove : s.connections.remove lib key = some (connections, c'))
    (herases : ErasesOwnEntry lib s.connections (.remove key)) {addr : SocketAddr}
    {k : ConnectionKey} {c'' : Connection Conn} (hk : connections.get k = some c'')
    (hlookup : s.registered.lookup addr = some k) :
    connections.addrDictionary addr = some k := by
  obtain ⟨hne, hk⟩ := (live_of_remove hlib hget hremove).mp hk
  have hentry := h.latest addr k c'' hk hlookup
  rcases h.addrDictionary_of_remove hlib hget hremove addr with hsame | ⟨-, hzero, hvalidated⟩
  · rw [hsame]
    exact hentry
  · exact absurd ((herases c hget hzero addr).2 hvalidated k hentry) hne

theorem Wired.remove (hlib : lib.Faithful) (h : Wired lib s)
    (hget : s.connections.get key = some c)
    (hremove : s.connections.remove lib key = some (connections, c'))
    (herases : ErasesOwnEntry lib s.connections (.remove key)) :
    Wired lib { s with connections } where
  reported k c'' hk := h.reported k c'' ((live_of_remove hlib hget hremove).mp hk).2
  distinct k c'' hk k' d hk' :=
    h.distinct k c'' ((live_of_remove hlib hget hremove).mp hk).2 k' d
      ((live_of_remove hlib hget hremove).mp hk').2
  cid _ _ := h.remove_cid hlib hget hremove
  addr _ _ := h.remove_addr hlib hget hremove herases
  synced _ _ hk _ := h.remove_synced hlib hget hremove hk
  latest _ _ _ := h.remove_latest hlib hget hremove herases
  old addr k hlookup := by
    show k < connections.all.slots.length
    rw [(remove_cases hlib hget hremove).1, Slots.remove, List.length_set]
    exact h.old addr k hlookup

end

/-! ### Updating the ids -/

/-- What `update_scids_dict` does with the ids. -/
theorem updateScidsDict_cases {cs : Connections Conn} {key : ConnectionKey} {c : Connection Conn}
    (hget : cs.get key = some c) (hreported : Reported lib c) (cid : List UInt8) :
    (cs.updateScidsDict lib key).cidDictionary cid =
      if cid ∈ (lib.retiredScids c.inner).2 then none
      else if cid ∈ lib.sourceIds c.inner then some key
      else cs.cidDictionary cid := by
  have hentered (dictionary : List UInt8 → Option ConnectionKey) (cid : List UInt8)
      (hcid : cid ∈ lib.sourceIds c.inner) :
      (if (ConnectionId.tryFromSlice cid).isSome then Function.update dictionary cid (some key)
        else dictionary) = Function.update dictionary cid (some key) := by
    rw [ConnectionId.tryFromSlice, dif_pos (hreported.length_le cid hcid)]
    rfl
  simp only [Connections.updateScidsDict, hget]
  rw [foldl_update, List.foldl_ext _ _ _ fun dictionary cid hcid => hentered dictionary cid hcid,
    foldl_update]
  split
  · rfl
  · split <;> rfl

section

variable {key : ConnectionKey} {c : Connection Conn}

/-- The connection is left without retired ids. -/
theorem get_updateScidsDict (hget : s.connections.get key = some c) (k : ConnectionKey) :
    (s.connections.updateScidsDict lib key).get k =
      if k = key then some { c with inner := (lib.retiredScids c.inner).1 }
      else s.connections.get k := by
  rw [← get_put hget]
  simp only [Connections.updateScidsDict, hget]
  rfl

theorem mem_knownIds_retired (hlib : lib.Faithful) {cid : List UInt8} :
    cid ∈ knownIds lib { c with inner := (lib.retiredScids c.inner).1 } ↔
      cid ∈ lib.sourceIds c.inner := by
  simp [knownIds, hlib.sourceIds_retired, hlib.retired_once]

theorem addrDictionary_updateScidsDict (cs : Connections Conn) (key : ConnectionKey) :
    (cs.updateScidsDict lib key).addrDictionary = cs.addrDictionary := by
  unfold Connections.updateScidsDict
  split <;> rfl

theorem reported_retired (hlib : lib.Faithful) (h : Reported lib c) :
    Reported lib { c with inner := (lib.retiredScids c.inner).1 } where
  sourceId_mem := by
    rw [hlib.sourceId_retired, hlib.sourceIds_retired]
    exact h.sourceId_mem
  length_le := by
    rw [hlib.sourceIds_retired]
    exact h.length_le
  empty_iff cid hcid := by
    rw [hlib.sourceId_retired]
    exact h.empty_iff cid (List.mem_append_left _ ((mem_knownIds_retired hlib).mp hcid))
  retired cid _ _ := by
    rw [hlib.retired_once]
    exact List.not_mem_nil

theorem Wired.updateScidsDict_cid (hlib : lib.Faithful) (h : Wired lib s)
    (hget : s.connections.get key = some c) {cid : List UInt8} {k : ConnectionKey}
    (hentry : (s.connections.updateScidsDict lib key).cidDictionary cid = some k) :
    ∃ c', (s.connections.updateScidsDict lib key).get k = some c' ∧ cid ∈ knownIds lib c' := by
  rw [updateScidsDict_cases hget (h.reported key c hget)] at hentry
  rw [get_updateScidsDict hget]
  split at hentry
  · cases hentry
  · next hretired =>
    split at hentry
    · next hcurrent =>
      cases hentry
      exact ⟨_, if_pos rfl, (mem_knownIds_retired hlib).mpr hcurrent⟩
    · next hcurrent =>
      obtain ⟨c', hk, hcid⟩ := h.cid cid k hentry
      by_cases heq : k = key
      · subst heq
        obtain rfl := Option.some.inj (hget.symm.trans hk)
        exact absurd hcid (by simp [knownIds, hretired, hcurrent])
      · exact ⟨c', by rw [if_neg heq, hk], hcid⟩

theorem Wired.updateScidsDict_addr (hlib : lib.Faithful) (h : Wired lib s)
    (hget : s.connections.get key = some c) {addr : SocketAddr} {k : ConnectionKey}
    (hentry : (s.connections.updateScidsDict lib key).addrDictionary addr = some k) :
    ∃ c', (s.connections.updateScidsDict lib key).get k = some c' ∧
      lib.sourceId c'.inner = [] := by
  rw [addrDictionary_updateScidsDict] at hentry
  rw [get_updateScidsDict hget]
  obtain ⟨c', hk, hzero⟩ := h.addr addr k hentry
  split
  · next heq =>
    subst heq
    obtain rfl := Option.some.inj (hget.symm.trans hk)
    exact ⟨_, rfl, (hlib.sourceId_retired _).trans hzero⟩
  · exact ⟨c', hk, hzero⟩

theorem Wired.updateScidsDict_synced (hlib : lib.Faithful) (h : Wired lib s)
    (hget : s.connections.get key = some c) {k : ConnectionKey} {c' : Connection Conn}
    (hk : (s.connections.updateScidsDict lib key).get k = some c') {cid : List UInt8}
    (hsynced : cid ∈ Function.update s.synced key (lib.sourceIds c.inner) k) :
    cid ∈ lib.sourceIds c'.inner ∧
      (cid ≠ [] → (s.connections.updateScidsDict lib key).cidDictionary cid = some k) := by
  have hreported := h.reported key c hget
  rw [Function.update_apply] at hsynced
  rw [get_updateScidsDict hget] at hk
  rw [updateScidsDict_cases hget hreported]
  split at hk
  · next heq =>
    cases hk
    rw [if_pos heq] at hsynced
    rw [heq, hlib.sourceIds_retired, if_pos hsynced]
    refine ⟨hsynced, fun hne => ?_⟩
    rw [if_neg (hreported.retired cid hsynced hne)]
  · next hne =>
    rw [if_neg hne] at hsynced
    obtain ⟨hcurrent, hentry⟩ := h.synced k c' hk cid hsynced
    refine ⟨hcurrent, fun hcid => ?_⟩
    -- the entries of another connection are not touched
    have hnot (hknown : cid ∈ knownIds lib c) : cid = [] :=
      h.distinct key c hget k c' hk hne cid hknown (List.mem_append_left _ hcurrent)
    rw [if_neg fun hretired => hcid (hnot (List.mem_append_right _ hretired)),
      if_neg fun hcurrent' => hcid (hnot (List.mem_append_left _ hcurrent'))]
    exact hentry hcid

theorem Wired.updateScidsDict_latest (h : Wired lib s) (hget : s.connections.get key = some c)
    {addr : SocketAddr} {k : ConnectionKey} {c' : Connection Conn}
    (hk : (s.connections.updateScidsDict lib key).get k = some c')
    (hlookup : s.registered.lookup addr = some k) :
    (s.connections.updateScidsDict lib key).addrDictionary addr = some k := by
  rw [addrDictionary_updateScidsDict]
  rw [get_updateScidsDict hget] at hk
  split at hk
  · next heq =>
    subst heq
    exact h.latest addr k c hget hlookup
  · exact h.latest addr k c' hk hlookup

theorem Wired.updateScidsDict (hlib : lib.Faithful) (h : Wired lib s)
    (hget : s.connections.get key = some c) :
    Wired lib { s with
      connections := s.connections.updateScidsDict lib key
      synced := Function.update s.synced key (lib.sourceIds c.inner) } where
  reported k c' hk := by
    rw [get_updateScidsDict hget] at hk
    split at hk
    · cases hk
      exact reported_retired hlib (h.reported key c hget)
    · exact h.reported k c' hk
  distinct := by
    refine distinct_update (get_updateScidsDict hget) (fun k c' hk hne cid hcid => ?_) h.distinct
    have hcurrent := (mem_knownIds_retired hlib).mp hcid
    exact h.distinct key c hget k c' hk hne cid (List.mem_append_left _ hcurrent)
  cid _ _ := h.updateScidsDict_cid hlib hget
  addr _ _ := h.updateScidsDict_addr hlib hget
  synced _ _ hk _ := h.updateScidsDict_synced hlib hget hk
  latest _ _ _ := h.updateScidsDict_latest hget
  old addr k hlookup := by
    have hlength : (s.connections.updateScidsDict lib key).all.slots.length =
        s.connections.all.slots.length := by
      simp only [Connections.updateScidsDict, hget]
      exact List.length_set
    show k < (s.connections.updateScidsDict lib key).all.slots.length
    rw [hlength]
    exact h.old addr k hlookup

end

theorem Wired.exec (hlib : lib.Faithful) (h : Wired lib s) {l : ConnectionsLabel Conn}
    (hnormal : Plausible lib s.connections l) (herases : ErasesOwnEntry lib s.connections l)
    (hexec : s.exec lib l = some s') : Wired lib s' := by
  obtain ⟨connections, hconnections, rfl⟩ := Option.map_eq_some_iff.mp hexec
  cases l with
  | insert c peerAddr =>
    simp only [Connections.exec] at hconnections
    split at hconnections
    · obtain ⟨⟨connections', key⟩, hinsert, rfl⟩ := Option.map_eq_some_iff.mp hconnections
      obtain rfl := (insert_cases hinsert).1
      exact h.insert hinsert hnormal.1 hnormal.2
    · cases hconnections
  | change key c =>
    simp only [Connections.exec] at hconnections
    split at hconnections
    · next old hold =>
      split at hconnections <;> cases hconnections
      obtain ⟨hreported, hdistinct, hold'⟩ := hnormal
      obtain ⟨hknown, hempty⟩ := hold' old hold
      refine h.put hold hreported hdistinct hknown hempty (fun cid hcid => ?_) fun k hne => ?_
      · rw [Function.update_self, List.mem_filter] at hcid
        exact ⟨hcid.1, of_decide_eq_true hcid.2⟩
      · exact Function.update_of_ne hne ..
    · cases hconnections
  | markVerified key =>
    cases hconnections
    unfold Connections.markVerified
    cases hget : s.connections.get key with
    | none => exact h
    | some c =>
      simp only
      split
      · have hreported := h.reported key c hget
        have hput := h.put hget (c := { c with peerAddressVerified := true })
          ⟨hreported.sourceId_mem, hreported.length_le, hreported.empty_iff, hreported.retired⟩
          (h.distinct key c hget) (fun _ => id) Iff.rfl
          (fun cid hcid => ⟨hcid, (h.synced key c hget cid hcid).1⟩) fun _ _ => rfl
        exact hput.of_eq rfl rfl rfl
      · exact h
  | updateScidsDict key =>
    cases hconnections
    cases hget : s.connections.get key with
    | none =>
      have hsame : s.connections.updateScidsDict lib key = s.connections := by
        simp only [Connections.updateScidsDict, hget]
      simp only [hsame, hget, Option.map_none, Option.getD_none]
      refine { h with synced := fun k c hk cid hcid => ?_ }
      have hne : k ≠ key := by
        rintro rfl
        rw [hget] at hk
        cases hk
      have hcid : cid ∈ Function.update s.synced key [] k := hcid
      rw [Function.update_of_ne hne] at hcid
      exact h.synced k c hk cid hcid
    | some c =>
      have hupdated : ((s.connections.updateScidsDict lib key).get key).map
          (fun c => lib.sourceIds c.inner) = some (lib.sourceIds c.inner) := by
        rw [← hlib.sourceIds_retired]
        simp only [Connections.updateScidsDict, hget]
        exact congrArg _ ((get_put hget _ key).trans (if_pos rfl))
      simp only [hupdated, Option.getD_some]
      exact h.updateScidsDict hlib hget
  | remove key =>
    simp only [Connections.exec] at hconnections
    cases hget : s.connections.get key with
    | none =>
      simp only [Connections.remove, hget, Option.bind_eq_bind, Option.bind_none] at hconnections
      cases hconnections
      exact h
    | some c =>
      obtain ⟨cs₁, c', hremove, -⟩ := remove_spec lib hget
      simp only [hremove] at hconnections
      cases hconnections
      exact h.remove hlib hget hremove herases
  | markActive key =>
    cases hconnections
    apply h.of_eq <;> (unfold Connections.markActive; split <;> rfl)
  | getMarkActiveIf key filter =>
    cases hconnections
    apply h.of_eq <;> (unfold Connections.getMarkActiveIf; split <;> rfl)
  | allIterMarkActive keys =>
    simp only [Connections.exec] at hconnections
    split at hconnections <;> cases hconnections
    exact h.of_eq rfl rfl rfl
  | peekActive | nextActive =>
    cases hconnections
    exact h.of_eq rfl rfl rfl

/-- **The routing dictionaries are exact** in every run in which a connection without a source id is
removed only while its first validated path leads to its own entry. -/
theorem routing_exact (hlib : lib.Faithful)
    (h : Reachable Init (fun s l => Plausible lib s.connections l ∧
      ErasesOwnEntry lib s.connections l) (exec lib) s) : Exact s := by
  have hwired : Wired lib s := by
    induction h with
    | init hinit => exact .init hinit
    | step _ hok hexec ih => exact ih.exec hlib hok.1 hok.2 hexec
  exact hwired.exact

/-! ## A connection without a source id -/

/-- Idle connections that have one path, to one peer. -/
def onePath (validated : Bool) : Library IdleConnection Unit :=
  { idleLibrary with
    pathStats := fun _ => [⟨⟨.localhost, 443⟩, ⟨.localhost, 1024⟩, true⟩]
    isPathValidated := fun _ _ _ => validated }

theorem onePath_faithful (validated : Bool) : (onePath validated).Faithful :=
  ⟨fun _ => rfl, fun _ => rfl, fun _ => rfl, fun _ => rfl⟩

/-- A connection without a source id. -/
def unnamed (validated : Bool) : Connection IdleConnection :=
  .new (onePath validated) ⟨[], false⟩ true

theorem plausible_unnamed (validated : Bool) (cs : Connections IdleConnection)
    (peerAddr : SocketAddr) :
    Plausible (onePath validated) cs (.insert (unnamed validated) peerAddr) := by
  have hknown {cid : List UInt8} (hcid : cid ∈ knownIds (onePath validated) (unnamed validated)) :
      cid = [] := by
    simpa [knownIds, onePath, unnamed, Connection.new, idleLibrary] using hcid
  refine ⟨⟨List.mem_singleton.mpr rfl, ?_, ?_, fun _ _ _ => List.not_mem_nil⟩, ?_⟩
  · intro cid hcid
    rw [hknown (List.mem_append_left _ hcid)]
    exact Nat.zero_le _
  · intro cid hcid
    exact iff_of_true (hknown hcid) rfl
  · intro k c' _ _ cid hcid _
    exact hknown hcid

/-- Two unnamed connections from one address: removing the older one erases the entry of the newer
one. One that is removed before its path is validated stays in the dictionary. -/
theorem unnamed_misrouted :
    (∃ s, Reachable Init (fun s l => Plausible (onePath true) s.connections l)
      (exec (onePath true)) s ∧ ¬ Exact s) ∧
    ∃ s, Reachable Init (fun s l => Plausible (onePath false) s.connections l)
      (exec (onePath false)) s ∧ ¬ Exact s := by
  constructor
  · refine ⟨_, .step (i := .remove 0) (.step (i := .insert (unnamed true) ⟨.localhost, 1024⟩)
      (.step (i := .insert (unnamed true) ⟨.localhost, 1024⟩) (.init rfl)
        (plausible_unnamed ..) rfl) (plausible_unnamed ..) rfl) trivial rfl, fun h => ?_⟩
    have hfound := h.addr_found 1 ⟨.localhost, 1024⟩ (by decide +kernel) (by decide +kernel)
    exact absurd hfound (by decide +kernel)
  · refine ⟨_, .step (i := .remove 0) (.step (i := .insert (unnamed false) ⟨.localhost, 1024⟩)
      (.init rfl) (plausible_unnamed ..) rfl) trivial rfl, fun h => ?_⟩
    have hlive := h.addr_live ⟨.localhost, 1024⟩ 0 (by decide +kernel)
    exact absurd hlive (by decide +kernel)

/-- The only unnamed connection from its address is removed after its path was validated. -/
theorem routing_exact_unnamed : ∃ s,
    Reachable Init (fun s l => Plausible (onePath true) s.connections l ∧
      ErasesOwnEntry (onePath true) s.connections l) (exec (onePath true)) s ∧
    s.registered = [(⟨.localhost, 1024⟩, 0)] ∧ s.connections.all.length = 0 ∧ Exact s := by
  have hrun : ∃ s, Reachable Init (fun s l => Plausible (onePath true) s.connections l ∧
      ErasesOwnEntry (onePath true) s.connections l) (exec (onePath true)) s ∧
      s.registered = [(⟨.localhost, 1024⟩, 0)] ∧ s.connections.all.length = 0 := by
    refine ⟨_, .step (i := .remove 0) (.step (i := .insert (unnamed true) ⟨.localhost, 1024⟩)
      (.init rfl) ⟨plausible_unnamed .., trivial⟩ rfl) ⟨trivial, ?_⟩ rfl, rfl, by decide +kernel⟩
    intro c hc _ addr
    obtain rfl : unnamed true = c := Option.some.inj hc
    show (Function.update (fun _ => none) ⟨.localhost, 1024⟩ (some 0) addr = some 0 →
        some ⟨.localhost, 1024⟩ = some addr) ∧
      (some ⟨.localhost, 1024⟩ = some addr → ∀ k,
        Function.update (fun _ => none) ⟨.localhost, 1024⟩ (some 0) addr = some k → k = 0)
    rw [Function.update_apply]
    grind
  obtain ⟨s, hs, hregistered, hlength⟩ := hrun
  exact ⟨s, hs, hregistered, hlength, routing_exact (onePath_faithful true) hs⟩

end Routed

end Connections

end Aquic.Backend.Quiche

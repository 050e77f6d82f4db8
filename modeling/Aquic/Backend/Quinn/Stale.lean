import Aquic.Backend.Quinn.Connection
import Aquic.Lib.Registry
import Aquic.Lib.Run

/-!
# Stale ids of quinn connections

The slots of `Connections` and its queue of active connections are addressed by bare handles, which
quinn's endpoint hands out again and again. An id carries the version of its connection as well, and
every accessor that is given an id compares the two:

    self.all.get(id.key).filter(|it| it.version == id.version)

Versions come from a 32-bit counter. As long as it has not wrapped around, an id stands for one
insertion: it acts on the connection of that insertion, or on nothing. The insertions are the numbers
of a `Registry`, in which a handle is an ordinary key.
-/

namespace Aquic.Backend.Quinn

open Aquic.Collections Aquic.Run

variable {Conn : Type}

/-- A change of a borrowed connection; nothing sets the version of a connection that exists. -/
def Connection.edit (change : Connection Conn → Connection Conn) (c : Connection Conn) :
    Connection Conn :=
  { change c with version := c.version }

/-- The operations of a run. An operation that takes an id takes one that an insertion has returned,
and names the insertion by its number; a borrowed connection is changed by `change`. An iteration
with `all_iter_mark_active` is a `getMarkActiveRaw` for each handle, and `get_mark_active` has a filter
that is always true. -/
inductive ConnectionsLabel (Conn : Type) where
  | insertRaw (key : ConnectionKey) (connection : Conn)
  | getMut (number : Nat) (change : Connection Conn → Connection Conn)
  | getMarkActiveIf (number : Nat) (filter : Connection Conn → Bool)
      (change : Connection Conn → Connection Conn)
  | getMarkActiveRaw (key : ConnectionKey) (change : Connection Conn → Connection Conn)
  | peekActive (change : Connection Conn → Connection Conn)
  | nextActive
  | remove (number : Nat)
  | removeRaw (key : ConnectionKey)

/-- The insertion whose id an operation is called with. -/
def ConnectionsLabel.number? : ConnectionsLabel Conn → Option Nat
  | .getMut number _ => some number
  | .getMarkActiveIf number _ _ => some number
  | .remove number => some number
  | _ => none

/-- A collection in use. -/
structure Tracked (Conn : Type) where
  connections : Connections Conn
  /-- A history: the ids that `insert_raw` has returned, in order. -/
  returned : List QuinnConnectionId
  /-- A history: what each insertion has added, as long as it is neither removed nor replaced. -/
  registry : Registry (Connection Conn)

namespace Tracked

/-- Writes a connection back that was borrowed, if there is one. -/
def writeBack (cs : Connections Conn) (key : ConnectionKey)
    (change : Connection Conn → Connection Conn) :
    Option (Connection Conn) → Connections Conn
  | none => cs
  | some c => cs.put key (c.edit change)

/-- One operation. The registry follows the insertions, whatever the collection does. -/
def exec (s : Tracked Conn) : ConnectionsLabel Conn → Option (Tracked Conn)
  | .insertRaw key connection =>
    let (connections, id) := s.connections.insertRaw key connection
    some {
      connections
      returned := s.returned ++ [id]
      registry := s.registry.insert key (.new connection id.version) }
  | .getMut number change =>
    s.returned[number]?.map fun id =>
      { s with
        connections := writeBack s.connections id.key change (s.connections.get id)
        registry := s.registry.update number (·.edit change) }
  | .getMarkActiveIf number filter change =>
    s.returned[number]?.map fun id =>
      { s with
        connections :=
          match s.connections.getMarkActiveIf id filter with
          | none => s.connections
          | some (connections, c) => writeBack connections id.key change (some c)
        registry := s.registry.update number fun c => if filter c then c.edit change else c }
  | .getMarkActiveRaw key change =>
    some { s with
      connections :=
        match s.connections.getMarkActiveRaw key with
        | none => s.connections
        | some (connections, c) => writeBack connections key change (some c)
      registry := s.registry.updateKey key (·.edit change) }
  | .peekActive change =>
    let connections := s.connections.peekActive
    match connections.active.front with
    | none => some { s with connections }
    | some key =>
      some { s with
        connections := writeBack connections key change (connections.all.get key)
        registry := s.registry.updateKey key (·.edit change) }
  | .nextActive => some { s with connections := s.connections.nextActive }
  | .remove number =>
    s.returned[number]?.map fun id =>
      { s with
        connections := ((s.connections.remove id).map Prod.fst).getD s.connections
        registry := s.registry.remove number }
  | .removeRaw key =>
    some { s with
      connections := ((s.connections.removeRaw key).map Prod.fst).getD s.connections
      registry := s.registry.removeKey key }

def Init (s : Tracked Conn) : Prop := s = ⟨.new, [], .empty⟩

/-! ## The collection keeps the registry -/

/-- The id of the insertion with this number, under this key. -/
def idOf (number : Nat) (key : ConnectionKey) : QuinnConnectionId :=
  { key, version := UInt32.ofNat number }

/-- The slots keep what is present, each connection with the version of its insertion, and active
connections are present. -/
structure Kept (s : Tracked Conn) : Prop where
  files : Files s.connections.all s.registry
  version : ∀ i c, s.registry.present i = some c → c.version = UInt32.ofNat i
  returned : s.returned = s.registry.keys.mapIdx idOf
  next : s.connections.versionSequence = UInt32.ofNat s.returned.length
  live : ∀ key ∈ s.connections.active.toList, s.connections.all.contains key = true

variable {s s' : Tracked Conn} {i j : Nat} {id : QuinnConnectionId} {key : ConnectionKey}
  {c : Connection Conn} {change : Connection Conn → Connection Conn}

theorem Kept.length (h : Kept s) : s.returned.length = s.registry.keys.length := by
  rw [h.returned, List.length_mapIdx]

/-- A returned id has the key and the version of its insertion. -/
theorem Kept.id_eq (h : Kept s) (hid : s.returned[i]? = some id) :
    s.registry.keys[i]? = some id.key ∧ id.version = UInt32.ofNat i := by
  rw [h.returned, List.getElem?_mapIdx] at hid
  obtain ⟨key, hkey, rfl⟩ := Option.map_eq_some_iff.mp hid
  exact ⟨hkey, rfl⟩

theorem Kept.lt_of_returned (h : Kept s) (hid : s.returned[i]? = some id) :
    i < s.returned.length := by
  rw [h.length]
  by_contra hge
  have hkey := (h.id_eq hid).1
  rw [List.getElem?_eq_none (Nat.le_of_not_lt hge)] at hkey
  cases hkey

/-- **What an id finds**: the connection of its insertion, while it is present. -/
theorem Kept.get (h : Kept s) (hfew : s.returned.length < 2 ^ 32)
    (hid : s.returned[i]? = some id) : s.connections.get id = s.registry.present i := by
  obtain ⟨hkey, hversion⟩ := h.id_eq hid
  refine Option.ext fun c => ?_
  rw [Connections.get, Option.filter_eq_some_iff, decide_eq_true_eq]
  constructor
  · rintro ⟨hget, heq⟩
    -- the slot holds some insertion; equal versions make it the one of the id
    obtain ⟨j, hj, hpresent⟩ := (h.files id.key c).mp hget
    have hlt : j < s.registry.keys.length := s.registry.lt_of_present hpresent
    have hlt' := h.lt_of_returned hid
    rw [← h.length] at hlt
    have hnat := congrArg UInt32.toNat ((h.version j c hpresent).symm.trans (heq.trans hversion))
    rw [UInt32.toNat_ofNat_of_lt' (hlt.trans hfew), UInt32.toNat_ofNat_of_lt' (hlt'.trans hfew)]
      at hnat
    rw [← hnat]
    exact hpresent
  · intro hpresent
    exact ⟨(h.files id.key c).mpr ⟨i, hkey, hpresent⟩,
      (h.version i c hpresent).trans hversion.symm⟩

theorem Kept.holds (h : Kept s) (hid : s.returned[i]? = some id)
    (hpresent : s.registry.present i = some c) : s.registry.Holds id.key i c :=
  ⟨(h.id_eq hid).1, hpresent⟩

theorem Kept.slot (h : Kept s) (hid : s.returned[i]? = some id)
    (hpresent : s.registry.present i = some c) : s.connections.all.get id.key = some c :=
  (h.files id.key c).mpr ⟨i, h.holds hid hpresent⟩

/-- A connection that is present knows its id. -/
theorem Kept.id_of_present (h : Kept s) (hid : s.returned[i]? = some id)
    (hpresent : s.registry.present i = some c) : c.id id.key = id := by
  rw [Connection.id, h.version i c hpresent, ← (h.id_eq hid).2]

/-- The ids that `peek_active` and `all_iter_mark_active` make up were returned by insertions. -/
theorem Kept.id_returned (h : Kept s) (hget : s.connections.all.get key = some c) :
    ∃ i, s.registry.present i = some c ∧ s.returned[i]? = some (c.id key) := by
  obtain ⟨i, hkey, hpresent⟩ := (h.files key c).mp hget
  refine ⟨i, hpresent, ?_⟩
  rw [h.returned, List.getElem?_mapIdx, hkey, Connection.id, h.version i c hpresent]
  rfl

/-- What is done under the key of an id is done to its insertion, if that is present. -/
theorem Kept.updateKey_eq (h : Kept s) (hid : s.returned[i]? = some id)
    (hpresent : s.registry.present i = some c) (f : Connection Conn → Connection Conn) :
    s.registry.updateKey id.key f = s.registry.update i f :=
  Registry.alter_under (h.holds hid hpresent)

theorem Kept.removeKey_eq (h : Kept s) (hid : s.returned[i]? = some id)
    (hpresent : s.registry.present i = some c) :
    s.registry.removeKey id.key = s.registry.remove i :=
  Registry.alter_under (h.holds hid hpresent)

/-! ## One operation -/

theorem Kept.init (h : Init s) : Kept s := by
  cases h
  refine ⟨Files.empty, ?_, rfl, rfl, ?_⟩
  · intro i c hpresent
    cases hpresent
  · intro key hkey
    cases hkey

/-- Another queue of connections that are present. -/
theorem Kept.activate (h : Kept s) {active : LinkedHashSet ConnectionKey}
    (hactive : ∀ key ∈ active.toList, s.connections.all.contains key = true) :
    Kept { s with connections := { s.connections with active } } :=
  ⟨h.files, h.version, h.returned, h.next, hactive⟩

theorem Kept.mark (h : Kept s) (hlive : s.connections.all.contains key = true) :
    Kept { s with
      connections := { s.connections with active := s.connections.active.replace key } } := by
  refine h.activate fun k hk => ?_
  rcases LinkedHashSet.mem_replace.mp hk with hk | rfl
  · exact h.live k hk
  · exact hlive

/-- A borrowed connection is changed. -/
theorem Kept.edit (h : Kept s) (hget : s.connections.all.get key = some c) :
    Kept { s with
      connections := s.connections.put key (c.edit change)
      registry := s.registry.updateKey key (·.edit change) } := by
  obtain ⟨i, hi⟩ := (h.files key c).mp hget
  refine ⟨h.files.set hget, fun j c' hpresent => ?_, h.returned, h.next, fun k hk => ?_⟩
  · rw [Registry.updateKey, Registry.alter_under hi] at hpresent
    change (s.registry.update i (·.edit change)).present j = some c' at hpresent
    rw [Registry.present_update] at hpresent
    split at hpresent
    · obtain ⟨old, hold, rfl⟩ := Option.map_eq_some_iff.mp hpresent
      exact h.version j old hold
    · exact h.version j c' hpresent
  · show ((s.connections.all.set key (c.edit change)).get k).isSome = true
    rw [Slots.get_set (by rw [hget]; rfl)]
    split
    · rfl
    · exact h.live k hk

theorem Kept.removeRaw (h : Kept s) (key : ConnectionKey) :
    Kept { s with
      connections := ((s.connections.removeRaw key).map Prod.fst).getD s.connections
      registry := s.registry.removeKey key } := by
  have hversion (i : Nat) (c : Connection Conn)
      (hpresent : (s.registry.removeKey key).present i = some c) : c.version = UInt32.ofNat i := by
    rw [Registry.present_removeKey] at hpresent
    split at hpresent
    · cases hpresent
    · exact h.version i c hpresent
  cases hget : s.connections.all.get key with
  | none =>
    have hsame : s.registry.removeKey key = s.registry :=
      Registry.alter_absent (h.files.absent hget)
    rw [Connections.removeRaw, hget, hsame]
    exact h
  | some c =>
    rw [Connections.removeRaw, hget]
    refine ⟨h.files.remove key, hversion, h.returned, h.next, fun k hk => ?_⟩
    obtain ⟨hne, hk⟩ := LinkedHashSet.mem_remove.mp hk
    show ((s.connections.all.remove key).get k).isSome = true
    rw [Slots.get_remove, if_neg hne]
    exact h.live k hk

/-- The new connection gets the number of its insertion as its version. -/
theorem Kept.insertRaw (h : Kept s) (key : ConnectionKey) (connection : Conn) :
    Kept {
      connections := (s.connections.insertRaw key connection).1
      returned := s.returned ++ [(s.connections.insertRaw key connection).2]
      registry := s.registry.insert key (.new connection s.connections.versionSequence) } := by
  have hremoved := h.removeRaw key
  have hlength := h.length
  refine ⟨?_, fun i c hpresent => ?_, ?_, ?_, fun k hk => ?_⟩
  · -- a connection that was left under the handle goes away first
    rw [← Registry.insert_removeKey]
    exact hremoved.files.insert key _
  · have hholds : (s.registry.insert key (.new connection s.connections.versionSequence)).present i =
        if i = s.registry.keys.length then some (.new connection s.connections.versionSequence)
        else (s.registry.removeKey key).present i := rfl
    rw [hholds] at hpresent
    split at hpresent
    · next heq =>
      cases hpresent
      rw [heq, ← hlength]
      exact h.next
    · exact hremoved.version i c hpresent
  · show s.returned ++ [⟨key, s.connections.versionSequence⟩] =
      (s.registry.keys ++ [key]).mapIdx idOf
    rw [List.mapIdx_concat, ← h.returned, ← hlength, h.next]
    rfl
  · show s.connections.versionSequence + 1 =
      UInt32.ofNat (s.returned ++ [(s.connections.insertRaw key connection).2]).length
    rw [List.length_append, h.next, UInt32.ofNat_add]
    rfl
  · show ((Slots.insert _ key _).get k).isSome = true
    rw [Slots.get_insert]
    split
    · rfl
    · next hne =>
      rcases LinkedHashSet.mem_replace.mp hk with hk | hk
      · exact hremoved.live k hk
      · exact absurd hk hne

/-- `Should be always true`: the connection at the front of the queue is present. -/
theorem Kept.peekActive_eq (h : Kept s) : s.connections.peekActive = s.connections := by
  have hpop : s.connections.active.popUntil s.connections.all.contains = s.connections.active := by
    cases hlist : s.connections.active.toList with
    | nil => exact LinkedHashSet.popUntil_nil hlist
    | cons key keys =>
      exact LinkedHashSet.popUntil_of_pos hlist (h.live key (hlist ▸ List.mem_cons_self))
  rw [Connections.peekActive, hpop]

theorem Kept.exec (h : Kept s) (hfew : s.returned.length < 2 ^ 32) {l : ConnectionsLabel Conn}
    (hexec : s.exec l = some s') : Kept s' := by
  cases l with
  | insertRaw key connection =>
    cases hexec
    exact h.insertRaw key connection
  | getMut number change =>
    obtain ⟨id, hid, rfl⟩ := Option.map_eq_some_iff.mp hexec
    rw [h.get hfew hid]
    cases hpresent : s.registry.present number with
    | none =>
      rw [Registry.update_absent hpresent]
      exact h
    | some c =>
      rw [← h.updateKey_eq hid hpresent]
      exact h.edit (h.slot hid hpresent)
  | getMarkActiveIf number filter change =>
    obtain ⟨id, hid, rfl⟩ := Option.map_eq_some_iff.mp hexec
    rw [Connections.getMarkActiveIf, h.get hfew hid]
    cases hpresent : s.registry.present number with
    | none =>
      rw [Registry.update_absent hpresent]
      exact h
    | some c =>
      cases hfilter : filter c with
      | false =>
        -- the connection is found, but is neither marked nor changed
        have hsame (c' : Connection Conn) (hc' : s.registry.present number = some c') :
            (if filter c' then c'.edit change else c') = c' := by
          rw [hpresent] at hc'
          cases hc'
          rw [hfilter]
          rfl
        rw [Registry.update_id hsame, Option.filter_some, hfilter]
        exact h
      | true =>
        have hedit (c' : Connection Conn) (hc' : s.registry.present number = some c') :
            (if filter c' then c'.edit change else c') = c'.edit change := by
          rw [hpresent] at hc'
          cases hc'
          rw [hfilter]
          rfl
        rw [Registry.update_congr hedit, Option.filter_some, hfilter,
          ← h.updateKey_eq hid hpresent]
        exact (h.mark (Slots.contains_iff.mpr ⟨c, h.slot hid hpresent⟩)).edit
          (h.slot hid hpresent)
  | getMarkActiveRaw key change =>
    -- a raw operation goes to the connection that the handle has now
    cases hexec
    cases hget : s.connections.all.get key with
    | none =>
      rw [Connections.getMarkActiveRaw, hget, Registry.updateKey,
        Registry.alter_absent (h.files.absent hget)]
      exact h
    | some c =>
      rw [Connections.getMarkActiveRaw, hget]
      exact (h.mark (Slots.contains_iff.mpr ⟨c, hget⟩)).edit hget
  | peekActive change =>
    simp only [Tracked.exec, h.peekActive_eq] at hexec
    split at hexec
    · cases hexec
      exact h
    · next key hfront =>
      cases hexec
      obtain ⟨c, hget⟩ := Slots.contains_iff.mp (h.live key (List.mem_of_head? hfront))
      rw [hget]
      exact h.edit hget
  | nextActive =>
    cases hexec
    exact h.activate fun key hkey => h.live key (LinkedHashSet.mem_of_mem_popFront hkey)
  | remove number =>
    obtain ⟨id, hid, rfl⟩ := Option.map_eq_some_iff.mp hexec
    rw [Connections.remove, h.get hfew hid]
    cases hpresent : s.registry.present number with
    | none =>
      rw [Registry.remove_absent hpresent]
      exact h
    | some c =>
      rw [← h.removeKey_eq hid hpresent]
      exact h.removeRaw id.key
  | removeRaw key =>
    cases hexec
    exact h.removeRaw key

/-! ## Runs -/

theorem returned_length_le {l : ConnectionsLabel Conn} (hexec : s.exec l = some s') :
    s.returned.length ≤ s'.returned.length := by
  cases l with
  | insertRaw key connection =>
    cases hexec
    exact List.length_append ▸ Nat.le_add_right _ _
  | peekActive change =>
    simp only [Tracked.exec] at hexec
    split at hexec
    · cases hexec
      exact Nat.le_refl _
    · cases hexec
      exact Nat.le_refl _
  | getMut number change =>
    obtain ⟨id, -, rfl⟩ := Option.map_eq_some_iff.mp hexec
    exact Nat.le_refl _
  | getMarkActiveIf number filter change =>
    obtain ⟨id, -, rfl⟩ := Option.map_eq_some_iff.mp hexec
    exact Nat.le_refl _
  | remove number =>
    obtain ⟨id, -, rfl⟩ := Option.map_eq_some_iff.mp hexec
    exact Nat.le_refl _
  | _ =>
    cases hexec
    exact Nat.le_refl _

/-- The collection keeps the registry in every run with less than `2 ^ 32` insertions. -/
theorem kept (h : Reachable Init anyStep exec s) (hfew : s.returned.length < 2 ^ 32) : Kept s := by
  induction h with
  | init hinit => exact Kept.init hinit
  | step _ _ hexec ih =>
    have hearlier := Nat.lt_of_le_of_lt (returned_length_le hexec) hfew
    exact (ih hearlier).exec hearlier hexec

/-- The connection of this id is in the map, and waits to be polled. -/
def Waits (cs : Connections Conn) (id : QuinnConnectionId) : Prop :=
  (cs.get id).isSome = true ∧ id.key ∈ cs.active.toList

/-- **An id stands for one insertion**, the one with this number. As long as the connection of that
insertion is present, it is what an operation with the id returns, changes, marks active or removes,
and no other id notices; afterwards such an operation does nothing. -/
structure ActsOn (s : Tracked Conn) (number : Nat) (id : QuinnConnectionId) : Prop where
  get : s.connections.get id = s.registry.present number
  getMut c change : s.registry.present number = some c →
    ∀ j id', s.returned[j]? = some id' →
      (s.connections.put id.key (c.edit change)).get id' =
        if j = number then some (c.edit change) else s.connections.get id'
  getMarkActiveIf c filter : s.registry.present number = some c → filter c = true →
    ∃ cs, s.connections.getMarkActiveIf id filter = some (cs, c) ∧
      ∀ j id', s.returned[j]? = some id' → cs.get id' = s.connections.get id' ∧
        (Waits cs id' ↔ j = number ∨ Waits s.connections id')
  filtered c filter : s.registry.present number = some c → filter c = false →
    s.connections.getMarkActiveIf id filter = none
  remove c : s.registry.present number = some c →
    ∃ cs, s.connections.remove id = some (cs, c) ∧
      ∀ j id', s.returned[j]? = some id' →
        cs.get id' = (if j = number then none else s.connections.get id') ∧
        (Waits cs id' ↔ j ≠ number ∧ Waits s.connections id')
  stale : s.registry.present number = none →
    s.connections.get id = none ∧ s.connections.remove id = none ∧
    (∀ filter, s.connections.getMarkActiveIf id filter = none) ∧
    ∀ l, l.number? = some number → s.exec l = some s

/-- Ids of connections that are present at the same time have different handles. -/
theorem Kept.number_eq (h : Kept s) {id' : QuinnConnectionId} (hfew : s.returned.length < 2 ^ 32)
    (hid : s.returned[i]? = some id) (hid' : s.returned[j]? = some id')
    (hpresent : s.registry.present i = some c) (hget : (s.connections.get id').isSome = true)
    (hkey : id'.key = id.key) : j = i := by
  rw [h.get hfew hid'] at hget
  obtain ⟨c', hc'⟩ := Option.isSome_iff_exists.mp hget
  have hholds := h.holds hid' hc'
  rw [hkey] at hholds
  exact (hholds.unique (h.holds hid hpresent)).1

theorem Kept.id_eq_of_number (hid : s.returned[i]? = some id) {id' : QuinnConnectionId}
    (hid' : s.returned[i]? = some id') : id' = id :=
  Option.some.inj (hid'.symm.trans hid)

theorem Kept.stale (h : Kept s) (hfew : s.returned.length < 2 ^ 32)
    (hid : s.returned[i]? = some id) (hpresent : s.registry.present i = none)
    {l : ConnectionsLabel Conn} (hl : l.number? = some i) : s.exec l = some s := by
  have hget : s.connections.get id = none := (h.get hfew hid).trans hpresent
  have hupdate (f : Connection Conn → Connection Conn) : s.registry.update i f = s.registry :=
    Registry.update_absent hpresent f
  cases l with
  | getMut number change =>
    cases hl
    simp only [Tracked.exec, hid, Option.map_some, hget, hupdate, writeBack]
  | getMarkActiveIf number filter change =>
    cases hl
    simp only [Tracked.exec, hid, Option.map_some, Connections.getMarkActiveIf, hget, hupdate,
      Option.filter_none, Option.map_none]
  | remove number =>
    cases hl
    simp only [Tracked.exec, hid, Option.map_some, Connections.remove, hget, Option.bind_none,
      Option.map_none, Option.getD_none, Registry.remove_absent hpresent]
  | _ => cases hl

theorem Kept.actsOn (h : Kept s) (hfew : s.returned.length < 2 ^ 32)
    (hid : s.returned[i]? = some id) : ActsOn s i id where
  get := h.get hfew hid
  getMut c change hpresent j id' hid' := by
    have hedit : Kept ⟨s.connections.put id.key (c.edit change), s.returned,
        s.registry.updateKey id.key (·.edit change)⟩ := h.edit (h.slot hid hpresent)
    rw [hedit.get hfew hid', h.get hfew hid', h.updateKey_eq hid hpresent,
      Registry.present_update]
    split
    · next heq => rw [heq, hpresent, Option.map_some]
    · rfl
  getMarkActiveIf c filter hpresent hfilter := by
    refine ⟨{ s.connections with active := s.connections.active.replace id.key }, ?_,
      fun j id' hid' => ⟨rfl, ?_⟩⟩
    · rw [Connections.getMarkActiveIf, h.get hfew hid, hpresent, Option.filter_some, hfilter]
      rfl
    · show (s.connections.get id').isSome = true ∧ _ ↔ _
      rw [LinkedHashSet.mem_replace]
      constructor
      -- an id that is served under the same handle is the same insertion
      · rintro ⟨hget, hactive | hkey⟩
        · exact .inr ⟨hget, hactive⟩
        · exact .inl (h.number_eq hfew hid hid' hpresent hget hkey)
      · rintro (rfl | ⟨hget, hactive⟩)
        · rw [id_eq_of_number hid hid', h.get hfew hid, hpresent]
          exact ⟨rfl, .inr rfl⟩
        · exact ⟨hget, .inl hactive⟩
  filtered c filter hpresent hfilter := by
    rw [Connections.getMarkActiveIf, h.get hfew hid, hpresent, Option.filter_some, hfilter]
    rfl
  remove c hpresent := by
    have hslot := h.slot hid hpresent
    have hremoved : Kept ⟨{ s.connections with
        all := s.connections.all.remove id.key
        active := s.connections.active.remove id.key }, s.returned, s.registry.remove i⟩ := by
      have hraw := h.removeRaw id.key
      rw [Connections.removeRaw, hslot, h.removeKey_eq hid hpresent] at hraw
      exact hraw
    have hremove := Connections.remove_spec hslot
    rw [h.id_of_present hid hpresent] at hremove
    refine ⟨_, hremove, fun j id' hid' => ?_⟩
    have hget := hremoved.get hfew hid'
    rw [Registry.present_remove, ← h.get hfew hid'] at hget
    refine ⟨hget, ?_⟩
    show (Connections.get _ id').isSome = true ∧ _ ↔ _
    rw [LinkedHashSet.mem_remove, hget]
    split
    · next heq => exact iff_of_false (fun hwaits => by cases hwaits.1) fun hwaits => hwaits.1 heq
    · next hne =>
      constructor
      · rintro ⟨hsome, -, hactive⟩
        exact ⟨hne, hsome, hactive⟩
      · rintro ⟨-, hsome, hactive⟩
        exact ⟨hsome, fun hkey => hne (h.number_eq hfew hid hid' hpresent hsome hkey), hactive⟩
  stale hpresent := by
    have hget : s.connections.get id = none := (h.get hfew hid).trans hpresent
    refine ⟨hget, ?_, fun filter => ?_, fun l hl => h.stale hfew hid hpresent hl⟩
    · rw [Connections.remove, hget]
      rfl
    · rw [Connections.getMarkActiveIf, hget]
      rfl

/-- **Stale ids never alias**: in every run with less than `2 ^ 32` insertions, however handles are
reused, every id that was returned stands for the insertion that has returned it. -/
theorem stale_ids_never_alias (h : Reachable Init anyStep exec s)
    (hfew : s.returned.length < 2 ^ 32) (hid : s.returned[i]? = some id) : ActsOn s i id :=
  (kept h hfew).actsOn hfew hid

/-- A handle is used for two connections. The id of the first one is stale. -/
theorem stale_ids_never_alias_reused : ∃ s : Tracked Nat, Reachable Init anyStep exec s ∧
    s.returned = [⟨0, 0⟩, ⟨0, 1⟩] ∧ s.registry.present 0 = none ∧
    (s.registry.present 1).isSome = true ∧ ActsOn s 0 ⟨0, 0⟩ ∧ ActsOn s 1 ⟨0, 1⟩ := by
  have hrun : ∃ s : Tracked Nat, Reachable Init anyStep exec s ∧
      decide (s.returned = [⟨0, 0⟩, ⟨0, 1⟩] ∧ s.registry.present 0 = none ∧
        (s.registry.present 1).isSome = true) = true :=
    exists_reachable (some (⟨.new, [], .empty⟩ : Tracked Nat)) (fun s hs => (Option.some.inj hs).symm)
      [.insertRaw 0 7, .nextActive, .remove 0, .insertRaw 0 8, .nextActive,
        .getMarkActiveIf 0 (fun _ => true) id]
      (by decide +kernel)
  obtain ⟨s, hs, hp⟩ := hrun
  obtain ⟨hreturned, hfirst, hsecond⟩ := of_decide_eq_true hp
  have hfew : s.returned.length < 2 ^ 32 := by
    rw [hreturned]
    decide
  refine ⟨s, hs, hreturned, hfirst, hsecond, ?_, ?_⟩
  · exact stale_ids_never_alias hs hfew (by rw [hreturned]; rfl)
  · exact stale_ids_never_alias hs hfew (by rw [hreturned]; rfl)

end Tracked

end Aquic.Backend.Quinn

import Aquic.Backend.Quiche.Application
import Aquic.Backend.Quiche.Streams

/-!
# The ids that a connection has handed out

`get_last_local_stream_id` is meant to return the last stream that was opened locally:

    true => match self.stream_bidi_sequence.previous().is_ok() {
        true => Some(self.stream_bidi_sequence),

The sequence holds the *next* id, and its predecessor is only looked at. So from the first stream on, the
guard of `stream_send` lets the stream pass that is about to be opened.

The ids themselves are what they should be: they count up in steps of four, and never repeat.
-/

namespace Aquic.Backend.Quiche

open Aquic.Run Aquic.Stream

variable {Conn Cfg G T : Type}

namespace Connection

variable {c c' : Connection Conn} {bidirectional : Bool} {streamId : StreamId}

/-- The id that is allocated next. -/
def sequence (c : Connection Conn) (bidirectional : Bool) : StreamId :=
  if bidirectional then c.streamBidiSequence else c.streamUniSequence

/-- The last id of the other direction stays where it is. -/
theorem allocateStreamId_spec (h : c.allocateStreamId bidirectional = some (c', streamId)) :
    streamId = c.sequence bidirectional ∧ streamId.next = some (c'.sequence bidirectional) ∧
      c'.sequence (!bidirectional) = c.sequence (!bidirectional) ∧ c'.inner = c.inner := by
  unfold allocateStreamId at h
  cases bidirectional with
  | true =>
    obtain ⟨next, hnext, heq⟩ := Option.map_eq_some_iff.mp h
    cases heq
    exact ⟨rfl, hnext, rfl, rfl⟩
  | false =>
    obtain ⟨next, hnext, heq⟩ := Option.map_eq_some_iff.mp h
    cases heq
    exact ⟨rfl, hnext, rfl, rfl⟩

theorem sequence_new (lib : Library Conn Cfg) (inner : Conn) (verified bidirectional : Bool) :
    (Connection.new lib inner verified).sequence bidirectional =
      .initial (!lib.isServer inner) bidirectional := by
  cases bidirectional <;> rfl

theorem sequence_edit (change : Connection Conn → Connection Conn) (c : Connection Conn)
    (bidirectional : Bool) : (c.edit change).sequence bidirectional = c.sequence bidirectional := by
  cases bidirectional <;> rfl

/-- What `get_last_local_stream_id` returns is the next id. -/
theorem getLastLocalStreamId_eq (c : Connection Conn) (bidirectional : Bool) :
    c.getLastLocalStreamId bidirectional =
      if (c.sequence bidirectional).raw < 4 then none else some (c.sequence bidirectional) := by
  have hle := (c.sequence bidirectional).le_max
  show (c.sequence bidirectional).previous.map (fun _ => c.sequence bidirectional) = _
  unfold StreamId.previous StreamId.new
  by_cases hfirst : (c.sequence bidirectional).raw < 4
  · rw [if_pos hfirst, if_pos hfirst, Option.map_none]
  · rw [if_neg hfirst, if_neg hfirst, dif_pos (by omega), Option.map_some]

end Connection

/-! ## A sequence -/

/-- These ids count up from `first` in steps of four, and `next` follows. -/
structure CountUp (first : StreamId) (ids : List StreamId) (next : StreamId) : Prop where
  raws : ids.map StreamId.raw = (List.range ids.length).map (first.raw + 4 * ·)
  next : next.raw = first.raw + 4 * ids.length

namespace CountUp

variable {first next next' : StreamId} {ids : List StreamId}

theorem nil (first : StreamId) : CountUp first [] first := ⟨rfl, rfl⟩

theorem append (h : CountUp first ids next) (hnext : next.next = some next') :
    CountUp first (ids ++ [next]) next' := by
  refine ⟨?_, ?_⟩
  · rw [List.map_append, h.raws, List.length_append, List.length_singleton, List.range_succ,
      List.map_append, List.map_singleton, List.map_singleton, h.next]
  · rw [StreamId.raw_next hnext, h.next, List.length_append, List.length_singleton]
    omega

theorem getElem (h : CountUp first ids next) (i : Nat) (hi : i < ids.length) :
    ids[i].raw = first.raw + 4 * i := by
  have hget : (ids.map StreamId.raw)[i]? = some (ids[i].raw) := by
    rw [List.getElem?_map, List.getElem?_eq_getElem hi, Option.map_some]
  rw [h.raws, List.getElem?_map, List.getElem?_range hi] at hget
  exact (Option.some.inj hget).symm

/-- Each id is four above the one before it. -/
theorem isChain (h : CountUp first ids next) :
    ids.IsChain fun id id' => id'.raw = id.raw + 4 := by
  rw [List.isChain_iff_getElem]
  intro i hi
  rw [h.getElem i (by omega), h.getElem (i + 1) hi]
  omega

theorem nodup (h : CountUp first ids next) : ids.Nodup := by
  refine List.Nodup.of_map StreamId.raw ?_
  rw [h.raws]
  exact List.nodup_range.map fun i j hij =>
    Nat.eq_of_mul_eq_mul_left (by decide) (Nat.add_left_cancel hij)

/-- The next id is not there yet. -/
theorem next_notMem (h : CountUp first ids next) : next ∉ ids := by
  intro hmem
  obtain ⟨i, hi, heq⟩ := List.getElem_of_mem hmem
  have hraw := h.getElem i hi
  rw [heq, h.next] at hraw
  omega

end CountUp

/-! ## Histories -/

/-- A connection, and the ids of each direction that it has handed out, in order. -/
structure Allocated (Conn : Type) where
  connection : Connection Conn
  ids : Bool → List StreamId

namespace Allocated

/-- The connection has handed out another id. -/
def hand (s : Allocated Conn) (connection : Connection Conn) (bidirectional : Bool)
    (streamId : StreamId) : Allocated Conn where
  connection := connection
  ids := Function.update s.ids bidirectional (s.ids bidirectional ++ [streamId])

@[simp] theorem hand_ids (s : Allocated Conn) (connection : Connection Conn)
    (bidirectional : Bool) (streamId : StreamId) :
    (s.hand connection bidirectional streamId).ids bidirectional =
      s.ids bidirectional ++ [streamId] :=
  Function.update_self ..

@[simp] theorem hand_ids_not (s : Allocated Conn) (connection : Connection Conn)
    (bidirectional : Bool) (streamId : StreamId) :
    (s.hand connection bidirectional streamId).ids (!bidirectional) = s.ids (!bidirectional) :=
  Function.update_of_ne (Bool.not_ne_self _) ..

/-- One change. -/
def exec (s : Allocated Conn) : Connection.StreamsLabel Conn → Option (Allocated Conn)
  | .allocate bidirectional =>
    match s.connection.allocateStreamId bidirectional with
    | none => some s
    | some (connection, streamId) => some (s.hand connection bidirectional streamId)
  | .change change => some { s with connection := s.connection.edit change }

/-- A connection right after `Connection::new`, for a quiche connection of this role. -/
def Init (lib : Library Conn Cfg) (isServer : Bool) (s : Allocated Conn) : Prop :=
  ∃ inner verified, lib.isServer inner = isServer ∧ s = ⟨.new lib inner verified, fun _ => []⟩

/-- A quiche connection does not change its role. -/
def keepsRole (lib : Library Conn Cfg) (s : Allocated Conn) :
    Connection.StreamsLabel Conn → Prop
  | .allocate _ => True
  | .change change => lib.isServer (change s.connection).inner = lib.isServer s.connection.inner

variable {lib : Library Conn Cfg} {isServer : Bool} {s s' : Allocated Conn}

/-- The ids of both directions count up from the first ones of the role. -/
structure Counts (lib : Library Conn Cfg) (isServer : Bool) (s : Allocated Conn) : Prop where
  role : lib.isServer s.connection.inner = isServer
  own : s.connection.OwnStreams isServer
  counts bidirectional : CountUp (.initial (!isServer) bidirectional) (s.ids bidirectional)
    (s.connection.sequence bidirectional)
  bits bidirectional : ∀ id ∈ s.ids bidirectional,
    id.isServer = isServer ∧ id.isUni = !bidirectional

theorem counts_init (h : Init lib isServer s) : Counts lib isServer s := by
  obtain ⟨inner, verified, hrole, rfl⟩ := h
  refine ⟨hrole, .init ⟨inner, verified, hrole, rfl⟩, fun bidirectional => ?_,
    fun _ _ hmem => nomatch hmem⟩
  rw [Connection.sequence_new, hrole]
  exact CountUp.nil _

theorem Counts.exec (h : Counts lib isServer s) {label : Connection.StreamsLabel Conn}
    (hrole : keepsRole lib s label) (hexec : s.exec label = some s') :
    Counts lib isServer s' := by
  cases label with
  | change change =>
    cases hexec
    refine ⟨hrole.trans h.role, h.own.exec (l := .change change) rfl, fun bidirectional => ?_, h.bits⟩
    rw [Connection.sequence_edit]
    exact h.counts bidirectional
  | allocate bidirectional =>
    cases hallocate : s.connection.allocateStreamId bidirectional with
    | none =>
      simp only [Allocated.exec, hallocate] at hexec
      cases hexec
      exact h
    | some result =>
      simp only [Allocated.exec, hallocate] at hexec
      cases hexec
      obtain ⟨hid, hnext, hother, hinner⟩ := Connection.allocateStreamId_spec hallocate
      obtain ⟨hown, hbits⟩ := h.own.allocate hallocate
      refine ⟨hinner ▸ h.role, hown, fun direction => ?_, fun direction id hmem => ?_⟩
      · -- one direction has a new id, the other one is as before
        rcases Bool.eq_or_eq_not direction bidirectional with rfl | rfl
        · rw [hand_ids, hid]
          exact (h.counts direction).append (hid ▸ hnext)
        · rw [hand_ids_not]
          exact hother ▸ h.counts _
      · rcases Bool.eq_or_eq_not direction bidirectional with rfl | rfl
        · rw [hand_ids] at hmem
          rcases List.mem_append.mp hmem with hmem | hmem
          · exact h.bits direction id hmem
          · rw [List.mem_singleton.mp hmem]
            exact hbits
        · rw [hand_ids_not] at hmem
          exact h.bits _ id hmem

theorem counts (h : Reachable (Init lib isServer) (keepsRole lib) exec s) :
    Counts lib isServer s :=
  h.invariant (fun _ => counts_init) fun _ _ _ hinv hrole hexec => hinv.exec hrole hexec

/-! ## What is exact, and what is not -/

/-- The ids are distinct, count up in steps of four, and belong to the role and to their direction; a
failing call changes nothing. -/
structure InOrder (isServer : Bool) (s : Allocated Conn) : Prop where
  distinct : (s.ids true ++ s.ids false).Nodup
  apart bidirectional : (s.ids bidirectional).IsChain fun id id' => id'.raw = id.raw + 4
  bits bidirectional : ∀ id ∈ s.ids bidirectional,
    id.isServer = isServer ∧ id.isUni = !bidirectional
  bound bidirectional : ∀ id ∈ s.ids bidirectional, id.raw ≤ 2 ^ 62 - 1
  failure bidirectional : s.connection.allocateStreamId bidirectional = none →
    s.exec (.allocate bidirectional) = some s

theorem Counts.inOrder (h : Counts lib isServer s) : InOrder isServer s := by
  refine ⟨?_, fun bidirectional => (h.counts bidirectional).isChain, h.bits,
    fun _ id _ => id.le_max, fun bidirectional hnone => ?_⟩
  · refine List.Nodup.append (h.counts true).nodup (h.counts false).nodup fun id hbidi huni => ?_
    -- an id has one direction
    have hbits := (h.bits true id hbidi).2.symm.trans (h.bits false id huni).2
    cases hbits
  · simp only [Allocated.exec, hnone]

/-- The last id is known, and the guard of `stream_send` lets only local streams pass that were
opened. -/
structure LastKnown (env : Env Conn Cfg G T) (isServer bidirectional : Bool)
    (s : Allocated Conn) : Prop where
  last : s.connection.getLastLocalStreamId bidirectional = (s.ids bidirectional).getLast?
  guard streamId : streamId.isServer = isServer → streamId.isUni = !bidirectional →
    QuicheBackend.isOpened env s.connection streamId = true → streamId ∈ s.ids bidirectional

/-- Before the first stream, there is no last one, and the guard stops everything. -/
theorem Counts.lastKnown {env : Env Conn Cfg G T} (h : Counts env.quiche isServer s)
    {bidirectional : Bool} (hnone : s.ids bidirectional = []) :
    LastKnown env isServer bidirectional s := by
  have hnext := (h.counts bidirectional).next
  rw [hnone, List.length_nil] at hnext
  have hfirst : (s.connection.sequence bidirectional).raw < 4 := by
    rw [hnext]
    cases isServer <;> cases bidirectional <;> decide
  have hlast : s.connection.getLastLocalStreamId bidirectional = none := by
    rw [Connection.getLastLocalStreamId_eq, if_pos hfirst]
  refine ⟨?_, fun streamId hserver huni hopened => ?_⟩
  · rw [hlast, hnone, List.getLast?_nil]
  · have hbidi : streamId.isBidi = bidirectional := by
      rw [StreamId.isBidi, huni, Bool.not_not]
    unfold QuicheBackend.isOpened at hopened
    rw [h.role, hserver, hbidi, hlast] at hopened
    simp at hopened

/-- Afterwards, the next stream counts as opened. -/
theorem Counts.not_lastKnown {env : Env Conn Cfg G T} (h : Counts env.quiche isServer s)
    {bidirectional : Bool} (hsome : s.ids bidirectional ≠ []) :
    ¬ LastKnown env isServer bidirectional s := by
  intro hknown
  have hnext := (h.counts bidirectional).next
  have hlength := List.length_pos_iff.mpr hsome
  have hlast : s.connection.getLastLocalStreamId bidirectional =
      some (s.connection.sequence bidirectional) := by
    rw [Connection.getLastLocalStreamId_eq, if_neg (by omega)]
  rw [hknown.last] at hlast
  exact (h.counts bidirectional).next_notMem (List.mem_of_getLast? hlast)

/-- **The ids of local streams are in order, but the last one is known only before the first.** -/
theorem local_ids_tracked_iff (env : Env Conn Cfg G T) (isServer bidirectional : Bool)
    (s : Allocated Conn) (h : Reachable (Init env.quiche isServer) (keepsRole env.quiche) exec s) :
    InOrder isServer s ∧
      (LastKnown env isServer bidirectional s ↔ s.ids bidirectional = []) := by
  have hcounts := counts h
  refine ⟨hcounts.inOrder, fun hknown => ?_, hcounts.lastKnown⟩
  by_contra hsome
  exact hcounts.not_lastKnown hsome hknown

/-- A server connection after its first bidirectional stream, which is stream 1. -/
def oneStream : Allocated IdleConnection :=
  (Allocated.mk (.new idleLibrary { scid := [], closed := false } true) fun _ => []).hand
    { Connection.new idleLibrary { scid := [], closed := false } true with
      streamBidiSequence := ⟨5, Nat.le_of_ble_eq_true rfl⟩ } true (.initial false true)

theorem oneStream_reachable :
    Reachable (Init idleLibrary true) (keepsRole idleLibrary) exec oneStream :=
  .step (i := .allocate true) (.init ⟨_, _, rfl, rfl⟩) trivial rfl

/-- In the other direction, no stream was opened yet. -/
theorem local_ids_tracked_uni :
    InOrder true oneStream ∧ LastKnown QuicheBackend.idleEnv true false oneStream := by
  obtain ⟨hinOrder, hlast⟩ :=
    local_ids_tracked_iff QuicheBackend.idleEnv true false oneStream oneStream_reachable
  exact ⟨hinOrder, hlast.mpr rfl⟩

/-- The last stream is said to be stream 5, and the guard lets it pass. -/
theorem last_stream_ahead :
    Reachable (Init idleLibrary true) (keepsRole idleLibrary) exec oneStream ∧
    oneStream.connection.getLastLocalStreamId true = some ⟨5, by decide⟩ ∧
    QuicheBackend.isOpened QuicheBackend.idleEnv oneStream.connection ⟨5, by decide⟩ = true ∧
    ¬ LastKnown QuicheBackend.idleEnv true true oneStream := by
  refine ⟨oneStream_reachable, rfl, rfl, fun h => ?_⟩
  have hmem := h.guard ⟨5, by decide⟩ rfl rfl rfl
  have hraw : 5 ∈ (oneStream.ids true).map StreamId.raw := List.mem_map_of_mem hmem
  exact absurd hraw (by decide)

end Allocated

end Aquic.Backend.Quiche

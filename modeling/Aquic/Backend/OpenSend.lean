import Aquic.Backend.Directions
import Aquic.Backend.Quiche.Allocated
import Aquic.Backend.Quinn.Pending

/-!
# Opening a stream and sending on it

`stream_open_send` is one operation to the application, and two steps inside: it opens a stream, and then
calls `stream_send`, which looks the connection up again and may fail. Neither backend takes the first
step back. The quiche backend has then used up an id and announced a stream that the application never
gets; the quinn backend has used up the id. And a stream that is opened successfully is announced by the
quiche backend only.
-/

namespace Aquic.Backend

open Aquic.Run Aquic.Stream

/-- A call of `stream_open_send`, seen from outside: the events before and after it, the id that a
successful call gets before and after it, and its result. -/
structure AllOrNothing {κ : Type} [DecidableEq κ] (connectionId : κ) (before after : List (Event κ))
    (next next' : Option Nat) (result : Except Error (StreamId × Option (List UInt8))) : Prop where
  pushes : before <+: after
  success streamId unsent : result = .ok (streamId, unsent) → next = some streamId.raw ∧
    after.count (.stream (.available connectionId streamId)) =
      before.count (.stream (.available connectionId streamId)) + 1
  failure error : result = .error error → next' = next ∧
    ∀ connectionId streamId, after.count (.stream (.available connectionId streamId)) =
      before.count (.stream (.available connectionId streamId))

/-- A call that is refused and has changed neither the events nor the next id. -/
theorem AllOrNothing.refused {κ : Type} [DecidableEq κ] (connectionId : κ)
    (events : List (Event κ)) (next : Option Nat) (error : Error) :
    AllOrNothing connectionId events events next next (.error error) where
  pushes := List.prefix_refl events
  success _ _ h := nomatch h
  failure _ _ := ⟨rfl, fun _ _ => rfl⟩

/-! ## The quiche backend -/

namespace Quiche.QuicheBackend

variable {Conn Cfg G T : Type} {env : Env Conn Cfg G T} {b b' : QuicheBackend Conn Cfg G T}
  {key : ConnectionKey} {c c' : Connection Conn} {streamId : StreamId} {bidirectional : Bool}

/-- The id that the next stream of a connection gets. -/
def nextId (b : QuicheBackend Conn Cfg G T) (key : ConnectionKey) (bidirectional : Bool) :
    Option Nat :=
  (b.connections.get key).map fun c => (c.sequence bidirectional).raw

/-- An open connection that is found is marked active, and nothing else happens. -/
theorem getOpen_eq_some (h : b.getOpen env key = some (b', c)) :
    b.connections.get key = some c ∧ isConnectionOpen env.quiche c = true ∧
      b'.connections.get = b.connections.get ∧ b'.events = b.events ∧ b'.isOpen = b.isOpen := by
  obtain ⟨c, hfilter, heq⟩ := Option.map_eq_some_iff.mp h
  obtain ⟨rfl, rfl⟩ := Prod.mk.inj heq
  obtain ⟨hget, hopen⟩ := Option.filter_eq_some_iff.mp hfilter
  refine ⟨hget, hopen, ?_, rfl, rfl⟩
  unfold Connections.getMarkActiveIf
  split <;> rfl

/-- Sending changes only what quiche holds of the connection. -/
theorem streamSend_unchanged (env : Env Conn Cfg G T) (b : QuicheBackend Conn Cfg G T)
    (key : ConnectionKey) (streamId : StreamId) (bytes : List UInt8) (fin bidirectional : Bool) :
    (b.streamSend env key streamId bytes fin).1.events = b.events ∧
      (b.streamSend env key streamId bytes fin).1.nextId key bidirectional =
        b.nextId key bidirectional := by
  unfold streamSend
  split
  · exact ⟨rfl, rfl⟩
  · split
    · exact ⟨rfl, rfl⟩
    · cases hopen : b.getOpen env key with
      | none => exact ⟨rfl, rfl⟩
      | some found =>
        obtain ⟨b', c⟩ := found
        obtain ⟨hget, -, hconnections, hevents, -⟩ := getOpen_eq_some hopen
        have hget' : b'.connections.get key = some c := (congrFun hconnections key).trans hget
        simp only
        split
        · refine ⟨hevents, ?_⟩
          unfold nextId
          rw [get_put hget', hget]
          rfl
        · refine ⟨hevents, ?_⟩
          unfold nextId
          rw [hget', hget]

/-- Quiche takes the bytes, or keeps them for later. -/
def Accepts (result : Except QuicheError (Option (List UInt8))) : Prop :=
  (∃ unsent, result = .ok unsent) ∨ result = .error .done

/-- **When sending succeeds** on a connection that is there. -/
theorem streamSend_ok_iff (hopen : b.isOpen = true) (hget : b.connections.get key = some c)
    (hconnection : isConnectionOpen env.quiche c = true) (streamId : StreamId)
    (bytes : List UInt8) (fin : Bool) :
    (∃ unsent, (b.streamSend env key streamId bytes fin).2 = .ok unsent) ↔
      (streamId.isServer && streamId.isUni) = false ∧ isOpened env c streamId = true ∧
        Accepts (env.quiche.streamSendZc c.inner streamId.raw bytes fin).2 := by
  have hfound : b.getOpen env key = some
      ({ b with connections :=
          b.connections.getMarkActiveIf key (isConnectionOpen env.quiche) }, c) := by
    unfold getOpen
    rw [hget, Option.filter_some_pos hconnection]
    rfl
  unfold streamSend Accepts
  rw [if_neg (by rw [hopen]; decide), hfound]
  rcases hsent : env.quiche.streamSendZc c.inner streamId.raw bytes fin with ⟨inner, result⟩
  simp only [hsent]
  cases streamId.isServer && streamId.isUni with
  | true => simp
  | false =>
    cases isOpened env c streamId with
    | false => simp
    | true =>
      cases result with
      | ok unsent => simp
      | error error => cases error <;> simp

/-- A call that gets as far as opening a stream: the connection before and after that. -/
structure Opening (env : Env Conn Cfg G T) (b : QuicheBackend Conn Cfg G T) (key : ConnectionKey)
    (bidirectional : Bool) (c c' : Connection Conn) (streamId : StreamId) : Prop where
  isOpen : b.isOpen = true
  get : b.connections.get key = some c
  connection : isConnectionOpen env.quiche c = true
  left : c.peerStreamsLeft env.quiche bidirectional ≠ 0
  allocate : c.allocateStreamId bidirectional = some (c', streamId)

/-- The two steps of `stream_open_send`: either the call is refused and changes nothing that matters, or a
stream is opened and announced, and `stream_send` decides about the result. -/
theorem streamOpenSend_cases (env : Env Conn Cfg G T) (b : QuicheBackend Conn Cfg G T)
    (key : ConnectionKey) (bidirectional : Bool) (bytes : List UInt8) (fin : Bool) :
    (∃ b' error, b.streamOpenSend env key bidirectional bytes fin = (b', .error error) ∧
      b'.events = b.events ∧ b'.nextId key bidirectional = b.nextId key bidirectional ∧
      ∀ c c' streamId, ¬ Opening env b key bidirectional c c' streamId) ∨
    ∃ (c c' : Connection Conn) (streamId : StreamId) (b₁ : QuicheBackend Conn Cfg G T),
      Opening env b key bidirectional c c' streamId ∧
      b.streamOpenSend env key bidirectional bytes fin =
        ((b₁.streamSend env key streamId bytes fin).1,
          (b₁.streamSend env key streamId bytes fin).2.map (streamId, ·)) ∧
      b₁.isOpen = true ∧ b₁.connections.get key = some c' ∧
      b₁.events = b.events ++ [.stream (.available key streamId)] := by
  unfold streamOpenSend
  by_cases hclosed : b.isOpen = false
  · refine .inl ⟨b, .closed, if_pos hclosed, rfl, rfl, fun c c' streamId h => ?_⟩
    exact Bool.false_ne_true (hclosed.symm.trans h.isOpen)
  rw [if_neg hclosed]
  have hisOpen : b.isOpen = true := Bool.eq_true_of_not_eq_false hclosed
  cases hopen : b.getOpen env key with
  | none =>
    refine .inl ⟨b, .unknownConnection, rfl, rfl, rfl, fun c c' streamId h => ?_⟩
    -- an open connection would have been found
    unfold getOpen at hopen
    rw [h.get, Option.filter_some_pos h.connection] at hopen
    cases hopen
  | some found =>
    obtain ⟨b', c⟩ := found
    obtain ⟨hget, hconnection, hconnections, hevents, hisOpen'⟩ := getOpen_eq_some hopen
    have hget' : b'.connections.get key = some c := (congrFun hconnections key).trans hget
    have hexhausted : (b'.put key (c.setStreamsExhausted bidirectional)).nextId key bidirectional =
        b.nextId key bidirectional := by
      unfold nextId
      rw [get_put hget', hget]
      unfold Connection.setStreamsExhausted
      cases bidirectional <;> rfl
    simp only
    by_cases hleft : c.peerStreamsLeft env.quiche bidirectional = 0
    · rw [if_pos hleft]
      refine .inl ⟨_, .streamsExhausted, rfl, hevents, hexhausted, fun c₁ c' streamId h => ?_⟩
      cases hget.symm.trans h.get
      exact h.left hleft
    · rw [if_neg hleft]
      cases hallocate : c.allocateStreamId bidirectional with
      | none =>
        refine .inl ⟨_, .streamsExhausted, rfl, hevents, hexhausted, fun c₁ c' streamId h => ?_⟩
        cases hget.symm.trans h.get
        cases hallocate.symm.trans h.allocate
      | some result =>
        obtain ⟨c', streamId⟩ := result
        refine .inr ⟨c, c', streamId,
          (b'.put key c').push [.stream (.available key streamId)],
          ⟨hisOpen, hget, hconnection, hleft, hallocate⟩, rfl, hisOpen'.trans hisOpen,
          get_put hget' c', congrArg (· ++ _) hevents⟩

/-- **When the quiche backend does all or nothing**: when every stream that it opens can be sent on. -/
theorem streamOpenSend_allOrNothing_iff (env : Env Conn Cfg G T)
    (b : QuicheBackend Conn Cfg G T) (key : ConnectionKey) (bidirectional : Bool)
    (bytes : List UInt8) (fin : Bool) :
    AllOrNothing key b.events (b.streamOpenSend env key bidirectional bytes fin).1.events
      (b.nextId key bidirectional)
      ((b.streamOpenSend env key bidirectional bytes fin).1.nextId key bidirectional)
      (b.streamOpenSend env key bidirectional bytes fin).2 ↔
    ∀ c c' streamId, Opening env b key bidirectional c c' streamId →
      (streamId.isServer && streamId.isUni) = false ∧ isOpened env c' streamId = true ∧
        Accepts (env.quiche.streamSendZc c'.inner streamId.raw bytes fin).2 := by
  rcases streamOpenSend_cases env b key bidirectional bytes fin with
    ⟨b', error, heq, hevents, hnext, hnone⟩ |
    ⟨c, c', streamId, b₁, hopening, heq, hisOpen, hget, hevents⟩
  · rw [heq, hevents, hnext]
    exact ⟨fun _ c c' streamId h => absurd h (hnone c c' streamId),
      fun _ => .refused key b.events (b.nextId key bidirectional) error⟩
  · obtain ⟨hid, hnext, -, hinner⟩ := Connection.allocateStreamId_spec hopening.allocate
    have hconnection : isConnectionOpen env.quiche c' = true := by
      unfold isConnectionOpen
      rw [hinner]
      exact hopening.connection
    have hok := streamSend_ok_iff hisOpen hget hconnection streamId bytes fin
    obtain ⟨hevents', hnext'⟩ := streamSend_unchanged env b₁ key streamId bytes fin bidirectional
    have hafter : b₁.nextId key bidirectional = some (streamId.raw + 4) := by
      unfold nextId
      rw [hget, Option.map_some, StreamId.raw_next hnext]
    have hbefore : b.nextId key bidirectional = some streamId.raw := by
      unfold nextId
      rw [hopening.get, Option.map_some, hid]
    rw [heq]
    simp only [hevents', hnext', hevents, hafter, hbefore]
    refine Iff.trans ?_ (hok.trans ⟨fun h c₁ c₁' streamId' h' => ?_, fun h => h c c' _ hopening⟩)
    · generalize (b₁.streamSend env key streamId bytes fin).2 = result
      cases result with
      | error error =>
        refine ⟨fun h => ?_, fun ⟨_, h⟩ => nomatch h⟩
        -- the id is used up
        have hused := (h.failure error rfl).1
        simp at hused
      | ok unsent =>
        refine ⟨fun _ => ⟨unsent, rfl⟩, fun _ => ⟨List.prefix_append .., ?_, fun _ h => nomatch h⟩⟩
        intro streamId' unsent' h
        cases h
        refine ⟨rfl, ?_⟩
        rw [List.count_append, List.count_singleton_self]
    · cases hopening.get.symm.trans h'.get
      cases hopening.allocate.symm.trans h'.allocate
      exact h

/-- In a connection with its own streams, the stream that was opened passes the guard. -/
theorem isOpened_of_opening {isServer : Bool} (hopening : Opening env b key bidirectional c c' streamId)
    (hown : c.OwnStreams isServer) : isOpened env c' streamId = true := by
  obtain ⟨-, hnext, -, -⟩ := Connection.allocateStreamId_spec hopening.allocate
  have hbits := (hown.allocate hopening.allocate).2.2
  have hbidi : streamId.isBidi = bidirectional := by
    rw [StreamId.isBidi, hbits, Bool.not_not]
  have hraw := StreamId.raw_next hnext
  unfold isOpened
  rw [hbidi, Connection.getLastLocalStreamId_eq, if_neg (by omega), Option.any_some]
  simp [hraw]

end Quiche.QuicheBackend

/-! ## The quinn backend -/

namespace Quinn

/-- `nextId` is the id of the next stream in each direction: opening one hands it out and counts on, and
neither writing nor finishing does anything about it. -/
structure Library.OpensInOrder {Conn : Type} (lib : Library Conn) (nextId : Conn → Dir → Nat) :
    Prop where
  open_some c dir inner streamId : lib.openStream c dir = (inner, some streamId) →
    streamId.raw = nextId c dir ∧ nextId inner dir = nextId c dir + 4
  open_none c dir inner : lib.openStream c dir = (inner, none) → nextId inner dir = nextId c dir
  writeChunk c streamId bytes dir : nextId (lib.writeChunk c streamId bytes).1 dir = nextId c dir
  finish c streamId dir : nextId (lib.finish c streamId).1 dir = nextId c dir

namespace QuinnBackend

variable {Conn : Type} {b : QuinnBackend Conn} {id : QuinnConnectionId} {c c' : Connection Conn}

/-- What quinn holds of a connection. -/
def inner (b : QuinnBackend Conn) (id : QuinnConnectionId) : Option Conn :=
  (b.connections.get id).map (·.inner)

theorem inner_of_get (hget : b.connections.get id = some c) : b.inner id = some c.inner :=
  congrArg (Option.map Connection.inner) hget

theorem inner_put (hget : b.connections.get id = some c) (hversion : c'.version = c.version) :
    (b.put id.key c').inner id = some c'.inner :=
  inner_of_get (get_put_id hget hversion)

end QuinnBackend

namespace EndpointBackend

variable {Conn End Cfg Incoming Signal Report : Type}
  {env : Env Conn End Cfg Incoming Signal Report} {b : EndpointBackend Conn End Cfg}
  {backend : QuinnBackend Conn} {id : QuinnConnectionId} {c : Connection Conn}
  {streamId : StreamId} {nextId : Conn → Dir → Nat}

/-- The direction that is asked for. -/
def dirOf (bidirectional : Bool) : Dir := if bidirectional then .bi else .uni

/-- The id that the next stream of a connection gets. -/
def nextOf (nextId : Conn → Dir → Nat) (b : QuinnBackend Conn) (id : QuinnConnectionId)
    (bidirectional : Bool) : Option Nat :=
  (b.inner id).map (nextId · (dirOf bidirectional))

theorem getOpen_eq_some (h : b.getOpen env.quinn id = some (backend, c)) :
    b.connections.get id = some c ∧ backend.connections.get = b.connections.get ∧
      backend.events = b.events := by
  obtain ⟨⟨cs, c⟩, hmark, heq⟩ := Option.map_eq_some_iff.mp h
  obtain ⟨rfl, rfl⟩ := Prod.mk.inj heq
  obtain ⟨c, hfilter, heq⟩ := Option.map_eq_some_iff.mp hmark
  obtain ⟨rfl, rfl⟩ := Prod.mk.inj heq
  exact ⟨(Option.filter_eq_some_iff.mp hfilter).1, rfl, rfl⟩

/-- A connection is written back after it was found. -/
theorem nextOf_put (h : b.getOpen env.quinn id = some (backend, c)) (inner : Conn)
    (bidirectional : Bool) :
    nextOf nextId (backend.put id.key { c with inner }) id bidirectional =
      some (nextId inner (dirOf bidirectional)) := by
  obtain ⟨hget, hconnections, -⟩ := getOpen_eq_some h
  have hget' : backend.connections.get id = some c := (congrFun hconnections id).trans hget
  have hinner : (backend.put id.key { c with inner }).inner id = some inner :=
    QuinnBackend.inner_put hget' rfl
  unfold nextOf
  rw [hinner, Option.map_some]

theorem nextOf_of_getOpen (h : b.getOpen env.quinn id = some (backend, c)) (bidirectional : Bool) :
    nextOf nextId b.toQuinnBackend id bidirectional =
      some (nextId c.inner (dirOf bidirectional)) := by
  unfold nextOf
  rw [QuinnBackend.inner_of_get (getOpen_eq_some h).1, Option.map_some]

/-- Sending changes only what quinn holds of the connection. -/
theorem streamSend_unchanged (hlib : env.quinn.OpensInOrder nextId)
    (b : EndpointBackend Conn End Cfg) (id : QuinnConnectionId) (streamId : StreamId)
    (bytes : List UInt8) (fin bidirectional : Bool) :
    (b.streamSend env id streamId bytes fin).1.events = b.events ∧
      nextOf nextId (b.streamSend env id streamId bytes fin).1.toQuinnBackend id bidirectional =
        nextOf nextId b.toQuinnBackend id bidirectional := by
  unfold streamSend
  split
  · exact ⟨rfl, rfl⟩
  · split
    · exact ⟨rfl, rfl⟩
    · split
      · exact ⟨rfl, rfl⟩
      · next backend c hopen =>
        split
        next inner written hwrite =>
        split
        next inner' result hfinish =>
        refine ⟨(getOpen_eq_some hopen).2.2, (nextOf_put hopen inner' bidirectional).trans ?_⟩
        rw [nextOf_of_getOpen hopen]
        have hwritten (dir : Dir) : nextId inner dir = nextId c.inner dir := by
          have hlater := hlib.writeChunk c.inner streamId bytes dir
          split at hwrite
          · cases hwrite
            rfl
          · split at hwrite
            all_goals
              next hchunk =>
              cases hwrite
              rwa [hchunk] at hlater
        have hfinished (dir : Dir) : nextId inner' dir = nextId inner dir := by
          have hlater := hlib.finish inner streamId dir
          split at hfinish
          · split at hfinish
            all_goals
              next hdone =>
              cases hfinish
              rwa [hdone] at hlater
          · cases hfinish
            rfl
        rw [hfinished, hwritten]

/-- The call is refused before quinn opens a stream. -/
def Refuses (env : Env Conn End Cfg Incoming Signal Report) (b : EndpointBackend Conn End Cfg)
    (id : QuinnConnectionId) (bidirectional : Bool) : Prop :=
  ∀ backend c, b.isOpen = true → b.getOpen env.quinn id = some (backend, c) →
    (env.quinn.openStream c.inner (dirOf bidirectional)).2 = none

/-- The two steps of `stream_open_send`. -/
theorem streamOpenSend_cases (hlib : env.quinn.OpensInOrder nextId)
    (b : EndpointBackend Conn End Cfg) (id : QuinnConnectionId) (bidirectional : Bool)
    (bytes : List UInt8) (fin : Bool) :
    (∃ b' error, b.streamOpenSend env id bidirectional bytes fin = (b', .error error) ∧
      b'.events = b.events ∧ nextOf nextId b'.toQuinnBackend id bidirectional =
        nextOf nextId b.toQuinnBackend id bidirectional ∧ Refuses env b id bidirectional) ∨
    ∃ (next : Nat) (streamId : StreamId) (b₁ : EndpointBackend Conn End Cfg),
      b.streamOpenSend env id bidirectional bytes fin =
        ((b₁.streamSend env id streamId bytes fin).1,
          (b₁.streamSend env id streamId bytes fin).2.map (streamId, ·)) ∧
      b₁.events = b.events ∧ nextOf nextId b.toQuinnBackend id bidirectional = some next ∧
      nextOf nextId b₁.toQuinnBackend id bidirectional = some (next + 4) ∧
      ¬ Refuses env b id bidirectional := by
  unfold streamOpenSend
  by_cases hclosed : b.isOpen = false
  · refine .inl ⟨b, .closed, if_pos hclosed, rfl, rfl, fun backend c hisOpen => ?_⟩
    exact absurd (hclosed.symm.trans hisOpen) Bool.false_ne_true
  rw [if_neg hclosed]
  have hisOpen : b.isOpen = true := Bool.eq_true_of_not_eq_false hclosed
  cases hopen : b.getOpen env.quinn id with
  | none =>
    refine .inl ⟨b, .unknownConnection, rfl, rfl, rfl, fun backend c _ hfound => ?_⟩
    cases hopen.symm.trans hfound
  | some found =>
    obtain ⟨backend, c⟩ := found
    have hevents := (getOpen_eq_some hopen).2.2
    have hnext : nextOf nextId b.toQuinnBackend id bidirectional = _ :=
      nextOf_of_getOpen hopen bidirectional
    rcases hopened : env.quinn.openStream c.inner (dirOf bidirectional) with
      ⟨inner, _ | streamId⟩
    · refine .inl ⟨{ b with toQuinnBackend := backend.put id.key { c with inner } },
        .streamsExhausted, ?_, hevents, ?_, fun backend' c' _ hfound => ?_⟩
      · unfold dirOf at hopened
        simp only [hopened]
      · rw [hnext]
        refine (nextOf_put hopen inner bidirectional).trans (congrArg some ?_)
        exact hlib.open_none _ _ _ hopened
      · cases hopen.symm.trans hfound
        rw [hopened]
    · obtain ⟨-, hused⟩ := hlib.open_some _ _ _ _ hopened
      refine .inr ⟨_, streamId,
        { b with toQuinnBackend := backend.put id.key { c with inner } }, ?_, hevents, hnext, ?_,
        fun hrefuses => ?_⟩
      · unfold dirOf at hopened
        simp only [hopened]
      · exact (nextOf_put hopen inner bidirectional).trans (congrArg some hused)
      · have hnone := hrefuses backend c hisOpen hopen
        rw [hopened] at hnone
        cases hnone

/-- **When the quinn backend does all or nothing**: when it does nothing. -/
theorem streamOpenSend_allOrNothing_iff (hlib : env.quinn.OpensInOrder nextId)
    (b : EndpointBackend Conn End Cfg) (id : QuinnConnectionId) (bidirectional : Bool)
    (bytes : List UInt8) (fin : Bool) :
    AllOrNothing id b.events (b.streamOpenSend env id bidirectional bytes fin).1.events
      (nextOf nextId b.toQuinnBackend id bidirectional)
      (nextOf nextId (b.streamOpenSend env id bidirectional bytes fin).1.toQuinnBackend id
        bidirectional)
      (b.streamOpenSend env id bidirectional bytes fin).2 ↔
    Refuses env b id bidirectional := by
  rcases streamOpenSend_cases hlib b id bidirectional bytes fin with
    ⟨b', error, heq, hevents, hnext, hrefuses⟩ |
    ⟨next, streamId, b₁, heq, hevents, hbefore, hafter, hopens⟩
  · rw [heq, hevents, hnext]
    exact ⟨fun _ => hrefuses, fun _ => .refused id b.events _ error⟩
  · obtain ⟨hevents', hnext'⟩ :=
      streamSend_unchanged hlib b₁ id streamId bytes fin bidirectional
    rw [heq]
    simp only [hevents', hevents, hnext', hafter, hbefore]
    refine ⟨fun h => ?_, fun h => absurd h hopens⟩
    generalize (b₁.streamSend env id streamId bytes fin).2 = result at h
    cases result with
    | ok unsent =>
      -- the stream is not announced
      have hcount := (h.success streamId unsent rfl).2
      omega
    | error error =>
      -- the id is used up
      have hused := Option.some.inj (h.failure error rfl).1
      omega

end EndpointBackend

end Quinn

/-! ## Both backends -/

/-- **Opening and sending are one operation exactly if** the quiche backend opens no stream that cannot
be sent on, and the quinn backend opens none at all. -/
theorem open_send_all_or_nothing_iff {Conn Cfg G T Conn' End Cfg' Incoming Signal Report : Type}
    (env : Quiche.Env Conn Cfg G T) (env' : Quinn.Env Conn' End Cfg' Incoming Signal Report)
    (nextId : Conn' → Quinn.Dir → Nat) (hlib : env'.quinn.OpensInOrder nextId)
    (b : Quiche.QuicheBackend Conn Cfg G T) (key : Quiche.ConnectionKey)
    (b' : Quinn.EndpointBackend Conn' End Cfg') (id : Quinn.QuinnConnectionId)
    (bidirectional : Bool) (bytes : List UInt8) (fin : Bool) :
    (AllOrNothing key b.events (b.streamOpenSend env key bidirectional bytes fin).1.events
      (b.nextId key bidirectional)
      ((b.streamOpenSend env key bidirectional bytes fin).1.nextId key bidirectional)
      (b.streamOpenSend env key bidirectional bytes fin).2 ↔
      ∀ c c' streamId, b.Opening env key bidirectional c c' streamId →
        (streamId.isServer && streamId.isUni) = false ∧
          Quiche.QuicheBackend.isOpened env c' streamId = true ∧
          Quiche.QuicheBackend.Accepts
            (env.quiche.streamSendZc c'.inner streamId.raw bytes fin).2) ∧
    (AllOrNothing id b'.events (b'.streamOpenSend env' id bidirectional bytes fin).1.events
      (Quinn.EndpointBackend.nextOf nextId b'.toQuinnBackend id bidirectional)
      (Quinn.EndpointBackend.nextOf nextId
        (b'.streamOpenSend env' id bidirectional bytes fin).1.toQuinnBackend id bidirectional)
      (b'.streamOpenSend env' id bidirectional bytes fin).2 ↔
      Quinn.EndpointBackend.Refuses env' b' id bidirectional) :=
  ⟨b.streamOpenSend_allOrNothing_iff env key bidirectional bytes fin,
    b'.streamOpenSend_allOrNothing_iff hlib id bidirectional bytes fin⟩

/-! ## Two clients

The peer of the quiche client allows one bidirectional stream, and quiche takes what is written. The
quinn client has connections that open two streams of each direction. -/

/-- Idle client connections whose peers allow one bidirectional stream. -/
def Quiche.bidiEnv : Quiche.Env Quiche.IdleConnection Unit Cid.RandomIdGenerator Unit :=
  { Quiche.QuicheBackend.idleEnv with
    quiche :=
      { Quiche.idleLibrary with
        isServer := fun _ => false
        peerStreamsLeftBidi := fun _ => 1
        streamSendZc := fun c _ _ _ => (c, .ok none) } }

namespace Quinn

/-- A client connection that counts the streams it has opened. -/
structure Counting where
  bi : Nat
  uni : Nat
  deriving DecidableEq, Repr

namespace Counting

def count (c : Counting) : Dir → Nat
  | .bi => c.bi
  | .uni => c.uni

def increment (c : Counting) : Dir → Counting
  | .bi => { c with bi := c.bi + 1 }
  | .uni => { c with uni := c.uni + 1 }

theorem count_increment (c : Counting) (dir : Dir) : (c.increment dir).count dir = c.count dir + 1 := by
  cases dir <;> rfl

/-- The id of the next stream. -/
def nextId (c : Counting) (dir : Dir) : Nat :=
  (StreamId.initial true (dir == .bi)).raw + 4 * c.count dir

theorem nextId_le {c : Counting} {dir : Dir} (h : c.count dir < 2) : c.nextId dir ≤ maxStreamId := by
  unfold nextId maxStreamId
  cases dir with
  | bi =>
    have hfirst : (StreamId.initial true (Dir.bi == .bi)).raw = 0 := rfl
    omega
  | uni =>
    have hfirst : (StreamId.initial true (Dir.uni == .bi)).raw = 2 := rfl
    omega

/-- The third stream is refused. -/
def openStream (c : Counting) (dir : Dir) : Counting × Option StreamId :=
  if h : c.count dir < 2 then (c.increment dir, some ⟨c.nextId dir, nextId_le h⟩) else (c, none)

theorem openStream_of_le {c : Counting} {dir : Dir} (h : 2 ≤ c.count dir) :
    c.openStream dir = (c, none) :=
  dif_neg (Nat.not_lt.mpr h)

/-- Connections that open streams, take every byte, and never end. -/
def library : Library Counting where
  isDrained _ := false
  isClosed _ := false
  isServer _ := false
  currentMtu _ := 1200
  close c _ _ _ := c
  handleTimeout c _ := c
  pollTimeout c := (c, none)
  pollTransmit c _ _ := (c, none)
  poll c := (c, none)
  localAddressChanged c := c
  pathChanged c _ := c
  openStream := openStream
  acceptStream c _ := (c, none)
  readStream c _ := (c, .error .closedStream)
  nextChunk c _ _ := (c, .error .blocked)
  writeChunk c _ _ := (c, .ok none)
  finish c _ := (c, .ok ())
  stop c _ _ := c
  reset c _ _ := c
  setPriority c _ _ := c
  recvDatagram c := (c, none)
  sendDatagram c _ := (c, .error .unsupportedByPeer)
  datagramMaxSize _ := none
  display _ := "error"

/-- An endpoint for one connection. -/
def endpoint : EndpointLibrary Counting Unit Unit Unit Unit Unit where
  connect _ _ _ _ _ := ((), .ok (0, ⟨0, 0⟩))
  handle _ _ _ _ _ _ := ((), none, [])
  handleEvent _ _ _ := ((), none)
  ignore _ _ := ()
  retry _ incoming := ((), .error incoming)
  accept _ _ _ _ := ((), .error none)
  remoteAddressValidated _ := true
  deliver c _ := c
  pollEndpointEvents c := (c, [])

def env : Env Counting Unit Unit Unit Unit Unit where
  quinn := library
  endpoint

theorem opensInOrder : env.quinn.OpensInOrder nextId where
  open_some c dir inner streamId h := by
    change openStream c dir = _ at h
    unfold openStream at h
    split at h
    · cases h
      refine ⟨rfl, ?_⟩
      unfold nextId
      rw [count_increment]
      omega
    · cases h
  open_none c dir inner h := by
    change openStream c dir = _ at h
    unfold openStream at h
    split at h
    · cases h
    · cases h
      rfl
  writeChunk _ _ _ _ := rfl
  finish _ _ _ := rfl

end Counting

end Quinn

/-- A client that is about to open its first stream, and quiche does open it. -/
theorem Quiche.exists_openingClient :
    ∃ (s : Quiche.Running Quiche.IdleConnection Unit Cid.RandomIdGenerator Unit)
      (c c' : Quiche.Connection Quiche.IdleConnection),
      Reachable Quiche.Running.Init anyStep (Quiche.Running.exec Quiche.bidiEnv) s ∧
      s.backend.connections.get 0 = some c ∧
      c.allocateStreamId true = some (c', .initial true true) ∧
      Quiche.QuicheBackend.isOpened Quiche.bidiEnv c' (.initial true true) = true ∧
      (s.backend.streamOpenSend Quiche.bidiEnv 0 true [1] false).2 =
        .ok (.initial true true, none) := by
  have hrun : ∃ s : Quiche.Running Quiche.IdleConnection Unit Cid.RandomIdGenerator Unit,
      Reachable Quiche.Running.Init anyStep (Quiche.Running.exec Quiche.bidiEnv) s ∧ decide (
        (s.backend.streamOpenSend Quiche.bidiEnv 0 true [1] false).2 =
          .ok (.initial true true, none) ∧
        (s.backend.connections.get 0).any (fun c => (c.allocateStreamId true).any fun opened =>
          opened.2 == .initial true true &&
            Quiche.QuicheBackend.isOpened Quiche.bidiEnv opened.1 opened.2) = true) = true :=
    exists_reachable (Quiche.Running.idleClient.map (⟨·, []⟩)) (fun s hs => by
        obtain ⟨b, hb, rfl⟩ := Option.map_eq_some_iff.mp hs
        exact Quiche.Running.idleClient_init hb)
      [.connect "" Quiche.QuicheBackend.peerAddr none]
      (by decide +kernel)
  obtain ⟨s, hs, hp⟩ := hrun
  obtain ⟨hok, hopened⟩ := of_decide_eq_true hp
  obtain ⟨c, hget, hopened⟩ := (Option.any_eq_true ..).mp hopened
  obtain ⟨⟨c', streamId⟩, hallocate, hopened⟩ := (Option.any_eq_true ..).mp hopened
  obtain ⟨hfirst, hopened⟩ := Bool.and_eq_true_iff.mp hopened
  obtain rfl := eq_of_beq hfirst
  exact ⟨s, c, c', hs, hget, hallocate, hopened, hok⟩

/-- A client that has opened two streams is refused the third. -/
theorem Quinn.exists_exhaustedClient :
    ∃ s : Quinn.Running Quinn.Counting Unit Unit,
      Reachable Quinn.Running.Init anyStep (Quinn.Running.exec Quinn.Counting.env) s ∧
      Quinn.EndpointBackend.nextOf Quinn.Counting.nextId s.backend.toQuinnBackend ⟨0, 0⟩ true =
        some 8 ∧
      (s.backend.streamOpenSend Quinn.Counting.env ⟨0, 0⟩ true [1] false).2 =
        .error .streamsExhausted := by
  have hrun : ∃ s : Quinn.Running Quinn.Counting Unit Unit,
      Reachable Quinn.Running.Init anyStep (Quinn.Running.exec Quinn.Counting.env) s ∧ decide (
        Quinn.EndpointBackend.nextOf Quinn.Counting.nextId s.backend.toQuinnBackend ⟨0, 0⟩ true =
          some 8 ∧
        (s.backend.streamOpenSend Quinn.Counting.env ⟨0, 0⟩ true [1] false).2 =
          .error .streamsExhausted) = true :=
    exists_reachable (some ⟨.new { client := some (), server := none } () [] [1500] .localhost .zero, []⟩)
      (fun s hs => Option.some.inj hs ▸
        ⟨rfl, { client := some (), server := none }, (), [], [1500], .localhost, .zero, rfl⟩)
      [.connect "" Quinn.fragilePeer, .streamOpenSend ⟨0, 0⟩ true [1] false,
        .streamOpenSend ⟨0, 0⟩ true [2] false]
      (by decide +kernel)
  obtain ⟨s, hs, hp⟩ := hrun
  obtain ⟨hnext, hexhausted⟩ := of_decide_eq_true hp
  exact ⟨s, hs, hnext, hexhausted⟩

/-- The quiche client opens stream 0 and sends on it. The quinn client has opened the streams 0 and 4 on
its connection, and is refused a third one. -/
theorem open_send_all_or_nothing_clients :
    ∃ (s : Quiche.Running Quiche.IdleConnection Unit Cid.RandomIdGenerator Unit)
      (s' : Quinn.Running Quinn.Counting Unit Unit),
      Reachable Quiche.Running.Init anyStep (Quiche.Running.exec Quiche.bidiEnv) s ∧
      (s.backend.streamOpenSend Quiche.bidiEnv 0 true [1] false).2 = .ok (.initial true true, none) ∧
      AllOrNothing 0 s.backend.events
        (s.backend.streamOpenSend Quiche.bidiEnv 0 true [1] false).1.events
        (s.backend.nextId 0 true)
        ((s.backend.streamOpenSend Quiche.bidiEnv 0 true [1] false).1.nextId 0 true)
        (s.backend.streamOpenSend Quiche.bidiEnv 0 true [1] false).2 ∧
      Reachable Quinn.Running.Init anyStep (Quinn.Running.exec Quinn.Counting.env) s' ∧
      Quinn.EndpointBackend.nextOf Quinn.Counting.nextId s'.backend.toQuinnBackend ⟨0, 0⟩ true = some 8 ∧
      (s'.backend.streamOpenSend Quinn.Counting.env ⟨0, 0⟩ true [1] false).2 = .error .streamsExhausted ∧
      AllOrNothing ⟨0, 0⟩ s'.backend.events
        (s'.backend.streamOpenSend Quinn.Counting.env ⟨0, 0⟩ true [1] false).1.events
        (Quinn.EndpointBackend.nextOf Quinn.Counting.nextId s'.backend.toQuinnBackend ⟨0, 0⟩ true)
        (Quinn.EndpointBackend.nextOf Quinn.Counting.nextId
          (s'.backend.streamOpenSend Quinn.Counting.env ⟨0, 0⟩ true [1] false).1.toQuinnBackend
          ⟨0, 0⟩ true)
        (s'.backend.streamOpenSend Quinn.Counting.env ⟨0, 0⟩ true [1] false).2 := by
  obtain ⟨s, c, c', hs, hget, hallocate, hopened, hok⟩ := Quiche.exists_openingClient
  obtain ⟨s', hs', hnext, hexhausted⟩ := Quinn.exists_exhaustedClient
  obtain ⟨hquiche, hquinn⟩ := open_send_all_or_nothing_iff Quiche.bidiEnv Quinn.Counting.env
    Quinn.Counting.nextId Quinn.Counting.opensInOrder s.backend 0 s'.backend ⟨0, 0⟩ true [1] false
  refine ⟨s, s', hs, hok, hquiche.mpr fun c₁ c₁' streamId h => ?_, hs', hnext, hexhausted,
    hquinn.mpr fun backend c₁ _ hfound => ?_⟩
  · cases hget.symm.trans h.get
    cases hallocate.symm.trans h.allocate
    exact ⟨rfl, hopened, .inl ⟨none, rfl⟩⟩
  · have hget := (Quinn.EndpointBackend.getOpen_eq_some hfound).1
    unfold Quinn.EndpointBackend.nextOf at hnext
    rw [Quinn.QuinnBackend.inner_of_get hget] at hnext
    -- two streams are open
    have hcount : 0 + 4 * c₁.inner.count .bi = 8 := Option.some.inj hnext
    exact congrArg Prod.snd (Quinn.Counting.openStream_of_le (show 2 ≤ c₁.inner.count .bi by omega))

/-- **A stream that nobody gets**: a server opens the unidirectional stream 3 and announces it, and the
call fails. -/
theorem open_send_partly :
    ∃ s : Quiche.Running Quiche.IdleConnection Unit Cid.RandomIdGenerator Unit,
      Reachable Quiche.Running.Init anyStep (Quiche.Running.exec Quiche.uniEnv) s ∧
      (s.backend.streamOpenSend Quiche.uniEnv 0 false [1] false).2 = .error .illegal ∧
      (s.backend.streamOpenSend Quiche.uniEnv 0 false [1] false).1.nextId 0 false = some 7 ∧
      ¬ AllOrNothing 0 s.backend.events
        (s.backend.streamOpenSend Quiche.uniEnv 0 false [1] false).1.events
        (s.backend.nextId 0 false)
        ((s.backend.streamOpenSend Quiche.uniEnv 0 false [1] false).1.nextId 0 false)
        (s.backend.streamOpenSend Quiche.uniEnv 0 false [1] false).2 := by
  have hrun : ∃ s : Quiche.Running Quiche.IdleConnection Unit Cid.RandomIdGenerator Unit,
      Reachable Quiche.Running.Init anyStep (Quiche.Running.exec Quiche.uniEnv) s ∧ decide (
        (s.backend.streamOpenSend Quiche.uniEnv 0 false [1] false).2 = .error .illegal ∧
        s.backend.nextId 0 false = some 3 ∧
        (s.backend.streamOpenSend Quiche.uniEnv 0 false [1] false).1.nextId 0 false =
          some 7) = true :=
    exists_reachable ((Quiche.QuicheBackend.idleServer 1 fun _ _ _ => true).map (⟨·, []⟩))
      (fun s hs => by
        obtain ⟨b, hb, rfl⟩ := Option.map_eq_some_iff.mp hs
        exact Quiche.Running.idleServer_init hb)
      [.recv [Quiche.QuicheBackend.initialPacket [1, 2, 3] []] []]
      (by decide +kernel)
  obtain ⟨s, hs, hp⟩ := hrun
  obtain ⟨hillegal, hbefore, hafter⟩ := of_decide_eq_true hp
  refine ⟨s, hs, hillegal, hafter, fun h => ?_⟩
  have hused := (h.failure .illegal hillegal).1
  rw [hbefore, hafter] at hused
  cases hused

end Aquic.Backend

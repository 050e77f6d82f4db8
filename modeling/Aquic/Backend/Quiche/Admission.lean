import Aquic.Backend.Quiche.Batching
import Aquic.Backend.Quiche.Initial
import Aquic.Backend.Quiche.Polls
import Aquic.Backend.Token.Padded

/-!
# Admission

A server admits a peer whose token is verified. Any other peer is a matter of the firewall, which sees
the numbers of connections and of unverified ones; if it refuses, the peer is asked to come back with
a token (`Retry`).

The numbers are counters that are kept while connections come and go. They are exact as long as the
counters do not wrap around, which the slot map takes care of.
-/

namespace Aquic.Backend.Quiche

open Aquic.Cid Aquic.Collections Aquic.Crypto Aquic.Net Aquic.Run Aquic.Timer Aquic.Tokens Aquic.Word

variable {Conn Cfg G T : Type}

/-! ## Outside the repository -/

/-- What quiche promises about roles and packets. -/
structure Library.Standard (lib : Library Conn Cfg) : Prop where
  /-- A connection keeps its role. -/
  role c c' : lib.Method c c' → lib.isServer c' = lib.isServer c
  accepted cfg scid odcid localAddr peerAddr cfg' c :
    lib.accept cfg scid odcid localAddr peerAddr = (cfg', .ok c) → lib.isServer c = true
  /-- In packets of a supported version, ids have at most 20 bytes. -/
  ids buf dcidLen header : lib.headerFromSlice buf dcidLen = some header →
    lib.versionIsSupported header.version = true →
      header.scid.length ≤ maxCidLen ∧ header.dcid.length ≤ maxCidLen
  retry scid dcid newScid token version bufLen bytes :
    lib.retry scid dcid newScid token version bufLen = .ok bytes →
      bytes ≠ [] ∧ bytes.length ≤ bufLen

theorem Library.Standard.methods {lib : Library Conn Cfg} (hlib : lib.Standard) {c c' : Conn}
    (h : lib.Methods c c') : lib.isServer c' = lib.isServer c := by
  induction h with
  | refl => rfl
  | tail _ hmethod ih => exact (hlib.role _ _ hmethod).trans ih

/-- The trait `TokenGenerator` promises a token unless an id is too long. -/
def TokensForIds (tokens : TokenGenerator T) : Prop :=
  ∀ generator peerAddr peerScid peerDcid serverNewScid expiresAt,
    peerScid.length ≤ maxCidLen → peerDcid.length ≤ maxCidLen →
      serverNewScid.length ≤ maxCidLen →
        (tokens.generateRetryToken generator peerAddr peerScid peerDcid serverNewScid
          expiresAt).2.isSome

/-- The padded generator keeps this promise. -/
theorem generateRetryToken_isSome {Key : Type} (alg : Algorithm Key) (aead : Aead Key)
    (store : KeyStore Key) (rng : Randomness) (peerAddr : IpAddr)
    {peerScid peerDcid serverNewScid : List UInt8} (expiresAt : SystemTime)
    (hscid : peerScid.length ≤ maxCidLen) (hdcid : peerDcid.length ≤ maxCidLen)
    (hnew : serverNewScid.length ≤ maxCidLen) :
    (generateRetryToken alg aead store rng peerAddr peerScid peerDcid serverNewScid
      expiresAt).2.isSome := by
  have hshort : ¬ (maxCidLen < peerScid.length ∨ maxCidLen < peerDcid.length ∨
      maxCidLen < serverNewScid.length) := by omega
  unfold generateRetryToken
  rw [if_neg hshort]
  rfl

/-! ## Counters -/

/-- A counter of the values with this property. It is a word. -/
def Tallies {α : Type} (n : Nat) (s : Slots α) (p : α → Bool) : Prop :=
  n = s.countP p % 2 ^ usizeBits

section Tallies

variable {α : Type} {n : Nat} {s : Slots α} {p : α → Bool} {key : Nat} {old : α}

theorem wrappingSub_mod {m : Nat} (h : 0 < m) :
    wrappingSub usizeBits (m % 2 ^ usizeBits) 1 = (m - 1) % 2 ^ usizeBits := by
  unfold wrappingSub usizeBits
  split <;> omega

theorem Tallies.exact (h : Tallies n s p) (hlength : s.length < 2 ^ usizeBits) : n = s.countP p := by
  rw [h]
  exact Nat.mod_eq_of_lt ((s.countP_le_length p).trans_lt hlength)

theorem Tallies.push (h : Tallies n s p) (value : α) :
    Tallies (if p value then wrappingAdd usizeBits n 1 else n) (s.push value).1 p := by
  unfold Tallies at h ⊢
  rw [Slots.countP_push, h]
  split
  · exact Nat.mod_add_mod ..
  · rfl

theorem Tallies.remove (h : Tallies n s p) (hget : s.get key = some old) :
    Tallies (if p old then wrappingSub usizeBits n 1 else n) (s.remove key) p := by
  have hcount := Slots.countP_remove hget p
  unfold Tallies at h ⊢
  split
  · next hp =>
    rw [if_pos hp] at hcount
    rw [h, wrappingSub_mod (Slots.countP_pos hget hp), Nat.sub_eq_of_eq_add hcount.symm]
  · next hp =>
    rw [if_neg hp] at hcount
    rw [h, ← hcount]
    rfl

theorem Tallies.set (h : Tallies n s p) (hget : s.get key = some old) {value : α}
    (hvalue : p value = p old) : Tallies n (s.set key value) p := by
  have hcount := Slots.countP_set hget value p
  rw [hvalue] at hcount
  unfold Tallies at h ⊢
  rw [h, Nat.add_right_cancel hcount]

/-- A value loses the property. -/
theorem Tallies.unset (h : Tallies n s p) (hget : s.get key = some old) (hold : p old = true)
    {value : α} (hvalue : p value = false) :
    Tallies (wrappingSub usizeBits n 1) (s.set key value) p := by
  have hcount := Slots.countP_set hget value p
  rw [if_pos hold, if_neg (Bool.eq_false_iff.mp hvalue)] at hcount
  have hless : s.countP p - 1 = (s.set key value).countP p := Nat.sub_eq_of_eq_add hcount.symm
  unfold Tallies at h ⊢
  rw [h, wrappingSub_mod (Slots.countP_pos hget hold), hless]

end Tallies

namespace Connections

/-- **The counters are exact**: they count the live server connections, all and unverified. -/
structure Exact (lib : Library Conn Cfg) (cs : Connections Conn) : Prop where
  server : cs.serverConnectionsCount = cs.all.countP (isServer lib)
  unverified : cs.serverUnverifiedConnectionsCount = cs.all.countP (isUnverified lib)

/-- … up to the size of a word. -/
structure Tallied (lib : Library Conn Cfg) (cs : Connections Conn) : Prop where
  server : Tallies cs.serverConnectionsCount cs.all (isServer lib)
  unverified : Tallies cs.serverUnverifiedConnectionsCount cs.all (isUnverified lib)

variable {lib : Library Conn Cfg} {cs cs' : Connections Conn} {key : ConnectionKey}
  {c c' : Connection Conn}

theorem Tallied.exact (h : Tallied lib cs) (hlength : cs.all.length < 2 ^ usizeBits) :
    Exact lib cs :=
  ⟨h.server.exact hlength, h.unverified.exact hlength⟩

theorem Tallied.put (h : Tallied lib cs) (hget : cs.get key = some c)
    (hrole : lib.isServer c'.inner = lib.isServer c.inner)
    (hverified : c'.peerAddressVerified = c.peerAddressVerified) : Tallied lib (cs.put key c') := by
  refine ⟨h.server.set hget hrole, h.unverified.set hget ?_⟩
  unfold isUnverified
  rw [hrole, hverified]

theorem Tallied.insert (h : Tallied lib cs) {peerAddr : SocketAddr}
    (hinsert : cs.insert lib c peerAddr = some (cs', key)) : Tallied lib cs' := by
  obtain ⟨-, hall, -, hserver, hunverified, -⟩ := insert_cases hinsert
  constructor
  · rw [hserver, hall]
    exact h.server.push c
  · rw [hunverified, hall]
    exact h.unverified.push c

theorem Tallied.remove (hlib : lib.Standard) (h : Tallied lib cs)
    (hremove : cs.remove lib key = some (cs', c')) : Tallied lib cs' := by
  simp only [Connections.remove, Option.bind_eq_bind, Option.bind_eq_some_iff] at hremove
  obtain ⟨c, hget, hremove⟩ := hremove
  obtain ⟨rfl, rfl⟩ := Prod.mk.inj (Option.some.inj hremove)
  have hrole := hlib.role _ _ (.retiredScids c.inner)
  constructor
  · have hserver := h.server.remove hget
    unfold isServer at hserver ⊢
    rw [← hrole] at hserver
    exact hserver
  · have hunverified := h.unverified.remove hget
    unfold isUnverified at hunverified ⊢
    rw [← hrole] at hunverified
    exact hunverified

theorem Tallied.markVerified (h : Tallied lib cs) (key : ConnectionKey) :
    Tallied lib (cs.markVerified lib key) := by
  unfold Connections.markVerified
  split
  · exact h
  · next c hget =>
    split
    · next hunverified =>
      exact ⟨h.server.set hget rfl, h.unverified.unset hget hunverified (Bool.and_false _)⟩
    · exact h

end Connections

namespace QuicheBackend

variable {env : Env Conn Cfg G T} {b b' : QuicheBackend Conn Cfg G T}

open Connections

theorem Step.tallied (hlib : env.quiche.Standard) (hstep : Step env b b')
    (h : Tallied env.quiche b.connections) : Tallied env.quiche b'.connections := by
  cases hstep with
  | edit hget hedits => exact h.put hget (hlib.methods hedits.inner) hedits.verified
  | other _ hall hserver hunverified =>
    constructor
    · rw [hserver, hall]
      exact h.server
    · rw [hunverified, hall]
      exact h.unverified
  | register _ hinsert => exact h.insert hinsert
  | remove hremove => exact h.remove hlib hremove
  | verify key => exact h.markVerified key

theorem Marked.tallied {m : Mark Conn} (hlib : env.quiche.Standard) (hmark : Marked env b m b')
    (h : Tallied env.quiche b.connections) : Tallied env.quiche b'.connections := by
  cases hmark with
  | refuse hget bidirectional => cases bidirectional <;> exact h.put hget rfl rfl
  | miss hget hmethod => exact h.put hget (hlib.role _ _ hmethod) rfl
  | read hget hmethod => exact h.put hget (hlib.role _ _ hmethod) rfl
  | fail => exact h
  | poll hget hget' =>
    obtain ⟨-, hpolls, hconnections, -⟩ := (Marked.poll hget hget').polled
    rw [hconnections]
    exact h.put hget (hlib.methods hpolls.inner) hpolls.verified

theorem Moves.tallied {marks : List (Mark Conn)} (hlib : env.quiche.Standard)
    (hmoves : Moves env b marks b') (h : Tallied env.quiche b.connections) :
    Tallied env.quiche b'.connections :=
  hmoves.invariant (fun b _ => Tallied env.quiche b.connections)
    (fun _ _ _ hstep => hstep.tallied hlib) (fun _ _ _ _ hmark => hmark.tallied hlib) [] h

end QuicheBackend

/-- The counters are right in every run, up to the size of a word. -/
theorem Running.tallied {env : Env Conn Cfg G T} (hlib : env.quiche.Standard)
    {s : Running Conn Cfg G T} (h : Reachable Running.Init anyStep (Running.exec env) s) :
    s.backend.connections.Tallied env.quiche := by
  obtain ⟨history, hrecorded⟩ := Recorded.exists_history h
  exact Recorded.invariant (fun connections _ _ => connections.Tallied env.quiche) ⟨rfl, rfl⟩
    (fun _ _ _ _ _ => id) (fun _ _ _ _ hstep => hstep.tallied hlib)
    (fun _ _ _ _ _ hmark => hmark.tallied hlib) hrecorded

/-! ## Registered connections -/

namespace QuicheBackend

variable {env : Env Conn Cfg G T} {b b' : QuicheBackend Conn Cfg G T} {key : ConnectionKey}
  {c : Connection Conn}

/-- The connection was edited, and none came or went. -/
structure EditsOne (env : Env Conn Cfg G T) (key : ConnectionKey) (b b' : QuicheBackend Conn Cfg G T) :
    Prop where
  get c : b.connections.get key = some c →
    ∃ c', b'.connections.get key = some c' ∧ c.Edits env.quiche c'
  length : b'.connections.all.length = b.connections.all.length

theorem EditsOne.refl (key : ConnectionKey) (b : QuicheBackend Conn Cfg G T) :
    EditsOne env key b b :=
  ⟨fun c hget => ⟨c, hget, .refl c⟩, rfl⟩

theorem EditsOne.trans {b'' : QuicheBackend Conn Cfg G T} (h : EditsOne env key b b')
    (h' : EditsOne env key b' b'') : EditsOne env key b b'' where
  get c hget := by
    obtain ⟨c', hget', hedits⟩ := h.get c hget
    obtain ⟨c'', hget'', hedits'⟩ := h'.get c' hget'
    exact ⟨c'', hget'', hedits.trans hedits'⟩
  length := h'.length.trans h.length

variable (env) in
theorem scheduleTimer_edits (b : QuicheBackend Conn Cfg G T) (key : ConnectionKey) (kind : TimerKind)
    (due : Connection Conn → Option Instant) : EditsOne env key b (b.scheduleTimer key kind due) := by
  unfold scheduleTimer
  split
  · exact .refl key b
  · next c hget =>
    split
    · exact .refl key b
    · have hpop := c.popTimerKey_edits env.quiche kind
      constructor
      · intro c₀ hget₀
        cases hget.symm.trans hget₀
        exact ⟨_, get_put hget _, hpop.trans (Connection.setTimerKey_edits ..)⟩
      · exact Slots.length_set hget _

theorem scheduleEstablishTimeout_edits (h : b.scheduleEstablishTimeout env key = some b') :
    EditsOne env key b b' := by
  unfold scheduleEstablishTimeout at h
  split at h
  · cases h
    exact .refl key b
  · simp only at h
    split at h
    · cases h
      exact .refl key b
    · obtain ⟨due, -, rfl⟩ := Option.map_eq_some_iff.mp h
      apply scheduleTimer_edits

/-- The connection that is registered is the given one, edited. -/
theorem registerNewConnection_edits {peerAddr : SocketAddr}
    (h : b.registerNewConnection env c peerAddr = some (b', key)) :
    (∃ c', b'.connections.get key = some c' ∧ c.Edits env.quiche c') ∧
      (∀ k ≠ key, b'.connections.get k = b.connections.get k) ∧
      b'.connections.all.length = b.connections.all.length + 1 := by
  simp only [registerNewConnection, Option.bind_eq_bind, Option.bind_eq_some_iff] at h
  obtain ⟨⟨connections, key'⟩, hinsert, b₁, hestablish, h⟩ := h
  obtain ⟨rfl, rfl⟩ := Prod.mk.inj (Option.some.inj h)
  obtain ⟨-, hget⟩ := Connections.insert_spec env.quiche hinsert
  obtain ⟨-, hall, -⟩ := Connections.insert_cases hinsert
  have htouches := (scheduleTimer_touches { b with connections } key' .quicheTimeout fun c =>
    env.quiche.timeoutInstant c.inner).trans (scheduleEstablishTimeout_touches env hestablish)
  have hedits := (scheduleTimer_edits env { b with connections } key' .quicheTimeout fun c =>
    env.quiche.timeoutInstant c.inner).trans (scheduleEstablishTimeout_edits hestablish)
  refine ⟨hedits.get c ?_, ?_, ?_⟩
  · show connections.get key' = some c
    rw [hget, if_pos rfl]
  · intro k hk
    show b₁.connections.get k = _
    rw [htouches.others k hk]
    show connections.get k = _
    rw [hget, if_neg hk]
  · show b₁.connections.all.length = _
    rw [hedits.length]
    show connections.all.length = _
    rw [hall, Slots.length_push]

/-- **What `acceptConnection` registers**: a server connection, verified if there is a token. -/
theorem acceptConnection_registers (hlib : env.quiche.Standard) {server : ServerConfig Cfg T}
    {packet : Packet} {scid : ConnectionId} {token : Option Token}
    (h : b.acceptConnection env server packet scid token = some b') (hregisters : Registers b b' key) :
    b'.connections.all.length = b.connections.all.length + 1 ∧
      ∀ c, b'.connections.get key = some c →
        Connections.isUnverified env.quiche c = !token.isSome := by
  unfold acceptConnection at h
  cases haccept : env.quiche.accept server.quiche scid.bytes (originalDcid token)
      (toSockAddr b.listenAddr) packet.fromAddr with
  | mk quiche result =>
    simp only [haccept] at h
    cases result with
    | error e =>
      -- quiche refuses: the connections are what they were
      cases h
      exact absurd hregisters.2 (by rw [show _ = none from hregisters.1]; exact Bool.false_ne_true)
    | ok connection =>
      obtain ⟨⟨b₁, key'⟩, hregister, rfl⟩ := Option.map_eq_some_iff.mp h
      obtain ⟨⟨c', hget, hedits⟩, hothers, hlength⟩ := registerNewConnection_edits hregister
      refine ⟨hlength, ?_⟩
      intro c hc
      -- no other key is new
      have hkey : key = key' := by
        by_contra hne
        have hnone : b₁.connections.get key = none := (hothers key hne).trans hregisters.1
        rw [show b₁.connections.get key = some c from hc] at hnone
        cases hnone
      subst hkey
      cases hget.symm.trans hc
      have hserver : env.quiche.isServer connection = true := hlib.accepted _ _ _ _ _ _ _ haccept
      unfold Connections.isUnverified
      rw [hlib.methods hedits.inner, hedits.verified]
      show (env.quiche.isServer connection && !(!env.quiche.isServer connection || token.isSome)) = _
      rw [hserver]
      rfl

/-! ## The ways through `handle_initial_packet_as_server` -/

variable (env)

/-- The answer of the token generator, for the address of the peer, both ids, and now. -/
def tokenResult (b : QuicheBackend Conn Cfg G T) (server : ServerConfig Cfg T) (header : Header)
    (packet : Packet) : Option (Except TokenError Token) :=
  header.token.map fun token =>
    (env.tokens.verifyToken server.tokenGenerator packet.fromAddr.ip header.scid header.dcid token
      b.clockSys).2

/-- A token was verified for this peer. -/
def Verified (b : QuicheBackend Conn Cfg G T) (server : ServerConfig Cfg T) (header : Header)
    (packet : Packet) : Prop :=
  ∃ token, b.tokenResult env server header packet = some (.ok token)

/-- The retry token of this peer has expired. -/
def ExpiredRetry (b : QuicheBackend Conn Cfg G T) (server : ServerConfig Cfg T) (header : Header)
    (packet : Packet) : Prop :=
  ∃ expiredAt, b.tokenResult env server header packet = some (.error (.expired .retry expiredAt))

theorem verifyInitialToken_cases (b : QuicheBackend Conn Cfg G T) (server : ServerConfig Cfg T)
    (header : Header) (packet : Packet) :
    (b.Verified env server header packet ∧
      ∃ token, (verifyInitialToken env b server header packet).2 = .valid token) ∨
    (b.ExpiredRetry env server header packet ∧
      (verifyInitialToken env b server header packet).2 = .drop) ∨
    (¬ b.Verified env server header packet ∧ ¬ b.ExpiredRetry env server header packet ∧
      (verifyInitialToken env b server header packet).2 = .absent) := by
  unfold Verified ExpiredRetry tokenResult verifyInitialToken
  cases header.token with
  | none => exact .inr (.inr ⟨nofun, nofun, rfl⟩)
  | some token =>
    simp only [Option.map_some]
    generalize env.tokens.verifyToken server.tokenGenerator packet.fromAddr.ip header.scid
      header.dcid token b.clockSys = verified
    obtain ⟨tokens, result⟩ := verified
    cases result with
    | ok token => exact .inl ⟨⟨token, rfl⟩, token, rfl⟩
    | error e =>
      cases e with
      | invalid => exact .inr (.inr ⟨nofun, nofun, rfl⟩)
      | expired kind expiredAt =>
        cases kind with
        | retry => exact .inr (.inl ⟨⟨expiredAt, rfl⟩, rfl⟩)
        | identity => exact .inr (.inr ⟨nofun, nofun, rfl⟩)

/-- The configuration of a server once the token is verified. -/
def serverAfter (b : QuicheBackend Conn Cfg G T) (server : ServerConfig Cfg T) (header : Header)
    (packet : Packet) : ServerConfig Cfg T :=
  { server with tokenGenerator := (verifyInitialToken env b server header packet).1 }

/-- The backend once the token is verified and an id is drawn. -/
def drawn (b : QuicheBackend Conn Cfg G T) (server : ServerConfig Cfg T) (header : Header)
    (packet : Packet) : QuicheBackend Conn Cfg G T :=
  { b with
    config :=
      { b.config with
        server := some (b.serverAfter env server header packet)
        connectionIdGenerator := (env.cids.generate b.config.connectionIdGenerator).1 } }

section Ways

variable {env} {server : ServerConfig Cfg T} {header : Header} {packet : Packet}
  {out : List Message} (hserver : b.config.server = some server)
  (hversion : env.quiche.versionIsSupported header.version = true)
  (hids : header.scid.length ≤ maxCidLen ∧ header.dcid.length ≤ maxCidLen)

include hserver hversion hids

theorem handleInitial_drop (h : (verifyInitialToken env b server header packet).2 = .drop) :
    b.handleInitialPacketAsServer env header packet out = some
      ({ b with
          config := { b.config with server := some (b.serverAfter env server header packet) } },
        out, true) := by
  have hlong : ¬ (maxCidLen < header.scid.length ∨ maxCidLen < header.dcid.length) := by omega
  simp only [handleInitialPacketAsServer, hserver, hversion, Bool.true_eq_false, if_false,
    if_neg hlong, h]
  rfl

theorem handleInitial_valid {token : Token}
    (h : (verifyInitialToken env b server header packet).2 = .valid token) :
    b.handleInitialPacketAsServer env header packet out =
      ((b.drawn env server header packet).acceptConnection env
        (b.serverAfter env server header packet) packet (b.nextScid env) (some token)).map
          (·, out, true) := by
  have hlong : ¬ (maxCidLen < header.scid.length ∨ maxCidLen < header.dcid.length) := by omega
  simp only [handleInitialPacketAsServer, hserver, hversion, Bool.true_eq_false, if_false,
    if_neg hlong, h]
  rfl

theorem handleInitial_absent
    (h : (verifyInitialToken env b server header packet).2 = .absent) :
    b.handleInitialPacketAsServer env header packet out =
      if server.allowUnverified packet.fromAddr b.connections.serverConnectionsCount
          b.connections.serverUnverifiedConnectionsCount then
        ((b.drawn env server header packet).acceptConnection env
          (b.serverAfter env server header packet) packet (b.nextScid env) none).map (·, out, true)
      else
        (b.drawn env server header packet).respondWithRetry env
          (b.serverAfter env server header packet) header packet (b.nextScid env) out := by
  have hlong : ¬ (maxCidLen < header.scid.length ∨ maxCidLen < header.dcid.length) := by omega
  simp only [handleInitialPacketAsServer, hserver, hversion, Bool.true_eq_false, if_false,
    if_neg hlong, h]
  rfl

end Ways

end QuicheBackend

/-! ## `Retry` packets -/

/-- A message of a single packet, in response to `packet`. -/
def response (packet : Packet) (view : BipView) : Message where
  buf := view
  fromAddr := packet.toAddr
  toAddr := packet.fromAddr
  ecn := .nEct
  segmentCount := 0

theorem Io.toForceWriteResult_ok {io : Io} {r : BipBuf.Reservation} {packet : Packet}
    {bytes : List UInt8} (hreserved : io.buffer.reservation = some r) (hbytes : bytes ≠ [])
    (hle : bytes.length ≤ r.len) (haddr : packet.fromAddr.isUnspecified = false)
    (out : List Message) :
    ∃ io' view, io.toForceWriteResult .release packet (.ok bytes) out =
      some (io', out ++ [response packet view], .ok .complete) ∧ view.bytes = bytes := by
  have hcommit : ∃ inner commit, io.buffer.inner.commit r bytes.length = some (inner, commit) := by
    unfold BipBuf.BipBufferInner.commit
    rw [if_neg (Nat.not_lt.mpr hle)]
    exact ⟨_, _, rfl⟩
  obtain ⟨inner, commit, hcommit⟩ := hcommit
  have hmsg : SendMsg.new .release ({ commit, bytes } : BipView) packet.toAddr packet.fromAddr .nEct 0 =
      some (response packet { commit, bytes }) := by
    have hlength : (Buf.asSlice ({ commit, bytes } : BipView)).length ≠ 0 :=
      fun h => hbytes (List.length_eq_zero_iff.mp h)
    rw [SendMsg.new, if_neg hlength, if_neg (by simp), if_neg (by simp [haddr]),
      if_neg (by simp)]
    rfl
  refine ⟨Io.dropReservation ⟨io.buffer.tryCommit r bytes.length⟩, { commit, bytes }, ?_, rfl⟩
  simp only [toForceWriteResult, Io.commit, hreserved, Option.bind_eq_bind, Option.bind_some, hcommit,
    hmsg]

namespace QuicheBackend

variable {env : Env Conn Cfg G T} {b b' : QuicheBackend Conn Cfg G T}
  {server : ServerConfig Cfg T} {header : Header} {packet : Packet} {out out' : List Message}

/-- A `Retry` packet is written if there is room for it. -/
theorem respondWithRetry_ok (hlib : env.quiche.Standard) (scid : ConnectionId)
    {expiresAt : SystemTime} {token bytes : List UInt8} {io : Io} {r : BipBuf.Reservation}
    (hexpires : addSystemDuration b.clockSys server.establishTimeout = some expiresAt)
    (htoken : (env.tokens.generateRetryToken server.tokenGenerator packet.fromAddr.ip header.scid
      header.dcid scid.bytes expiresAt).2 = some token)
    (hreserve : b.io.reserve 1500 false = some (io, some r))
    (hretry : env.quiche.retry header.scid header.dcid scid.bytes token header.version r.len =
      .ok bytes)
    (haddr : packet.fromAddr.isUnspecified = false) :
    ∃ b' view, b.respondWithRetry env server header packet scid out =
        some (b', out ++ [response packet view], true) ∧
      view.bytes = bytes ∧ b'.connections = b.connections ∧
        b'.calls = b.calls ++ [.retry scid.bytes token] := by
  obtain ⟨hbytes, hle⟩ := hlib.retry _ _ _ _ _ _ _ hretry
  obtain ⟨io', view, hwrite, hview⟩ := Io.toForceWriteResult_ok (Io.reserve_reservation hreserve)
    hbytes hle haddr out
  simp only [respondWithRetry, hexpires, Option.bind_eq_bind, Option.bind_some, htoken, Io.writeRetry,
    hreserve, hretry, hwrite]
  exact ⟨_, view, rfl, hview, rfl, rfl⟩

/-! ## Admission -/

variable (env) in
/-- The firewall admits an unverified peer, given the numbers of live connections. -/
def FirewallAllows (b : QuicheBackend Conn Cfg G T) (server : ServerConfig Cfg T) (packet : Packet) :
    Prop :=
  server.allowUnverified packet.fromAddr
    (b.connections.all.countP (Connections.isServer env.quiche))
    (b.connections.all.countP (Connections.isUnverified env.quiche)) = true

variable (env) in
/-- The packet has no valid token, nor one that has expired for its sole use, and the firewall refuses
the peer. -/
structure Refused (b : QuicheBackend Conn Cfg G T) (server : ServerConfig Cfg T) (header : Header)
    (packet : Packet) : Prop where
  unverified : ¬ b.Verified env server header packet
  fresh : ¬ b.ExpiredRetry env server header packet
  refuses : ¬ b.FirewallAllows env server packet

variable (env) in
/-- The token of the `Retry` packet: it is made for the address of the peer, its source id, its original
destination id, and the source id of the `Retry` packet. -/
def retryToken (b : QuicheBackend Conn Cfg G T) (server : ServerConfig Cfg T) (header : Header)
    (packet : Packet) (expiresAt : SystemTime) : Option (List UInt8) :=
  (env.tokens.generateRetryToken (verifyInitialToken env b server header packet).1 packet.fromAddr.ip
    header.scid header.dcid (b.nextScid env).bytes expiresAt).2

variable (env) in
/-- **Unverified peers are admitted only by the firewall.** -/
structure Guarded (b : QuicheBackend Conn Cfg G T) (server : ServerConfig Cfg T) (header : Header)
    (packet : Packet) (out : List Message) : Prop where
  admitted b' out' consumed key :
    b.handleInitialPacketAsServer env header packet out = some (b', out', consumed) →
      Registers b b' key →
        b.Verified env server header packet ∨ b.FirewallAllows env server packet
  /-- The connection counts as unverified if no token was verified, and the counters count it. -/
  counted b' out' consumed key c :
    b.handleInitialPacketAsServer env header packet out = some (b', out', consumed) →
      Registers b b' key → b'.connections.get key = some c →
        (Connections.isUnverified env.quiche c = true ↔ ¬ b.Verified env server header packet) ∧
          b'.connections.Exact env.quiche
  expired : b.ExpiredRetry env server header packet →
    ∃ b', b.handleInitialPacketAsServer env header packet out = some (b', out, true) ∧
      b'.connections = b.connections ∧ b'.calls = b.calls
  refused b' out' consumed : b.Refused env server header packet →
    b.handleInitialPacketAsServer env header packet out = some (b', out', consumed) →
      b'.connections = b.connections
  /-- Unless the sum of the times overflows, and if the buffer permits it, there is a token; and if
  quiche makes a packet of it, this is sent. -/
  answered expiresAt io r : b.Refused env server header packet →
    addSystemDuration b.clockSys server.establishTimeout = some expiresAt →
      b.io.reserve 1500 false = some (io, some r) →
        ∃ token, b.retryToken env server header packet expiresAt = some token ∧
          ∀ bytes, env.quiche.retry header.scid header.dcid (b.nextScid env).bytes token
              header.version r.len = .ok bytes →
            ∃ b' view, b.handleInitialPacketAsServer env header packet out =
                some (b', out ++ [response packet view], true) ∧
              view.bytes = bytes ∧ b'.connections = b.connections ∧
                b'.calls = b.calls ++ [.retry (b.nextScid env).bytes token]

theorem not_registers {key : ConnectionKey} (h : b'.connections = b.connections) :
    ¬ Registers b b' key := by
  rintro ⟨hnone, hsome⟩
  rw [h, hnone] at hsome
  cases hsome

section Admitted

variable (hserver : b.config.server = some server)
  (hversion : env.quiche.versionIsSupported header.version = true)
  (hids : header.scid.length ≤ maxCidLen ∧ header.dcid.length ≤ maxCidLen)

include hserver hversion hids

theorem handleInitial_expired (h : b.ExpiredRetry env server header packet) :
    ∃ b', b.handleInitialPacketAsServer env header packet out = some (b', out, true) ∧
      b'.connections = b.connections ∧ b'.calls = b.calls := by
  rcases verifyInitialToken_cases env b server header packet with
    ⟨⟨token, hverified⟩, -⟩ | ⟨-, hdrop⟩ | ⟨-, hfresh, -⟩
  · obtain ⟨expiredAt, hexpired⟩ := h
    rw [hverified] at hexpired
    cases hexpired
  · exact ⟨_, handleInitial_drop hserver hversion hids hdrop, rfl, rfl⟩
  · exact absurd h hfresh

/-- A refused peer is asked to come back with a token. -/
theorem handleInitial_refused (hexact : b.connections.Exact env.quiche)
    (h : b.Refused env server header packet) :
    b.handleInitialPacketAsServer env header packet out =
      (b.drawn env server header packet).respondWithRetry env
        (b.serverAfter env server header packet) header packet (b.nextScid env) out := by
  rcases verifyInitialToken_cases env b server header packet with
    ⟨hverified, -⟩ | ⟨hexpired, -⟩ | ⟨-, -, habsent⟩
  · exact absurd hverified h.unverified
  · exact absurd hexpired h.fresh
  · -- the firewall is asked with the counters, which are exact
    have hrefuses := h.refuses
    unfold FirewallAllows at hrefuses
    rw [← hexact.server, ← hexact.unverified] at hrefuses
    rw [handleInitial_absent hserver hversion hids habsent, if_neg hrefuses]

/-- A connection that is registered is accepted, with a token that was verified or, if the firewall
allows it, without. -/
theorem handleInitial_registers (hexact : b.connections.Exact env.quiche) {consumed : Bool}
    {key : ConnectionKey}
    (h : b.handleInitialPacketAsServer env header packet out = some (b', out', consumed))
    (hregisters : Registers b b' key) :
    ∃ token, (b.drawn env server header packet).acceptConnection env
        (b.serverAfter env server header packet) packet (b.nextScid env) token = some b' ∧
      (token.isSome = true ↔ b.Verified env server header packet) ∧
        (b.Verified env server header packet ∨ b.FirewallAllows env server packet) := by
  rcases verifyInitialToken_cases env b server header packet with
    ⟨hverified, token, hvalid⟩ | ⟨-, hdrop⟩ | ⟨hunverified, -, habsent⟩
  · rw [handleInitial_valid hserver hversion hids hvalid] at h
    obtain ⟨b₁, haccept, heq⟩ := Option.map_eq_some_iff.mp h
    cases heq
    exact ⟨some token, haccept, iff_of_true rfl hverified, .inl hverified⟩
  · rw [handleInitial_drop hserver hversion hids hdrop] at h
    cases h
    exact absurd hregisters (not_registers rfl)
  · rw [handleInitial_absent hserver hversion hids habsent] at h
    split at h
    · next hallows =>
      obtain ⟨b₁, haccept, heq⟩ := Option.map_eq_some_iff.mp h
      cases heq
      rw [hexact.server, hexact.unverified] at hallows
      exact ⟨none, haccept, iff_of_false Bool.false_ne_true hunverified, .inr hallows⟩
    · obtain ⟨hconnections, -⟩ := respondWithRetry_cases env h
      exact absurd hregisters (not_registers hconnections)

/-- **What `handle_initial_packet_as_server` does** where the counters are exact. -/
theorem guarded (hlib : env.quiche.Standard) (htokens : TokensForIds env.tokens)
    (htallied : b.connections.Tallied env.quiche)
    (hlength : b.connections.all.length ≤ slotMapLimit)
    (haddr : packet.fromAddr.isUnspecified = false) :
    b.Guarded env server header packet out := by
  have hlimit : slotMapLimit + 1 < 2 ^ usizeBits := by decide
  have hexact := htallied.exact (by omega)
  refine ⟨?_, ?_, ?_, ?_, ?_⟩
  · intro b' out' consumed key h hregisters
    obtain ⟨token, -, -, hadmitted⟩ :=
      handleInitial_registers hserver hversion hids hexact h hregisters
    exact hadmitted
  · intro b' out' consumed key c h hregisters hget
    obtain ⟨token, haccept, hverified, -⟩ :=
      handleInitial_registers hserver hversion hids hexact h hregisters
    obtain ⟨hlength', hunverified⟩ := acceptConnection_registers hlib haccept hregisters
    have hlength' : b'.connections.all.length = b.connections.all.length + 1 := hlength'
    constructor
    · rw [hunverified c hget, ← hverified]
      cases token <;> simp
    · -- one connection more than the slot map's limit is still far from a wrap
      have htallied' := (handleInitialPacketAsServer_quiet h).tallied hlib htallied
      exact htallied'.exact (by omega)
  · exact handleInitial_expired hserver hversion hids
  · intro b' out' consumed hrefused h
    rw [handleInitial_refused hserver hversion hids hexact hrefused] at h
    exact (respondWithRetry_cases env h).1
  · intro expiresAt io r hrefused hexpires hreserve
    have hsome := htokens (verifyInitialToken env b server header packet).1 packet.fromAddr.ip
      header.scid header.dcid (b.nextScid env).bytes expiresAt hids.1 hids.2 (b.nextScid env).len_le
    obtain ⟨token, htoken⟩ := Option.isSome_iff_exists.mp hsome
    refine ⟨token, htoken, ?_⟩
    intro bytes hretry
    rw [handleInitial_refused hserver hversion hids hexact hrefused]
    exact respondWithRetry_ok hlib (b.nextScid env) hexpires htoken hreserve hretry haddr

end Admitted

end QuicheBackend

/-- **Unverified peers are admitted only by the firewall**, in every state in which `recv` finds an
`Initial` packet of a supported version. The slot map has its limit, and packets have a source. -/
theorem Running.admission {env : Env Conn Cfg G T} (hlib : env.quiche.Standard)
    (htokens : TokensForIds env.tokens) {s : Running Conn Cfg G T}
    (h : Reachable Running.Init anyStep (Running.exec env) s) {cidLength : Nat}
    {before : List Packet} {b : QuicheBackend Conn Cfg G T} {out out' : List Message}
    (hfound : QuicheBackend.recvLoop env cidLength before { s.backend with calls := [] } out =
      some (b, [], out'))
    (hlength : b.connections.all.length ≤ slotMapLimit) {server : ServerConfig Cfg T}
    (hserver : b.config.server = some server) {packet : Packet} {header : Header}
    (hparse : env.quiche.headerFromSlice packet.payload cidLength = some header)
    (hversion : env.quiche.versionIsSupported header.version = true)
    (haddr : packet.fromAddr.isUnspecified = false) :
    b.Guarded env server header packet out' := by
  have htallied := (QuicheBackend.recvLoop_moves hfound).tallied hlib (Running.tallied hlib h)
  exact QuicheBackend.guarded hserver hversion (hlib.ids _ _ _ hparse hversion) hlib htokens htallied
    hlength haddr

/-! ## A second peer -/

/-- Idle connections, and packets whose ids have at most 20 bytes. -/
def shortEnv : Env IdleConnection Unit RandomIdGenerator Unit :=
  { QuicheBackend.idleEnv with
    quiche :=
      { idleLibrary with
        headerFromSlice := fun buf _ => (initialHeader buf).filter fun header =>
          header.scid.length ≤ maxCidLen && header.dcid.length ≤ maxCidLen } }

theorem shortEnv_standard : shortEnv.quiche.Standard where
  role _ _ _ := rfl
  accepted _ _ _ _ _ _ _ _ := rfl
  ids buf dcidLen header h _ := by
    obtain ⟨-, hids⟩ := Option.filter_eq_some_iff.mp h
    obtain ⟨hscid, hdcid⟩ := Bool.and_eq_true_iff.mp hids
    exact ⟨of_decide_eq_true hscid, of_decide_eq_true hdcid⟩
  retry scid dcid newScid token version bufLen bytes h := by
    change (if _ then _ else _) = _ at h
    split at h
    · cases h
    · next hlength =>
      cases h
      exact ⟨by simp, Nat.not_lt.mp hlength⟩

/-- The firewall admits one unverified peer, who comes first; the second packet is found in a state with
this connection. -/
theorem Running.admission_second :
    ∃ (b : QuicheBackend IdleConnection Unit RandomIdGenerator Unit) (server : ServerConfig Unit Unit)
      (out : List Message), b.connections.serverUnverifiedConnectionsCount = 1 ∧
        b.Guarded shortEnv server (QuicheBackend.initialPacketHeader [4, 5, 6] [])
          (QuicheBackend.initialPacket [4, 5, 6] []) out := by
  have hrun : (QuicheBackend.idleServer 1 fun _ _ unverified => unverified == 0).any (fun b =>
      (QuicheBackend.recvLoop shortEnv 1 [QuicheBackend.initialPacket [1, 2, 3] []]
        { b with calls := [] } []).any fun found => decide (found.2.1 = [] ∧
          found.1.connections.serverUnverifiedConnectionsCount = 1 ∧
          found.1.connections.all.length ≤ slotMapLimit ∧
          found.1.config.server.isSome = true)) = true := by
    decide +kernel
  obtain ⟨b₀, hb₀, hrun⟩ := (Option.any_eq_true ..).mp hrun
  obtain ⟨⟨b, rest, out⟩, hfound, hrun⟩ := (Option.any_eq_true ..).mp hrun
  obtain ⟨rfl, hcount, hlength, hserver⟩ := of_decide_eq_true hrun
  obtain ⟨server, hserver⟩ := Option.isSome_iff_exists.mp hserver
  exact ⟨b, server, out, hcount, Running.admission shortEnv_standard
    (fun _ _ _ _ _ _ _ _ _ => rfl) (.init (Running.idleServer_init hb₀)) hfound hlength hserver
    (by decide) rfl (by decide)⟩

end Aquic.Backend.Quiche

import Aquic.Backend.Token.Padded

/-!
# Verifying padded tokens

Writing and reading a token are separate pieces of code: fields are written from the front and read
from the back. This module relates the two and derives what `verify_token` accepts.

* Each field that was written is read back (`drainMillis_append`, `drainPadding_append`), so that the
  payload of a token is recovered, except that an original connection id of the maximum length is
  refused by the iterator constructor (`extractRetry_eq`).
* The associated data determine the kind of the token, the address and the connection ids.
* Under an ideal AEAD a token that verifies is one that was issued for the same peer
  (`verify_iff_issued`), and a retry token verifies unless its original connection id has the maximum
  length (`retry_token_verifies_iff`).

An expiration time that is not an `u64` number of milliseconds is written as the epoch.
-/

namespace Aquic.Tokens

open Aquic.Bytes Aquic.Cid Aquic.Crypto Aquic.Net

/-! ## The payload -/

/-- The expiration time that a token carries. -/
def carriedExpiry (expiresAt : SystemTime) : SystemTime :=
  SystemTime.ofMillis ((SystemTime.toMillis expiresAt).getD 0)

theorem carriedExpiry_eq (expiresAt : SystemTime) :
    carriedExpiry expiresAt =
      if SystemTime.Representable expiresAt then SystemTime.truncMillis expiresAt else 0 := by
  unfold carriedExpiry
  split
  · next h => simp [SystemTime.toMillis_of_representable h, SystemTime.ofMillis_toNat h]
  · next h => simp [SystemTime.toMillis_of_not_representable h, SystemTime.ofMillis]

theorem toMillis_getD_lt (expiresAt : SystemTime) :
    (SystemTime.toMillis expiresAt).getD 0 < 2 ^ 64 := by
  by_cases h : SystemTime.Representable expiresAt
  · simpa [SystemTime.toMillis_of_representable h] using h.2
  · simp [SystemTime.toMillis_of_not_representable h]

theorem drainMillis_append (xs : List UInt8) {millis : Nat} (h : millis < 2 ^ 64) :
    drainMillis (xs ++ writeMillis millis) = .ok (millis, xs) := by
  have hlen : (xs ++ writeMillis millis).length = xs.length + 8 := by simp [writeMillis]
  unfold drainMillis
  rw [if_neg (by omega), hlen, Nat.add_sub_cancel, List.drop_left, List.take_left, writeMillis,
    ofBe_toBe h]

theorem drainPadding_append (xs : List UInt8) {length : Nat} (h : length < 256)
    (random : Option (Nat → UInt8)) :
    drainPadding (xs ++ writePadding length random) = .ok xs := by
  unfold drainPadding writePadding
  cases random with
  | none =>
    have := unpad_append xs (List.replicate length 0) (by simpa using h)
    simp only [List.length_replicate, List.append_assoc] at this
    simp [this]
  | some rng =>
    have := unpad_append xs ((List.range length).map rng) (by simpa using h)
    simp only [List.length_map, List.length_range, List.append_assoc] at this
    simp [this]

/-- **What is left of a retry token's payload.** -/
theorem extractRetry_eq (rng : Nat → UInt8) (odcid : List UInt8) (expiresAt now : SystemTime) :
    extractRetryPlaintextData (retryPlaintextData rng odcid expiresAt) now =
      if carriedExpiry expiresAt < now then
        .error (.expired .retry (carriedExpiry expiresAt))
      else
        match ConnectionId.tryFromIter odcid with
        | none => .error .invalid
        | some cid => .ok (.retry cid (carriedExpiry expiresAt)) := by
  have hlen : maxCidLen - odcid.length < 256 := Nat.lt_of_le_of_lt (Nat.sub_le ..) (by decide)
  unfold extractRetryPlaintextData retryPlaintextData
  rw [drainMillis_append _ (toMillis_getD_lt expiresAt)]
  have hfold : SystemTime.ofMillis ((SystemTime.toMillis expiresAt).getD 0) =
      carriedExpiry expiresAt := rfl
  simp only [bind, Except.bind, hfold]
  by_cases hexpired : carriedExpiry expiresAt < now
  · simp only [if_pos hexpired]
    rfl
  · simp only [if_neg hexpired, pure, Except.pure, drainPadding_append _ hlen]
    cases ConnectionId.tryFromIter odcid <;> rfl

theorem extractIdentity_eq (rng : Nat → UInt8) (expiresAt now : SystemTime) :
    extractIdentityPlaintextData (identityPlaintextData rng expiresAt) now =
      if carriedExpiry expiresAt < now then
        .error (.expired .identity (carriedExpiry expiresAt))
      else
        .ok (.identity (carriedExpiry expiresAt)) := by
  have hpadding := drainPadding_append [] (show maxCidLen < 256 by decide) (some rng)
  have hfold : SystemTime.ofMillis ((SystemTime.toMillis expiresAt).getD 0) =
      carriedExpiry expiresAt := rfl
  rw [List.nil_append] at hpadding
  unfold extractIdentityPlaintextData identityPlaintextData
  rw [drainMillis_append _ (toMillis_getD_lt expiresAt)]
  simp only [bind, Except.bind, hfold]
  by_cases hexpired : carriedExpiry expiresAt < now
  · simp only [if_pos hexpired]
    rfl
  · simp only [if_neg hexpired, pure, Except.pure, hpadding]
    rfl

/-! ## The associated data -/

/-- A field padded to `n` bytes, followed by the length of the padding. -/
def paddedField (n : Nat) (xs : List UInt8) : List UInt8 := xs ++ writePadding (n - xs.length) none

theorem paddedField_length {n : Nat} {xs : List UInt8} (h : xs.length ≤ n) :
    (paddedField n xs).length = n + 1 := by
  simp [paddedField, writePadding]
  omega

theorem paddedField_inj {n : Nat} (hn : n < 256) {xs ys : List UInt8}
    (h : paddedField n xs = paddedField n ys) : xs = ys := by
  have hread : ∀ zs, drainPadding (paddedField n zs) = .ok zs := fun zs =>
    drainPadding_append zs (Nat.lt_of_le_of_lt (Nat.sub_le ..) hn) none
  have hxs := hread xs
  rw [h, hread ys] at hxs
  exact (Except.ok.inj hxs).symm

theorem octets_length_le (addr : IpAddr) : addr.octets.length ≤ 16 := by
  cases addr <;> simp [IpAddr.octets]

theorem retryAssociatedData_eq (addr : IpAddr) (scid dcid : List UInt8) :
    retryAssociatedData addr scid dcid =
      writeKind .retry :: (paddedField 16 addr.octets ++ (paddedField maxCidLen scid ++ dcid)) := by
  simp [retryAssociatedData, paddedField, lengthOfIpAddr]

/-- **The associated data determine what the token is bound to**: its kind, the address and, for a
retry token, the two connection ids. -/
structure AssociatedDataInjective : Prop where
  retry : ∀ {addr addr' : IpAddr} {scid scid' dcid dcid' : List UInt8},
    scid.length ≤ maxCidLen → scid'.length ≤ maxCidLen →
    retryAssociatedData addr scid dcid = retryAssociatedData addr' scid' dcid' →
    addr = addr' ∧ scid = scid' ∧ dcid = dcid'
  identity : ∀ {addr addr' : IpAddr},
    identityAssociatedData addr = identityAssociatedData addr' → addr = addr'
  kind : ∀ {addr addr' : IpAddr} {scid dcid : List UInt8},
    identityAssociatedData addr ≠ retryAssociatedData addr' scid dcid

theorem associatedData_injective : AssociatedDataInjective where
  retry {addr addr' scid scid' dcid dcid'} hscid hscid' h := by
    rw [retryAssociatedData_eq, retryAssociatedData_eq] at h
    have h := (List.cons.inj h).2
    have haddr : (paddedField 16 addr.octets).length = (paddedField 16 addr'.octets).length := by
      rw [paddedField_length (octets_length_le addr), paddedField_length (octets_length_le addr')]
    obtain ⟨haddr, h⟩ := List.append_inj h haddr
    have hlen : (paddedField maxCidLen scid).length = (paddedField maxCidLen scid').length := by
      rw [paddedField_length hscid, paddedField_length hscid']
    obtain ⟨hscid, hdcid⟩ := List.append_inj h hlen
    exact ⟨IpAddr.octets_injective (paddedField_inj (by decide) haddr),
      paddedField_inj (by decide) hscid, hdcid⟩
  identity h := IpAddr.octets_injective (List.cons.inj h).2
  kind h := by
    rw [retryAssociatedData_eq] at h
    exact absurd (List.cons.inj h).1 (by decide)

/-! ## One verification -/

variable {Key : Type} {alg : Algorithm Key} {history : KeyHistory Key}
  {queries : List (Query Key)}

/-- What `verify_identity_token` finds with the keys of the store. -/
def identityResult (alg : Algorithm Key) (keys : List Key) (addr : IpAddr) (token : List UInt8)
    (now : SystemTime) : Except TokenError Token :=
  match Aead.tryCiphers alg (identityAssociatedData addr) token keys token with
  | (true, plaintext) => extractIdentityPlaintextData plaintext now
  | (false, _) => .error .invalid

/-- What `verify_retry_token` finds with the keys of the store. -/
def retryResult (alg : Algorithm Key) (keys : List Key) (addr : IpAddr)
    (scid dcid token : List UInt8) (now : SystemTime) : Except TokenError Token :=
  match Aead.tryCiphers alg (retryAssociatedData addr scid dcid) token keys token with
  | (true, plaintext) => extractRetryPlaintextData plaintext now
  | (false, _) => .error .invalid

section

variable {aead : Aead Key} {store : KeyStore Key}

theorem verifyIdentityToken_eq (ha : aead.Follows history) (hs : store.Follows history)
    (addr : IpAddr) (token : List UInt8) (now : SystemTime) :
    verifyIdentityToken alg aead store addr token now =
      (aead.compareAndUpdateCiphers store, identityResult alg store.keys addr token now) := by
  unfold verifyIdentityToken identityResult
  rw [Aead.unpackAndDecrypt_eq ha hs]
  rcases Aead.tryCiphers alg (identityAssociatedData addr) token store.keys token with
    ⟨_ | _, plaintext⟩ <;> rfl

theorem verifyRetryToken_eq (ha : aead.Follows history) (hs : store.Follows history)
    (addr : IpAddr) (scid dcid token : List UInt8) (now : SystemTime) :
    verifyRetryToken alg aead store addr scid dcid token now =
      (aead.compareAndUpdateCiphers store,
        retryResult alg store.keys addr scid dcid token now) := by
  unfold verifyRetryToken retryResult
  rw [Aead.unpackAndDecrypt_eq ha hs]
  rcases Aead.tryCiphers alg (retryAssociatedData addr scid dcid) token store.keys token with
    ⟨_ | _, plaintext⟩ <;> rfl

/-- The identity format is tried first, the retry format only if that was invalid. -/
theorem verifyToken_eq (ha : aead.Follows history) (hs : store.Follows history) {addr : IpAddr}
    {scid dcid token : List UInt8} {now : SystemTime} (htoken : token ≠ [])
    (hscid : scid.length ≤ maxCidLen) (hdcid : dcid.length ≤ maxCidLen) :
    (verifyToken alg aead store addr scid dcid token now).2 =
      match identityResult alg store.keys addr token now with
      | .ok t => .ok t
      | .error (.expired kind expiredAt) => .error (.expired kind expiredAt)
      | .error .invalid => retryResult alg store.keys addr scid dcid token now := by
  have hfollows := (Aead.compareAndUpdateCiphers_spec ha hs).2
  unfold verifyToken
  rw [if_neg htoken, if_neg (by omega), verifyIdentityToken_eq ha hs]
  rcases identityResult alg store.keys addr token now with (_ | ⟨kind, expiredAt⟩) | t
  · simp only [verifyRetryToken_eq hfollows hs]
  · rfl
  · rfl

end

/-! ## The queries of a generator -/

/-- A call of one of the two `generate` functions. -/
inductive Generate (Key : Type) where
  | retry (store : KeyStore Key) (rng : Randomness) (peerAddr : IpAddr)
      (peerScid peerDcid serverNewScid : List UInt8) (expiresAt : SystemTime)
  | identity (store : KeyStore Key) (rng : Randomness) (peerAddr : IpAddr)
      (expiresAt : SystemTime)

namespace Generate

/-- The key store at the time of the call. -/
def store : Generate Key → KeyStore Key
  | .retry store .. => store
  | .identity store .. => store

def run (alg : Algorithm Key) (aead : Aead Key) : Generate Key → Aead Key × Option (List UInt8)
  | .retry store rng addr scid dcid newScid expiresAt =>
    generateRetryToken alg aead store rng addr scid dcid newScid expiresAt
  | .identity store rng addr expiresAt =>
    let (aead, token) := generateIdentityToken alg aead store rng addr expiresAt
    (aead, some token)

def nonce (alg : Algorithm Key) (rng : Randomness) : List UInt8 :=
  (List.range alg.nonceLen).map rng.nonce

/-- The encryption that the call makes, with the active key. -/
def query (alg : Algorithm Key) : Generate Key → Option (Query Key)
  | .retry store rng addr scid dcid newScid expiresAt =>
    if maxCidLen < scid.length ∨ maxCidLen < dcid.length ∨ maxCidLen < newScid.length then
      none
    else
      some
        { key := store.active
          nonce := nonce alg rng
          associatedData := retryAssociatedData addr scid newScid
          plaintext := retryPlaintextData rng.padding dcid expiresAt }
  | .identity store rng addr expiresAt =>
    some
      { key := store.active
        nonce := nonce alg rng
        associatedData := identityAssociatedData addr
        plaintext := identityPlaintextData rng.padding expiresAt }

/-- The token of a call is its encryption, packed. -/
theorem run_eq (alg : Algorithm Key) {aead : Aead Key} (ha : aead.Follows history)
    (call : Generate Key) (hs : call.store.Follows history) :
    (call.run alg aead).2 = (call.query alg).map alg.packed ∧
    (call.run alg aead).1.Follows history := by
  have hfollows := (Aead.compareAndUpdateCiphers_spec ha hs).2
  cases call with
  | retry store rng addr scid dcid newScid expiresAt =>
    simp only [run, query, generateRetryToken]
    split
    · exact ⟨rfl, ha⟩
    · exact ⟨congrArg some (Aead.encryptAndPack_eq ha hs ..), hfollows⟩
  | identity store rng addr expiresAt =>
    exact ⟨congrArg some (Aead.encryptAndPack_eq ha hs ..), hfollows⟩

theorem query_nonce {call : Generate Key} {q : Query Key} (h : call.query alg = some q) :
    q.nonce.length = alg.nonceLen := by
  cases call with
  | retry store rng addr scid dcid newScid expiresAt =>
    simp only [query] at h
    split at h
    · cases h
    · cases h
      simp [nonce]
  | identity store rng addr expiresAt =>
    cases h
    simp [nonce]

/-- Only identity calls use the associated data of an identity token. -/
theorem of_query_identity {call : Generate Key} {q : Query Key} (h : call.query alg = some q)
    {addr : IpAddr} (had : q.associatedData = identityAssociatedData addr) :
    ∃ store rng expiresAt, call = .identity store rng addr expiresAt ∧ q.key = store.active ∧
      q.plaintext = identityPlaintextData rng.padding expiresAt := by
  cases call with
  | retry store rng addr' scid dcid newScid expiresAt =>
    simp only [query] at h
    split at h
    · cases h
    · cases h
      exact absurd had.symm associatedData_injective.kind
  | identity store rng addr' expiresAt =>
    cases h
    obtain rfl := associatedData_injective.identity had
    exact ⟨store, rng, expiresAt, rfl, rfl, rfl⟩

/-- Only retry calls for the same peer and connection ids use the associated data of a retry
token. -/
theorem of_query_retry {call : Generate Key} {q : Query Key} (h : call.query alg = some q)
    {addr : IpAddr} {scid newScid : List UInt8} (hscid : scid.length ≤ maxCidLen)
    (had : q.associatedData = retryAssociatedData addr scid newScid) :
    ∃ store rng dcid expiresAt, call = .retry store rng addr scid dcid newScid expiresAt ∧
      q.plaintext = retryPlaintextData rng.padding dcid expiresAt := by
  cases call with
  | retry store rng addr' scid' dcid newScid' expiresAt =>
    simp only [query] at h
    split at h
    · cases h
    · next hlens =>
      cases h
      obtain ⟨rfl, rfl, rfl⟩ := associatedData_injective.retry (by omega) hscid had
      exact ⟨store, rng, dcid, expiresAt, rfl, rfl⟩
  | identity store rng addr' expiresAt =>
    cases h
    exact absurd had associatedData_injective.kind

end Generate

/-- The tokens that a sequence of calls issues, each with its call. -/
def issued (alg : Algorithm Key) : Aead Key → List (Generate Key) →
    Aead Key × List (Generate Key × List UInt8)
  | aead, [] => (aead, [])
  | aead, call :: calls =>
    let (aead, token) := call.run alg aead
    let (aead, rest) := issued alg aead calls
    (aead, token.toList.map (call, ·) ++ rest)

/-- Each call issues its own encryption, and the ciphers stay those of their revision. -/
theorem issued_spec (alg : Algorithm Key) {aead : Aead Key} (ha : aead.Follows history) {calls : List (Generate Key)}
    (hs : ∀ call ∈ calls, call.store.Follows history) :
    (∀ call token, (call, token) ∈ (issued alg aead calls).2 ↔
      call ∈ calls ∧ ∃ q, call.query alg = some q ∧ token = alg.packed q) ∧
    (issued alg aead calls).1.Follows history := by
  induction calls generalizing aead with
  | nil => exact ⟨by simp [issued], ha⟩
  | cons first calls ih =>
    obtain ⟨htoken, hfollows⟩ := first.run_eq alg ha (hs first (by simp))
    obtain ⟨hmem, hfollows'⟩ := ih hfollows fun call h => hs call (List.mem_cons_of_mem _ h)
    refine ⟨fun call token => ?_, hfollows'⟩
    simp only [issued, List.mem_append, hmem, htoken, List.mem_cons]
    cases hq : first.query alg with
    | none =>
      constructor
      · rintro (h | ⟨h, hrest⟩)
        · simp at h
        · exact ⟨.inr h, hrest⟩
      · rintro ⟨rfl | h, q, hq', ht⟩
        · simp [hq] at hq'
        · exact .inr ⟨h, q, hq', ht⟩
    | some q =>
      constructor
      · rintro (h | ⟨h, hrest⟩)
        · obtain ⟨rfl, rfl⟩ : call = first ∧ token = alg.packed q := by simpa using h
          exact ⟨.inl rfl, q, hq, rfl⟩
        · exact ⟨.inr h, hrest⟩
      · rintro ⟨rfl | h, q', hq', rfl⟩
        · rw [hq] at hq'
          cases hq'
          exact .inl (by simp)
        · exact .inr ⟨h, q', hq', rfl⟩

/-! ## What verifies -/

section

variable {calls : List (Generate Key)} {keys : List Key} {addr : IpAddr}
  {scid dcid token : List UInt8} {now : SystemTime}

/-- The nonces of the calls have the right length. -/
theorem nonce_length {q : Query Key} (hq : q ∈ calls.filterMap (·.query alg)) :
    q.nonce.length = alg.nonceLen := by
  obtain ⟨call, -, hcall⟩ := List.mem_filterMap.mp hq
  exact Generate.query_nonce hcall

/-- What opens as an identity token is one. -/
theorem identity_of_open (hideal : Ideal alg (calls.filterMap (·.query alg)))
    {plaintext : List UInt8}
    (hopen : Aead.tryCiphers alg (identityAssociatedData addr) token keys token =
      (true, plaintext)) :
    ∃ store rng expiresAt q, Generate.identity store rng addr expiresAt ∈ calls ∧
      (Generate.identity store rng addr expiresAt).query alg = some q ∧ token = alg.packed q ∧
      store.active ∈ keys ∧ plaintext = identityPlaintextData rng.padding expiresAt := by
  obtain ⟨q, hq, htoken, hkey, had, rfl⟩ :=
    (hideal.tryCiphers_iff fun q hq => nonce_length hq).mp hopen
  obtain ⟨call, hcall, hquery⟩ := List.mem_filterMap.mp hq
  obtain ⟨store, rng, expiresAt, rfl, hactive, hplain⟩ := Generate.of_query_identity hquery had
  exact ⟨store, rng, expiresAt, q, hcall, hquery, htoken, hactive ▸ hkey, hplain⟩

/-- What opens as a retry token is one, and was issued for the same peer. -/
theorem retry_of_open (hideal : Ideal alg (calls.filterMap (·.query alg)))
    (hscid : scid.length ≤ maxCidLen) {plaintext : List UInt8}
    (hopen : Aead.tryCiphers alg (retryAssociatedData addr scid dcid) token keys token =
      (true, plaintext)) :
    ∃ store rng odcid expiresAt q,
      Generate.retry store rng addr scid odcid dcid expiresAt ∈ calls ∧
      (Generate.retry store rng addr scid odcid dcid expiresAt).query alg = some q ∧
      token = alg.packed q ∧ plaintext = retryPlaintextData rng.padding odcid expiresAt := by
  obtain ⟨q, hq, htoken, hkey, had, rfl⟩ :=
    (hideal.tryCiphers_iff fun q hq => nonce_length hq).mp hopen
  obtain ⟨call, hcall, hquery⟩ := List.mem_filterMap.mp hq
  obtain ⟨store, rng, odcid, expiresAt, rfl, hplain⟩ :=
    Generate.of_query_retry hquery hscid had
  exact ⟨store, rng, odcid, expiresAt, q, hcall, hquery, htoken, hplain⟩

theorem extractIdentity_ok {rng : Nat → UInt8} {expiresAt : SystemTime} {t : Token}
    (h : extractIdentityPlaintextData (identityPlaintextData rng expiresAt) now = .ok t) :
    t = .identity (carriedExpiry expiresAt) ∧ now ≤ carriedExpiry expiresAt := by
  rw [extractIdentity_eq] at h
  split at h
  · cases h
  · next hexpired =>
    cases h
    exact ⟨rfl, Int.not_lt.mp hexpired⟩

theorem extractRetry_ok {rng : Nat → UInt8} {odcid : List UInt8} {expiresAt : SystemTime}
    {t : Token} (h : extractRetryPlaintextData (retryPlaintextData rng odcid expiresAt) now = .ok t) :
    ∃ cid, t = .retry cid (carriedExpiry expiresAt) ∧ cid.bytes = odcid ∧
      odcid.length < maxCidLen ∧ now ≤ carriedExpiry expiresAt := by
  rw [extractRetry_eq] at h
  split at h
  · cases h
  · next hexpired =>
    split at h
    · cases h
    · next cid hcid =>
      cases h
      obtain ⟨hlt, hbytes⟩ := (ConnectionId.tryFromIter_eq_some_iff odcid cid).mp hcid
      exact ⟨cid, rfl, hbytes, hlt, Int.not_lt.mp hexpired⟩

theorem packed_ne_nil (hideal : Ideal alg queries) {q : Query Key} (hq : q ∈ queries)
    (hplain : q.plaintext ≠ []) : alg.packed q ≠ [] := by
  intro h
  have hlen := hideal.length q hq
  have hsealed : alg.sealed q = [] := (List.append_eq_nil_iff.mp h).1
  have hpos := List.length_pos_iff.mpr hplain
  rw [hsealed, List.length_nil] at hlen
  omega

theorem identityPlaintextData_ne_nil (rng : Nat → UInt8) (expiresAt : SystemTime) :
    identityPlaintextData rng expiresAt ≠ [] := by
  simp [identityPlaintextData, writePadding]

theorem retryPlaintextData_ne_nil (rng : Nat → UInt8) (odcid : List UInt8)
    (expiresAt : SystemTime) : retryPlaintextData rng odcid expiresAt ≠ [] := by
  simp [retryPlaintextData, writePadding]

theorem identityResult_ok (hideal : Ideal alg (calls.filterMap (·.query alg))) {t : Token}
    (h : identityResult alg keys addr token now = .ok t) :
    ∃ store rng expiresAt q, Generate.identity store rng addr expiresAt ∈ calls ∧
      (Generate.identity store rng addr expiresAt).query alg = some q ∧ token = alg.packed q ∧
      store.active ∈ keys ∧ t = .identity (carriedExpiry expiresAt) ∧
      now ≤ carriedExpiry expiresAt := by
  unfold identityResult at h
  split at h
  · next plaintext hopen =>
    obtain ⟨store, rng, expiresAt, q, hcall, hquery, htoken, hkey, rfl⟩ :=
      identity_of_open hideal hopen
    exact ⟨store, rng, expiresAt, q, hcall, hquery, htoken, hkey, extractIdentity_ok h⟩
  · cases h

theorem retryResult_ok (hideal : Ideal alg (calls.filterMap (·.query alg)))
    (hscid : scid.length ≤ maxCidLen) {t : Token}
    (h : retryResult alg keys addr scid dcid token now = .ok t) :
    ∃ store rng cid expiresAt q,
      Generate.retry store rng addr scid cid.bytes dcid expiresAt ∈ calls ∧
      (Generate.retry store rng addr scid cid.bytes dcid expiresAt).query alg = some q ∧
      token = alg.packed q ∧ t = .retry cid (carriedExpiry expiresAt) ∧
      now ≤ carriedExpiry expiresAt := by
  unfold retryResult at h
  split at h
  · next plaintext hopen =>
    obtain ⟨store, rng, odcid, expiresAt, q, hcall, hquery, htoken, rfl⟩ :=
      retry_of_open hideal hscid hopen
    obtain ⟨cid, ht, rfl, -, hnow⟩ := extractRetry_ok h
    exact ⟨store, rng, cid, expiresAt, q, hcall, hquery, htoken, ht, hnow⟩
  · cases h

/-- A token is accepted in one of the two formats. -/
theorem verifyToken_ok {aead : Aead Key} {store : KeyStore Key} (ha : aead.Follows history)
    (hs : store.Follows history) (hscid : scid.length ≤ maxCidLen)
    (hdcid : dcid.length ≤ maxCidLen) {t : Token}
    (h : (verifyToken alg aead store addr scid dcid token now).2 = .ok t) :
    identityResult alg store.keys addr token now = .ok t ∨
    retryResult alg store.keys addr scid dcid token now = .ok t := by
  by_cases htoken : token = []
  · simp [verifyToken, htoken] at h
  · rw [verifyToken_eq ha hs htoken hscid hdcid] at h
    split at h
    · next t' ht =>
      cases h
      exact .inl ht
    · cases h
    · exact .inr h

/-- A retry token does not open as an identity token. -/
theorem identityResult_of_retry (hideal : Ideal alg (calls.filterMap (·.query alg)))
    {q : Query Key} (hq : q ∈ calls.filterMap (·.query alg))
    (had : q.associatedData = retryAssociatedData addr scid dcid) :
    identityResult alg keys addr (alg.packed q) now = .error .invalid := by
  unfold identityResult
  rcases Aead.tryCiphers_false alg (identityAssociatedData addr) (alg.packed q) keys with
    ⟨plaintext, hopen⟩ | hclosed
  · obtain ⟨q', hq', htoken, -, had', -⟩ :=
      (hideal.tryCiphers_iff fun q hq => nonce_length hq).mp hopen
    have hsame := hideal.packed_inj (fun q hq => nonce_length hq) hq hq' htoken
    rw [had, had'] at hsame
    exact absurd hsame.symm associatedData_injective.kind
  · rw [hclosed]

end

section

variable {calls : List (Generate Key)} {store₀ store : KeyStore Key} {addr : IpAddr}
  {scid dcid token : List UInt8} {now : SystemTime}

/-- **Retry tokens verify exactly when the original connection id is shorter than the maximum**:
after any history of calls, for a token that one of them issued for the same peer, whose key is still
in the store, and which has not expired. -/
theorem retry_token_verifies_iff (h₀ : store₀.Follows history)
    (hcalls : ∀ call ∈ calls, call.store.Follows history) (hs : store.Follows history)
    (hideal : Ideal alg (calls.filterMap (·.query alg)))
    {store₁ : KeyStore Key} {rng : Randomness} {odcid newScid : List UInt8}
    {expiresAt : SystemTime}
    (hissued : (.retry store₁ rng addr scid odcid newScid expiresAt, token) ∈
      (issued alg (Aead.new store₀) calls).2)
    (hkey : store₁.active ∈ store.keys) (hrep : SystemTime.Representable expiresAt)
    (hnow : now ≤ SystemTime.truncMillis expiresAt) :
    (∃ cid, cid.bytes = odcid ∧
      (verifyToken alg (issued alg (Aead.new store₀) calls).1 store addr scid newScid token now).2 =
        .ok (.retry cid (SystemTime.truncMillis expiresAt))) ↔
    odcid.length < maxCidLen := by
  obtain ⟨hmem, hfollows⟩ := issued_spec alg (Aead.follows_new h₀) hcalls
  obtain ⟨hcall, q, hquery, rfl⟩ := (hmem _ _).mp hissued
  have hq : q ∈ calls.filterMap (·.query alg) := List.mem_filterMap.mpr ⟨_, hcall, hquery⟩
  simp only [Generate.query] at hquery
  split at hquery
  · cases hquery
  next hlens =>
  cases hquery
  have hexpiry : carriedExpiry expiresAt = SystemTime.truncMillis expiresAt := by
    rw [carriedExpiry_eq, if_pos hrep]
  have hopen := (hideal.tryCiphers_iff fun q hq => nonce_length hq).mpr
    ⟨_, hq, rfl, hkey, rfl, rfl⟩
  have hscid : scid.length ≤ maxCidLen := by omega
  have hnewScid : newScid.length ≤ maxCidLen := by omega
  have hne := packed_ne_nil hideal hq (retryPlaintextData_ne_nil rng.padding odcid expiresAt)
  rw [verifyToken_eq hfollows hs hne hscid hnewScid, identityResult_of_retry hideal hq rfl]
  simp only [retryResult, hopen]
  constructor
  · rintro ⟨cid, rfl, hok⟩
    obtain ⟨cid', -, -, hlt, -⟩ := extractRetry_ok hok
    exact hlt
  · intro hlt
    obtain ⟨cid, hcid⟩ : ∃ cid : ConnectionId, cid.bytes = odcid := ⟨⟨odcid, by omega⟩, rfl⟩
    refine ⟨cid, hcid, ?_⟩
    have hiter := (ConnectionId.tryFromIter_eq_some_iff odcid cid).mpr ⟨hlt, hcid⟩
    rw [extractRetry_eq, hexpiry, if_neg (Int.not_lt.mpr hnow), hiter]

/-- **What verifies was issued for this peer**: after any history of calls, `Ok(Identity)` is
returned exactly for the tokens of `generate_identity_token` for the same address whose key is still
in the store and which have not expired, and `Ok(Retry)` only for those of `generate_retry_token` for
the same address and connection ids. The expiration time is the one given, truncated to milliseconds,
or the epoch where that does not fit. -/
theorem verify_iff_issued (h₀ : store₀.Follows history)
    (hcalls : ∀ call ∈ calls, call.store.Follows history) (hs : store.Follows history)
    (hideal : Ideal alg (calls.filterMap (·.query alg)))
    (hscid : scid.length ≤ maxCidLen) (hdcid : dcid.length ≤ maxCidLen) :
    (∀ e, (verifyToken alg (issued alg (Aead.new store₀) calls).1 store addr scid dcid token
          now).2 = .ok (.identity e) ↔
      ∃ store₁ rng x, (.identity store₁ rng addr x, token) ∈
          (issued alg (Aead.new store₀) calls).2 ∧
        store₁.active ∈ store.keys ∧
        e = (if SystemTime.Representable x then SystemTime.truncMillis x else 0) ∧ now ≤ e) ∧
    (∀ d e, (verifyToken alg (issued alg (Aead.new store₀) calls).1 store addr scid dcid token
          now).2 = .ok (.retry d e) →
      ∃ store₁ rng x, (.retry store₁ rng addr scid d.bytes dcid x, token) ∈
          (issued alg (Aead.new store₀) calls).2 ∧
        e = (if SystemTime.Representable x then SystemTime.truncMillis x else 0) ∧ now ≤ e) ∧
    AssociatedDataInjective := by
  obtain ⟨hmem, hfollows⟩ := issued_spec alg (Aead.follows_new h₀) hcalls
  refine ⟨fun e => ⟨fun hok => ?_, ?_⟩, fun d e hok => ?_, associatedData_injective⟩
  · rcases verifyToken_ok hfollows hs hscid hdcid hok with h | h
    · obtain ⟨store₁, rng, x, q, hcall, hquery, htoken, hkey, ht, hnow⟩ := identityResult_ok hideal h
      cases ht
      exact ⟨store₁, rng, x, (hmem _ _).mpr ⟨hcall, q, hquery, htoken⟩, hkey, carriedExpiry_eq x,
        hnow⟩
    · obtain ⟨_, _, _, _, _, _, _, _, ht, _⟩ := retryResult_ok hideal hscid h
      cases ht
  · rintro ⟨store₁, rng, x, hissued, hkey, he, hnow⟩
    obtain ⟨hcall, q, hquery, rfl⟩ := (hmem _ _).mp hissued
    have hq : q ∈ calls.filterMap (·.query alg) := List.mem_filterMap.mpr ⟨_, hcall, hquery⟩
    cases hquery
    rw [← carriedExpiry_eq] at he
    have hopen := (hideal.tryCiphers_iff fun q hq => nonce_length hq).mpr
      ⟨_, hq, rfl, hkey, rfl, rfl⟩
    have hne := packed_ne_nil hideal hq (identityPlaintextData_ne_nil rng.padding x)
    rw [verifyToken_eq hfollows hs hne hscid hdcid]
    simp only [identityResult, hopen, extractIdentity_eq]
    rw [if_neg (Int.not_lt.mpr (he ▸ hnow)), he]
  · rcases verifyToken_ok hfollows hs hscid hdcid hok with h | h
    · obtain ⟨_, _, _, _, _, _, _, _, ht, _⟩ := identityResult_ok hideal h
      cases ht
    · obtain ⟨store₁, rng, cid, x, q, hcall, hquery, htoken, ht, hnow⟩ :=
        retryResult_ok hideal hscid h
      cases ht
      exact ⟨store₁, rng, x, (hmem _ _).mpr ⟨hcall, q, hquery, htoken⟩, carriedExpiry_eq x, hnow⟩

end

/-! ## A generator with one token

The ideal algorithm for one encryption, and the runs that show what the conditions of the two
theorems are about. -/

/-- Opens one ciphertext, under one key, nonce and associated data. -/
def loneAlgorithm (q : Query Nat) : Algorithm Nat where
  nonceLen := 12
  tagLen := 16
  encryptInPlace _ _ _ plaintext := plaintext ++ List.replicate 16 0
  decryptInPlace key nonce ad ciphertext :=
    if key = q.key ∧ nonce = q.nonce ∧ ad = q.associatedData ∧
        ciphertext = q.plaintext ++ List.replicate 16 0 then
      (true, q.plaintext)
    else
      (false, ciphertext)

theorem loneAlgorithm_ideal (q : Query Nat) : Ideal (loneAlgorithm q) [q] where
  length := by simp [loneAlgorithm, Algorithm.sealed]
  correct := by simp [loneAlgorithm, Algorithm.sealed]
  authentic key nonce ad ciphertext h := by
    simp only [loneAlgorithm] at h
    split at h
    · next hq => exact ⟨q, by simp, hq.2.1.symm, hq.2.2.2.symm⟩
    · simp at h
  binding q' hq' key ad h := by
    obtain rfl : q' = q := by simpa using hq'
    simp only [loneAlgorithm, Algorithm.sealed] at h
    split at h
    · next hq => exact ⟨hq.1, hq.2.2.1⟩
    · simp at h

/-- One key that is never replaced. -/
def singleKey : KeyStore Nat := { active := 7, passive := [], revision := 0 }

theorem singleKey_follows : singleKey.Follows fun _ => (7, []) := rfl

def counting : Randomness := { padding := UInt8.ofNat, nonce := UInt8.ofNat }

/-- A `Retry` for the original connection id `odcid`, with a lifetime of one second. -/
def retryCall (odcid : List UInt8) : Generate Nat :=
  .retry singleKey counting IpAddr.localhost [1, 2] odcid [3] (SystemTime.ofMillis 1000)

def identityCall (expiresAt : SystemTime) : Generate Nat :=
  .identity singleKey counting IpAddr.localhost expiresAt

/-- The encryption of a call, for an algorithm with nonces of 12 bytes. -/
def sealedQuery (call : Generate Nat) : Query Nat :=
  (call.query (loneAlgorithm ⟨0, [], [], []⟩)).getD ⟨0, [], [], []⟩

def loneToken (call : Generate Nat) : List UInt8 :=
  (loneAlgorithm (sealedQuery call)).packed (sealedQuery call)

/-- The generator after it has issued one token. -/
def loneRun (call : Generate Nat) : Aead Nat × List (Generate Nat × List UInt8) :=
  issued (loneAlgorithm (sealedQuery call)) (Aead.new singleKey) [call]

theorem retry_token_verifies_short_odcid :
    ∃ cid : ConnectionId, cid.bytes = [9, 8, 7] ∧
      (verifyToken (loneAlgorithm (sealedQuery (retryCall [9, 8, 7])))
        (loneRun (retryCall [9, 8, 7])).1 singleKey IpAddr.localhost [1, 2] [3]
        (loneToken (retryCall [9, 8, 7])) (SystemTime.ofMillis 1000)).2 =
        .ok (.retry cid (SystemTime.truncMillis (SystemTime.ofMillis 1000))) :=
  (retry_token_verifies_iff singleKey_follows (by simp [retryCall, Generate.store, singleKey_follows])
    singleKey_follows (loneAlgorithm_ideal (sealedQuery (retryCall [9, 8, 7])))
    (List.mem_singleton.mpr rfl) (by decide) (by decide) (by decide)).mpr (by decide)

/-- An original connection id of 20 bytes: the token is issued, nothing has expired and the key is in
the store, but the token is invalid. -/
theorem longest_odcid_refused :
    Ideal (loneAlgorithm (sealedQuery (retryCall (List.replicate 20 5))))
      ([retryCall (List.replicate 20 5)].filterMap
        (·.query (loneAlgorithm (sealedQuery (retryCall (List.replicate 20 5)))))) ∧
    (retryCall (List.replicate 20 5), loneToken (retryCall (List.replicate 20 5))) ∈
      (loneRun (retryCall (List.replicate 20 5))).2 ∧
    singleKey.active ∈ singleKey.keys ∧ SystemTime.Representable (SystemTime.ofMillis 1000) ∧
    SystemTime.ofMillis 1000 ≤ SystemTime.truncMillis (SystemTime.ofMillis 1000) ∧
    (verifyToken (loneAlgorithm (sealedQuery (retryCall (List.replicate 20 5))))
      (loneRun (retryCall (List.replicate 20 5))).1 singleKey IpAddr.localhost [1, 2] [3]
      (loneToken (retryCall (List.replicate 20 5))) (SystemTime.ofMillis 1000)).2 =
        .error .invalid := by
  refine ⟨loneAlgorithm_ideal _, List.mem_singleton.mpr rfl, by decide, by decide, by decide, ?_⟩
  decide +kernel

theorem verify_iff_issued_identity :
    (verifyToken (loneAlgorithm (sealedQuery (identityCall (SystemTime.ofMillis 1000))))
      (loneRun (identityCall (SystemTime.ofMillis 1000))).1 singleKey IpAddr.localhost [] [4, 4]
      (loneToken (identityCall (SystemTime.ofMillis 1000))) (SystemTime.ofMillis 999)).2 =
        .ok (.identity (SystemTime.ofMillis 1000)) :=
  ((verify_iff_issued singleKey_follows
      (by simp [identityCall, Generate.store, singleKey_follows]) singleKey_follows
      (loneAlgorithm_ideal (sealedQuery (identityCall (SystemTime.ofMillis 1000)))) (by decide)
      (by decide)).1 _).mpr
    ⟨singleKey, counting, SystemTime.ofMillis 1000, List.mem_singleton.mpr rfl, by decide,
      by decide, by decide⟩

/-- An expiration time beyond the range of `u64` milliseconds becomes the epoch: the identity token
that was just issued counts as expired. -/
theorem far_expiry_refused :
    Ideal (loneAlgorithm (sealedQuery (identityCall (SystemTime.ofMillis (2 ^ 64)))))
      ([identityCall (SystemTime.ofMillis (2 ^ 64))].filterMap
        (·.query (loneAlgorithm (sealedQuery (identityCall (SystemTime.ofMillis (2 ^ 64))))))) ∧
    (identityCall (SystemTime.ofMillis (2 ^ 64)),
        loneToken (identityCall (SystemTime.ofMillis (2 ^ 64)))) ∈
      (loneRun (identityCall (SystemTime.ofMillis (2 ^ 64)))).2 ∧
    singleKey.active ∈ singleKey.keys ∧
    SystemTime.ofMillis 1 ≤ SystemTime.truncMillis (SystemTime.ofMillis (2 ^ 64)) ∧
    (verifyToken (loneAlgorithm (sealedQuery (identityCall (SystemTime.ofMillis (2 ^ 64)))))
      (loneRun (identityCall (SystemTime.ofMillis (2 ^ 64)))).1 singleKey IpAddr.localhost [] []
      (loneToken (identityCall (SystemTime.ofMillis (2 ^ 64)))) (SystemTime.ofMillis 1)).2 ≠
        .ok (.identity (SystemTime.truncMillis (SystemTime.ofMillis (2 ^ 64)))) := by
  refine ⟨loneAlgorithm_ideal _, List.mem_singleton.mpr rfl, by decide, by decide, ?_⟩
  decide +kernel

end Aquic.Tokens

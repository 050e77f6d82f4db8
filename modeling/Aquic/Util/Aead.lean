import Mathlib.Data.List.Basic

/-!
# The AEAD wrapper

`util/aead.rs` and `util/crypto.rs`: authenticated encryption with a key store whose keys may be
rotated. A message is encrypted in place with the active key and a random nonce, and the nonce is
appended; decryption tries the active key first and then the passive ones, restoring the ciphertext
after every failed attempt.

The algorithm itself (the `aead` crate) is a parameter. `Ideal` is what the users of the wrapper rely
on: a ciphertext that was produced opens under its own key, nonce and associated data, and nothing
else opens. It is stated relative to the encryptions that were made, since no algorithm can be
unforgeable for inputs nobody ever asked for.

A key store is user code. Its contract is that the keys change only together with the revision:
`KeyHistory` gives the keys of each revision.
-/

namespace Aquic.Crypto

abbrev Bytes := List UInt8

/-- What `aead::KeyInit` and `aead::AeadInOut` provide. -/
structure Algorithm (Key : Type) where
  nonceLen : Nat
  tagLen : Nat
  /-- `encrypt_in_place(nonce, associated_data, buffer)`: the buffer afterwards. -/
  encryptInPlace : Key → Bytes → Bytes → Bytes → Bytes
  /-- `decrypt_in_place(nonce, associated_data, buffer)`: whether it succeeded, and the buffer
  afterwards, whatever a failed attempt has left there. -/
  decryptInPlace : Key → Bytes → Bytes → Bytes → Bool × Bytes

/-- What a `KeyStore` says at one moment. -/
structure KeyStore (Key : Type) where
  active : Key
  passive : List Key
  revision : Nat

variable {Key : Type}

/-- All keys in the store, in the order in which they are tried. -/
def KeyStore.keys (store : KeyStore Key) : List Key := store.active :: store.passive

/-! ## One cipher -/

namespace Algorithm

variable (alg : Algorithm Key)

/-- `Cipher::encrypt_and_pack`: `rng` fills the nonce. -/
def encryptAndPack (key : Key) (rng : Nat → UInt8) (associatedData plaintext : Bytes) : Bytes :=
  let nonce := (List.range alg.nonceLen).map rng
  alg.encryptInPlace key nonce associatedData plaintext ++ nonce

/-- `Cipher::unpack_and_decrypt`. -/
def unpackAndDecrypt (key : Key) (associatedData ciphertext : Bytes) : Bool × Bytes :=
  if ciphertext.length < alg.tagLen + alg.nonceLen then
    (false, ciphertext)
  else
    let nonce := ciphertext.drop (ciphertext.length - alg.nonceLen)
    alg.decryptInPlace key nonce associatedData
      (ciphertext.take (ciphertext.length - alg.nonceLen))

end Algorithm

/-! ## The ciphers of a key store -/

structure Aead (Key : Type) where
  /-- The active cipher first. -/
  ciphers : List Key
  revision : Nat
  ciphers_ne_nil : ciphers ≠ []

namespace Aead

/-- `update_ciphers`. -/
def updateCiphers (store : KeyStore Key) : Aead Key where
  ciphers := store.active :: store.passive
  revision := store.revision
  ciphers_ne_nil := List.cons_ne_nil _ _

/-- `Aead::new`. -/
def new (store : KeyStore Key) : Aead Key := updateCiphers store

def compareAndUpdateCiphers (aead : Aead Key) (store : KeyStore Key) : Aead Key :=
  if aead.revision ≠ store.revision then updateCiphers store else aead

/-- `encrypt_and_pack`, with the store as it is at the time of the call. -/
def encryptAndPack (alg : Algorithm Key) (aead : Aead Key) (store : KeyStore Key)
    (rng : Nat → UInt8) (associatedData plaintext : Bytes) : Aead Key × Bytes :=
  let aead := aead.compareAndUpdateCiphers store
  (aead, alg.encryptAndPack (aead.ciphers.head aead.ciphers_ne_nil) rng associatedData plaintext)

/-- The loop over the ciphers. A failed attempt restores the ciphertext from the fallback buffer. -/
def tryCiphers (alg : Algorithm Key) (associatedData fallback : Bytes) :
    List Key → Bytes → Bool × Bytes
  | [], ciphertext => (false, ciphertext)
  | key :: keys, ciphertext =>
    match alg.unpackAndDecrypt key associatedData ciphertext with
    | (true, plaintext) => (true, plaintext)
    | (false, _) => tryCiphers alg associatedData fallback keys fallback

/-- `unpack_and_decrypt`: whether it succeeded, and the buffer afterwards. The fallback buffer is
overwritten first and empty in the end. -/
def unpackAndDecrypt (alg : Algorithm Key) (aead : Aead Key) (store : KeyStore Key)
    (associatedData ciphertext : Bytes) : Aead Key × (Bool × Bytes) :=
  let aead := aead.compareAndUpdateCiphers store
  (aead, tryCiphers alg associatedData ciphertext aead.ciphers ciphertext)

end Aead

/-! ## Key rotation -/

/-- The active key and the passive keys of every revision. -/
abbrev KeyHistory (Key : Type) := Nat → Key × List Key

/-- The store obeys its contract: its keys are those of its revision. -/
def KeyStore.Follows (store : KeyStore Key) (history : KeyHistory Key) : Prop :=
  (store.active, store.passive) = history store.revision

/-- The ciphers are those of the revision they were fetched at. -/
def Aead.Follows (aead : Aead Key) (history : KeyHistory Key) : Prop :=
  aead.ciphers = (history aead.revision).1 :: (history aead.revision).2

theorem Aead.follows_new {store : KeyStore Key} {history : KeyHistory Key}
    (h : store.Follows history) : (Aead.new store).Follows history := by
  unfold Aead.Follows Aead.new Aead.updateCiphers
  rw [← show (store.active, store.passive) = history store.revision from h]

/-- After the comparison of revisions the ciphers are those of the store, whatever was cached. -/
theorem Aead.compareAndUpdateCiphers_spec {aead : Aead Key} {store : KeyStore Key}
    {history : KeyHistory Key} (ha : aead.Follows history) (hs : store.Follows history) :
    (aead.compareAndUpdateCiphers store).ciphers = store.keys ∧
    (aead.compareAndUpdateCiphers store).Follows history := by
  unfold Aead.compareAndUpdateCiphers
  split
  · exact ⟨rfl, Aead.follows_new hs⟩
  · next hrev =>
    have hrev : aead.revision = store.revision := by simpa using hrev
    refine ⟨?_, ha⟩
    rw [show aead.ciphers = _ from ha, hrev]
    rw [← show (store.active, store.passive) = history store.revision from hs]
    rfl

theorem Aead.encryptAndPack_eq {alg : Algorithm Key} {aead : Aead Key} {store : KeyStore Key}
    {history : KeyHistory Key} (ha : aead.Follows history) (hs : store.Follows history)
    (rng : Nat → UInt8) (ad plaintext : Bytes) :
    (Aead.encryptAndPack alg aead store rng ad plaintext).2 =
      alg.encryptAndPack store.active rng ad plaintext := by
  obtain ⟨hciphers, -⟩ := Aead.compareAndUpdateCiphers_spec ha hs
  unfold Aead.encryptAndPack
  simp only [hciphers, KeyStore.keys, List.head_cons]

/-- **The keys are tried in order**: the result is that of the first key that opens the original
ciphertext. -/
theorem Aead.tryCiphers_eq (alg : Algorithm Key) (ad ciphertext : Bytes) (keys : List Key) :
    Aead.tryCiphers alg ad ciphertext keys ciphertext =
      match keys.find? fun key => (alg.unpackAndDecrypt key ad ciphertext).1 with
      | some key => (true, (alg.unpackAndDecrypt key ad ciphertext).2)
      | none => (false, ciphertext) := by
  induction keys with
  | nil => rfl
  | cons key keys ih =>
    unfold Aead.tryCiphers
    rcases hopen : alg.unpackAndDecrypt key ad ciphertext with ⟨_ | _, rest⟩
    · rw [List.find?_cons_of_neg (by simp [hopen])]
      exact ih
    · rw [List.find?_cons_of_pos (by simp [hopen])]
      simp [hopen]

/-! ## The ideal algorithm -/

/-- One encryption. -/
structure Query (Key : Type) where
  key : Key
  nonce : Bytes
  associatedData : Bytes
  plaintext : Bytes

/-- The ciphertext of an encryption, without the nonce. -/
def Algorithm.sealed (alg : Algorithm Key) (q : Query Key) : Bytes :=
  alg.encryptInPlace q.key q.nonce q.associatedData q.plaintext

/-- The encryptions `queries` were made, and the algorithm is correct and unforgeable. -/
structure Ideal (alg : Algorithm Key) (queries : List (Query Key)) : Prop where
  /-- The tag is appended to the ciphertext. -/
  length : ∀ q ∈ queries, (alg.sealed q).length = q.plaintext.length + alg.tagLen
  correct : ∀ q ∈ queries,
    alg.decryptInPlace q.key q.nonce q.associatedData (alg.sealed q) = (true, q.plaintext)
  /-- Only what was produced opens. -/
  authentic : ∀ key nonce ad ciphertext,
    (alg.decryptInPlace key nonce ad ciphertext).1 = true →
    ∃ q ∈ queries, q.nonce = nonce ∧ alg.sealed q = ciphertext
  /-- What was produced opens only under its own key and associated data. -/
  binding : ∀ q ∈ queries, ∀ key ad,
    (alg.decryptInPlace key q.nonce ad (alg.sealed q)).1 = true →
    key = q.key ∧ ad = q.associatedData

/-- What a query looks like on the wire. -/
def Algorithm.packed (alg : Algorithm Key) (q : Query Key) : Bytes := alg.sealed q ++ q.nonce

section

variable {alg : Algorithm Key} {queries : List (Query Key)} {q : Query Key}

/-- A packed ciphertext opens under its own key and associated data only. -/
theorem Ideal.unpack_packed (h : Ideal alg queries) (hq : q ∈ queries)
    (hnonce : q.nonce.length = alg.nonceLen) (key : Key) (ad : Bytes) :
    alg.unpackAndDecrypt key ad (alg.packed q) =
      alg.decryptInPlace key q.nonce ad (alg.sealed q) := by
  have hlen := h.length q hq
  have htotal : (alg.packed q).length = (alg.sealed q).length + alg.nonceLen := by
    simp [Algorithm.packed, hnonce]
  unfold Algorithm.unpackAndDecrypt
  rw [if_neg (by omega), htotal, Nat.add_sub_cancel]
  simp [Algorithm.packed]

/-- Only packed ciphertexts open. -/
theorem Ideal.of_unpack (h : Ideal alg queries) {key : Key} {ad token : Bytes}
    (hopen : (alg.unpackAndDecrypt key ad token).1 = true) :
    ∃ q ∈ queries, token = alg.packed q ∧ q.nonce.length = alg.nonceLen ∧ q.key = key ∧
      q.associatedData = ad ∧ (alg.unpackAndDecrypt key ad token).2 = q.plaintext := by
  unfold Algorithm.unpackAndDecrypt at hopen ⊢
  split at hopen
  · simp at hopen
  · next hlen =>
    rw [if_neg hlen]
    simp only at hopen ⊢
    obtain ⟨q, hq, hnonce, hsealed⟩ := h.authentic _ _ _ _ hopen
    rw [← hnonce, ← hsealed] at hopen
    obtain ⟨hkey, had⟩ := h.binding q hq _ _ hopen
    refine ⟨q, hq, ?_, ?_, hkey.symm, had.symm, ?_⟩
    · rw [Algorithm.packed, hnonce, hsealed, List.take_append_drop]
    · rw [hnonce, List.length_drop]
      omega
    · rw [← hnonce, ← hsealed, hkey, had, h.correct q hq]

/-- The outcome of `unpack_and_decrypt` depends on the keys in the store only. -/
theorem Aead.unpackAndDecrypt_eq {aead : Aead Key} {store : KeyStore Key}
    {history : KeyHistory Key} (ha : aead.Follows history) (hs : store.Follows history)
    (ad token : Bytes) :
    Aead.unpackAndDecrypt alg aead store ad token =
      (aead.compareAndUpdateCiphers store, Aead.tryCiphers alg ad token store.keys token) := by
  obtain ⟨hciphers, -⟩ := Aead.compareAndUpdateCiphers_spec ha hs
  unfold Aead.unpackAndDecrypt
  simp only [hciphers]

/-- **What opens**: the ciphertexts that were produced under a key that is still in the store, with
the same associated data. -/
theorem Ideal.tryCiphers_iff (h : Ideal alg queries)
    (hnonce : ∀ q ∈ queries, q.nonce.length = alg.nonceLen) {keys : List Key}
    {ad token plaintext : Bytes} :
    Aead.tryCiphers alg ad token keys token = (true, plaintext) ↔
      ∃ q ∈ queries, token = alg.packed q ∧ q.key ∈ keys ∧ q.associatedData = ad ∧
        q.plaintext = plaintext := by
  rw [Aead.tryCiphers_eq]
  constructor
  · intro hopen
    split at hopen
    · next key hfind =>
      have hopens := List.find?_some hfind
      obtain ⟨q, hq, htoken, -, hkey, had, hplain⟩ := h.of_unpack hopens
      refine ⟨q, hq, htoken, hkey ▸ List.mem_of_find?_eq_some hfind, had, ?_⟩
      rw [← hplain]
      exact (Prod.mk.inj hopen).2
    · simp at hopen
  · rintro ⟨q, hq, rfl, hkey, rfl, rfl⟩
    have hopens : (alg.unpackAndDecrypt q.key q.associatedData (alg.packed q)).1 = true := by
      rw [h.unpack_packed hq (hnonce q hq), h.correct q hq]
    have hfound : (keys.find? fun key =>
        (alg.unpackAndDecrypt key q.associatedData (alg.packed q)).1).isSome := by
      rw [List.find?_isSome]
      exact ⟨q.key, hkey, hopens⟩
    obtain ⟨key, hfind⟩ := Option.isSome_iff_exists.mp hfound
    -- the first key that opens is the one that sealed
    have hkey' : key = q.key := by
      have hopen := List.find?_some hfind
      rw [h.unpack_packed hq (hnonce q hq)] at hopen
      exact (h.binding q hq key _ hopen).1
    rw [hfind, hkey']
    simp only [h.unpack_packed hq (hnonce q hq), h.correct q hq]

/-- What is packed determines what it is bound to. -/
theorem Ideal.packed_inj (h : Ideal alg queries)
    (hnonce : ∀ q ∈ queries, q.nonce.length = alg.nonceLen) {q' : Query Key} (hq : q ∈ queries)
    (hq' : q' ∈ queries) (heq : alg.packed q = alg.packed q') :
    q.associatedData = q'.associatedData := by
  have hlen : q.nonce.length = q'.nonce.length := by rw [hnonce q hq, hnonce q' hq']
  obtain ⟨hsealed, hn⟩ := List.append_inj' heq hlen
  have hopen : (alg.decryptInPlace q.key q'.nonce q.associatedData (alg.sealed q')).1 = true := by
    rw [← hsealed, ← hn, h.correct q hq]
  exact (h.binding q' hq' _ _ hopen).2

theorem Aead.tryCiphers_false (alg : Algorithm Key) (ad token : Bytes) (keys : List Key) :
    (∃ plaintext, Aead.tryCiphers alg ad token keys token = (true, plaintext)) ∨
      Aead.tryCiphers alg ad token keys token = (false, token) := by
  rw [Aead.tryCiphers_eq]
  split
  · exact .inl ⟨_, rfl⟩
  · exact .inr rfl

end

end Aquic.Crypto

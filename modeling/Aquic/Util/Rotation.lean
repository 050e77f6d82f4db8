import Aquic.Util.Aead

/-!
# Key rotation

The calls of an `Aead` while the keys in its store change. The wrapper caches its ciphers, and fetches them
again when a call finds another revision than the last fetch. So it sees a change of keys exactly if the
revision is not the old one *at the next call*: a revision that has been counted on and back in between
hides what has happened.

`Announced` says that this does not happen. It holds if no revision is ever reused for other keys.
-/

namespace Aquic.Crypto

variable {Key : Type} (alg : Algorithm Key)

inductive Event (Key : Type) where
  /-- The user of the store replaces its contents. -/
  | change (store : KeyStore Key)
  | encryptAndPack (rng : Nat → UInt8) (associatedData plaintext : Bytes)
  | unpackAndDecrypt (associatedData ciphertext : Bytes)

/-- What a call leaves in the buffer, and for decryption whether it succeeded. -/
inductive Answer where
  | packed (buffer : Bytes)
  | opened (success : Bool) (buffer : Bytes)
  deriving DecidableEq, Repr

/-- A call that was made: what was asked, what the store contained at that time, and the answer. -/
structure Call (Key : Type) where
  event : Event Key
  store : KeyStore Key
  answer : Answer

/-- The wrapper and the store that it reads. -/
structure Wrapped (Key : Type) where
  aead : Aead Key
  store : KeyStore Key

namespace Wrapped

def new (store : KeyStore Key) : Wrapped Key := ⟨Aead.new store, store⟩

def step (w : Wrapped Key) : Event Key → Wrapped Key × List (Call Key)
  | .change store => ({ w with store }, [])
  | .encryptAndPack rng associatedData plaintext =>
    let (aead, buffer) := w.aead.encryptAndPack alg w.store rng associatedData plaintext
    ({ w with aead },
      [⟨.encryptAndPack rng associatedData plaintext, w.store, .packed buffer⟩])
  | .unpackAndDecrypt associatedData ciphertext =>
    let (aead, success, buffer) := w.aead.unpackAndDecrypt alg w.store associatedData ciphertext
    ({ w with aead },
      [⟨.unpackAndDecrypt associatedData ciphertext, w.store, .opened success buffer⟩])

/-- A whole history, with the calls in order. -/
def run (w : Wrapped Key) : List (Event Key) → Wrapped Key × List (Call Key)
  | [] => (w, [])
  | event :: events =>
    let (w, calls) := w.step alg event
    let (w, rest) := w.run events
    (w, calls ++ rest)

end Wrapped

/-! ## What a call should answer -/

/-- The key authenticates these bytes. -/
def Algorithm.Opens (key : Key) (associatedData ciphertext : Bytes) : Prop :=
  (alg.unpackAndDecrypt key associatedData ciphertext).1 = true

/-- The plaintext is that of the first key that opens the ciphertext; the ciphertext is still there if
no key does. -/
inductive Opened (store : KeyStore Key) (associatedData ciphertext : Bytes) : Bool → Bytes → Prop
  | success {before after : List Key} {key : Key} :
    store.keys = before ++ key :: after →
    (∀ earlier ∈ before, ¬ alg.Opens earlier associatedData ciphertext) →
    alg.Opens key associatedData ciphertext →
    Opened store associatedData ciphertext true
      (alg.unpackAndDecrypt key associatedData ciphertext).2
  | failure : (∀ key ∈ store.keys, ¬ alg.Opens key associatedData ciphertext) →
    Opened store associatedData ciphertext false ciphertext

/-- The call was answered with the keys that the store contained at that time. -/
def Call.Transparent (call : Call Key) : Prop :=
  match call.event, call.answer with
  | .encryptAndPack rng associatedData plaintext, .packed buffer =>
    buffer = alg.encryptAndPack call.store.active rng associatedData plaintext
  | .unpackAndDecrypt associatedData ciphertext, .opened success buffer =>
    Opened alg call.store associatedData ciphertext success buffer
  | _, _ => False

variable {alg}

/-- A decryption succeeds exactly if some key in the store opens the ciphertext. -/
theorem Opened.success_iff {store : KeyStore Key} {associatedData ciphertext buffer : Bytes}
    {success : Bool} (h : Opened alg store associatedData ciphertext success buffer) :
    success = true ↔ ∃ key ∈ store.keys, alg.Opens key associatedData ciphertext := by
  cases h with
  | success hkeys _ hopens =>
    rw [hkeys]
    exact ⟨fun _ => ⟨_, List.mem_append_right _ (List.mem_cons_self ..), hopens⟩, fun _ => rfl⟩
  | failure hnone =>
    constructor
    · intro h
      cases h
    · rintro ⟨key, hkey, hopens⟩
      exact absurd hopens (hnone key hkey)

/-- The loop over the ciphers of a store opens as it should, whatever failed attempts leave behind. -/
theorem opened_tryCiphers (store : KeyStore Key) (associatedData ciphertext : Bytes) :
    Opened alg store associatedData ciphertext
      (Aead.tryCiphers alg associatedData ciphertext store.keys ciphertext).1
      (Aead.tryCiphers alg associatedData ciphertext store.keys ciphertext).2 := by
  rw [Aead.tryCiphers_eq]
  cases hfind : store.keys.find? fun key =>
      (alg.unpackAndDecrypt key associatedData ciphertext).1 with
  | none => exact .failure (List.find?_eq_none.mp hfind)
  | some key =>
    obtain ⟨hopens, before, after, hkeys, hbefore⟩ := List.find?_eq_some_iff_append.mp hfind
    refine .success hkeys (fun earlier hearlier hopen => ?_) hopens
    have hclosed := hbefore earlier hearlier
    rw [show (alg.unpackAndDecrypt earlier associatedData ciphertext).1 = true from hopen] at hclosed
    cases hclosed

/-! ## Announced changes -/

/-- No call finds the revision of the call before it (or of `new`) with other keys. `seen` is what the
store contained then. -/
def Announced (seen now : KeyStore Key) : List (Event Key) → Prop
  | [] => True
  | .change store :: events => Announced seen store events
  | _ :: events =>
    (now.revision = seen.revision → now.keys = seen.keys) ∧ Announced now now events

/-- A revision that names the keys announces every change of them. -/
theorem announced_of_follows {history : KeyHistory Key} {seen now : KeyStore Key}
    {events : List (Event Key)} (hseen : seen.Follows history) (hnow : now.Follows history)
    (hevents : ∀ store, Event.change store ∈ events → store.Follows history) :
    Announced seen now events := by
  have hsame {seen now : KeyStore Key} (hseen : seen.Follows history) (hnow : now.Follows history)
      (hrevision : now.revision = seen.revision) : now.keys = seen.keys := by
    have hpair : (now.active, now.passive) = (seen.active, seen.passive) :=
      (hnow.trans (congrArg history hrevision)).trans hseen.symm
    obtain ⟨hactive, hpassive⟩ := Prod.mk.inj hpair
    unfold KeyStore.keys
    rw [hactive, hpassive]
  induction events generalizing seen now with
  | nil => trivial
  | cons event events ih =>
    have hrest store (hmem : Event.change store ∈ events) : store.Follows history :=
      hevents store (List.mem_cons_of_mem _ hmem)
    cases event with
    | change store => exact ih hseen (hevents store (List.mem_cons_self ..)) hrest
    | encryptAndPack rng associatedData plaintext =>
      exact ⟨hsame hseen hnow, ih hnow hnow hrest⟩
    | unpackAndDecrypt associatedData ciphertext =>
      exact ⟨hsame hseen hnow, ih hnow hnow hrest⟩

/-- The ciphers are those of a store that was seen. -/
structure Aead.Caches (aead : Aead Key) (seen : KeyStore Key) : Prop where
  ciphers : aead.ciphers = seen.keys
  revision : aead.revision = seen.revision

theorem Aead.caches_new (store : KeyStore Key) : (Aead.new store).Caches store := ⟨rfl, rfl⟩

/-- At a call, the ciphers become those of the store. -/
theorem Aead.Caches.compareAndUpdate {aead : Aead Key} {seen now : KeyStore Key}
    (h : aead.Caches seen) (hnow : now.revision = seen.revision → now.keys = seen.keys) :
    (aead.compareAndUpdateCiphers now).Caches now := by
  unfold Aead.compareAndUpdateCiphers
  split
  · exact Aead.caches_new now
  · next hrevision =>
    have hsame : aead.revision = now.revision := not_not.mp hrevision
    refine ⟨h.ciphers.trans (hnow ?_).symm, hsame⟩
    rw [← hsame, h.revision]

namespace Wrapped

variable (alg) in
/-- A step of a history. Every call of it is answered from the store of that time, and leaves the ciphers
of that store behind. -/
theorem step_transparent {w : Wrapped Key} {seen : KeyStore Key} {event : Event Key}
    {events : List (Event Key)} (hcaches : w.aead.Caches seen)
    (h : Announced seen w.store (event :: events)) :
    (∀ call ∈ (w.step alg event).2, call.Transparent alg) ∧
      ∃ seen', (w.step alg event).1.aead.Caches seen' ∧
        Announced seen' (w.step alg event).1.store events := by
  cases event with
  | change store =>
    refine ⟨fun call hcall => ?_, seen, hcaches, h⟩
    cases hcall
  | encryptAndPack rng associatedData plaintext =>
    have hfetched := hcaches.compareAndUpdate h.1
    refine ⟨fun call hcall => ?_, w.store, hfetched, h.2⟩
    obtain rfl := List.mem_singleton.mp hcall
    show (Aead.encryptAndPack alg w.aead w.store rng associatedData plaintext).2 = _
    unfold Aead.encryptAndPack
    simp only [hfetched.ciphers, KeyStore.keys, List.head_cons]
  | unpackAndDecrypt associatedData ciphertext =>
    have hfetched := hcaches.compareAndUpdate h.1
    refine ⟨fun call hcall => ?_, w.store, hfetched, h.2⟩
    obtain rfl := List.mem_singleton.mp hcall
    show Opened alg w.store associatedData ciphertext
      (Aead.unpackAndDecrypt alg w.aead w.store associatedData ciphertext).2.1
      (Aead.unpackAndDecrypt alg w.aead w.store associatedData ciphertext).2.2
    unfold Aead.unpackAndDecrypt
    simp only [hfetched.ciphers]
    exact opened_tryCiphers w.store associatedData ciphertext

theorem run_transparent {w : Wrapped Key} {seen : KeyStore Key} {events : List (Event Key)}
    (hcaches : w.aead.Caches seen) (h : Announced seen w.store events) :
    ∀ call ∈ (w.run alg events).2, call.Transparent alg := by
  induction events generalizing w seen with
  | nil =>
    intro call hcall
    cases hcall
  | cons event events ih =>
    obtain ⟨hcalls, seen', hcaches', h'⟩ := step_transparent alg hcaches h
    intro call hcall
    rcases List.mem_append.mp hcall with hfirst | hrest
    · exact hcalls call hfirst
    · exact ih hcaches' h' call hrest

end Wrapped

/-- **Rotation is transparent**: in every history whose changes are announced, all calls are answered
with the keys of their time. -/
theorem rotation_transparent (alg : Algorithm Key) (store : KeyStore Key)
    (events : List (Event Key)) (h : Announced store store events) :
    ∀ call ∈ ((Wrapped.new store).run alg events).2, call.Transparent alg :=
  Wrapped.run_transparent (Aead.caches_new store) h

/-! ## Changes that hide each other -/

/-- Every change of the keys changes the revision, and nothing more is said about the new one. -/
def ChangesRevision (now : KeyStore Key) : List (Event Key) → Prop
  | [] => True
  | .change store :: events =>
    (store.keys ≠ now.keys → store.revision ≠ now.revision) ∧ ChangesRevision store events
  | _ :: events => ChangesRevision now events

/-- An algorithm whose ciphertexts end with the key. -/
def tagging : Algorithm UInt8 where
  nonceLen := 0
  tagLen := 1
  encryptInPlace key _ _ plaintext := plaintext ++ [key]
  decryptInPlace key _ _ ciphertext := (ciphertext.getLast? = some key, ciphertext.dropLast)

/-- Two rotations, after which an old ciphertext opens under its passive key, and a new one is made under
the active key. -/
def announcedEvents : List (Event UInt8) :=
  [.encryptAndPack (fun _ => 0) [] [7], .change ⟨2, [1], 1⟩, .change ⟨3, [2, 1], 2⟩,
    .unpackAndDecrypt [] [7, 1], .encryptAndPack (fun _ => 0) [] [7]]

/-- Two rotations, of which the second one brings the first revision back. -/
def hiddenEvents : List (Event UInt8) :=
  [.change ⟨2, [], 1⟩, .change ⟨3, [], 0⟩, .encryptAndPack (fun _ => 0) [] [7]]

theorem rotation_transparent_announced :
    ((Wrapped.new ⟨1, [], 0⟩).run tagging announcedEvents).2.map Call.answer =
      [.packed [7, 1], .opened true [7], .packed [7, 3]] ∧
    ∀ call ∈ ((Wrapped.new ⟨1, [], 0⟩).run tagging announcedEvents).2, call.Transparent tagging :=
  ⟨rfl, rotation_transparent tagging ⟨1, [], 0⟩ announcedEvents (by
    refine ⟨fun _ => rfl, ⟨fun h => ?_, ⟨fun _ => rfl, trivial⟩⟩⟩
    cases h)⟩

/-- The new key is not used: the wrapper sees the revision that it knows. -/
theorem hidden_rotation :
    ChangesRevision ⟨1, [], 0⟩ hiddenEvents ∧
    ∃ call ∈ ((Wrapped.new ⟨1, [], 0⟩).run tagging hiddenEvents).2,
      ¬ call.Transparent tagging := by
  refine ⟨⟨fun _ => by decide, fun _ => by decide, trivial⟩, _, List.mem_singleton.mpr rfl, ?_⟩
  intro h
  cases h

end Aquic.Crypto

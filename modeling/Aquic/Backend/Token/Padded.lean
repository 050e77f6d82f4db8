import Aquic.Backend.Token.Basic
import Aquic.Lib.Bytes
import Aquic.Util.Aead

/-!
# The padded token generator

`backend/token/padded.rs`: tokens of one length, whatever they carry. The payload is encrypted, and
what the token is bound to (its kind, the peer's address, the connection ids of a `Retry`) is
associated data.

The three buffers of the generator are scratch space: every operation clears a buffer before it
writes to it, so the model passes byte strings around instead. What remains as state is the AEAD
wrapper with its cached ciphers. The HMAC half of the generator (stateless reset tokens) is not part
of this model.
-/

namespace Aquic.Tokens

open Aquic.Bytes Aquic.Cid Aquic.Crypto Aquic.Net

/-! ## Writing -/

def lengthOfIpAddr (addr : IpAddr) : Nat := addr.octets.length

/-- `write_padding`: `length` bytes, zeros or random ones, and then the length. -/
def writePadding (length : Nat) (random : Option (Nat → UInt8)) : List UInt8 :=
  let filling := match random with
    | none => List.replicate length 0
    | some rng => (List.range length).map rng
  filling ++ [UInt8.ofNat length]

def writeMillis (millis : Nat) : List UInt8 := toBe 8 millis

def writeKind : TokenKind → UInt8
  | .retry => 0
  | .identity => 255

/-- `write_retry_associated_data`. -/
def retryAssociatedData (peerAddr : IpAddr) (scid dcid : List UInt8) : List UInt8 :=
  [writeKind .retry] ++
    (peerAddr.octets ++ writePadding (16 - lengthOfIpAddr peerAddr) none) ++
    (scid ++ writePadding (maxCidLen - scid.length) none) ++
    dcid

/-- `write_identity_associated_data`. -/
def identityAssociatedData (peerAddr : IpAddr) : List UInt8 :=
  [writeKind .identity] ++ peerAddr.octets

/-- `write_retry_plaintext_data`. -/
def retryPlaintextData (rng : Nat → UInt8) (originalPeerDcid : List UInt8)
    (expiresAt : SystemTime) : List UInt8 :=
  originalPeerDcid ++ writePadding (maxCidLen - originalPeerDcid.length) (some rng) ++
    writeMillis ((SystemTime.toMillis expiresAt).getD 0)

/-- `write_identity_plaintext_data`. -/
def identityPlaintextData (rng : Nat → UInt8) (expiresAt : SystemTime) : List UInt8 :=
  writePadding maxCidLen (some rng) ++ writeMillis ((SystemTime.toMillis expiresAt).getD 0)

/-! ## Reading

Fields are taken from the end of the buffer: what is left is returned with the field. -/

/-- `drain_millis`. -/
def drainMillis (token : List UInt8) : Except TokenError (Nat × List UInt8) :=
  if token.length < 8 then
    .error .invalid
  else
    .ok (ofBe (token.drop (token.length - 8)), token.take (token.length - 8))

/-- `drain_padding`. -/
def drainPadding (token : List UInt8) : Except TokenError (List UInt8) :=
  match unpad token with
  | none => .error .invalid
  | some rest => .ok rest

/-- `extract_retry_plaintext_data`. -/
def extractRetryPlaintextData (buf : List UInt8) (now : SystemTime) : Except TokenError Token := do
  let (millis, buf) ← drainMillis buf
  let expiresAt := SystemTime.ofMillis millis
  if expiresAt < now then
    throw (.expired .retry expiresAt)
  let buf ← drainPadding buf
  match ConnectionId.tryFromIter buf with
  | none => throw .invalid
  | some peerOriginalDcid => return .retry peerOriginalDcid expiresAt

/-- `extract_identity_plaintext_data`. -/
def extractIdentityPlaintextData (buf : List UInt8) (now : SystemTime) :
    Except TokenError Token := do
  let (millis, buf) ← drainMillis buf
  let expiresAt := SystemTime.ofMillis millis
  if expiresAt < now then
    throw (.expired .identity expiresAt)
  let buf ← drainPadding buf
  if buf ≠ [] then
    throw .invalid
  return .identity expiresAt

/-! ## The generator -/

variable {Key : Type}

/-- The random bytes of one `generate` call: the padding, and the nonce. -/
structure Randomness where
  padding : Nat → UInt8
  nonce : Nat → UInt8

/-- `generate_retry_token`. -/
def generateRetryToken (alg : Algorithm Key) (aead : Aead Key) (store : KeyStore Key)
    (rng : Randomness) (peerAddr : IpAddr) (peerScid peerDcid serverNewScid : List UInt8)
    (expiresAt : SystemTime) : Aead Key × Option (List UInt8) :=
  if maxCidLen < peerScid.length ∨ maxCidLen < peerDcid.length ∨
      maxCidLen < serverNewScid.length then
    (aead, none)
  else
    let (aead, token) := Aead.encryptAndPack alg aead store rng.nonce
      (retryAssociatedData peerAddr peerScid serverNewScid)
      (retryPlaintextData rng.padding peerDcid expiresAt)
    (aead, some token)

/-- `generate_identity_token`. -/
def generateIdentityToken (alg : Algorithm Key) (aead : Aead Key) (store : KeyStore Key)
    (rng : Randomness) (peerAddr : IpAddr) (expiresAt : SystemTime) : Aead Key × List UInt8 :=
  Aead.encryptAndPack alg aead store rng.nonce (identityAssociatedData peerAddr)
    (identityPlaintextData rng.padding expiresAt)

/-- `verify_retry_token`. -/
def verifyRetryToken (alg : Algorithm Key) (aead : Aead Key) (store : KeyStore Key)
    (peerAddr : IpAddr) (peerScid peerDcid token : List UInt8) (now : SystemTime) :
    Aead Key × Except TokenError Token :=
  match Aead.unpackAndDecrypt alg aead store (retryAssociatedData peerAddr peerScid peerDcid)
      token with
  | (aead, false, _) => (aead, .error .invalid)
  | (aead, true, plaintext) => (aead, extractRetryPlaintextData plaintext now)

/-- `verify_identity_token`. -/
def verifyIdentityToken (alg : Algorithm Key) (aead : Aead Key) (store : KeyStore Key)
    (peerAddr : IpAddr) (token : List UInt8) (now : SystemTime) :
    Aead Key × Except TokenError Token :=
  match Aead.unpackAndDecrypt alg aead store (identityAssociatedData peerAddr) token with
  | (aead, false, _) => (aead, .error .invalid)
  | (aead, true, plaintext) => (aead, extractIdentityPlaintextData plaintext now)

/-- `verify_token`: an identity token first, then a retry token. -/
def verifyToken (alg : Algorithm Key) (aead : Aead Key) (store : KeyStore Key)
    (peerAddr : IpAddr) (peerScid peerDcid token : List UInt8) (now : SystemTime) :
    Aead Key × Except TokenError Token :=
  if token = [] then
    (aead, .error .invalid)
  else if maxCidLen < peerScid.length ∨ maxCidLen < peerDcid.length then
    (aead, .error .invalid)
  else
    match verifyIdentityToken alg aead store peerAddr token now with
    | (aead, .ok t) => (aead, .ok t)
    | (aead, .error (.expired kind expiredAt)) => (aead, .error (.expired kind expiredAt))
    | (aead, .error .invalid) => verifyRetryToken alg aead store peerAddr peerScid peerDcid token now

end Aquic.Tokens

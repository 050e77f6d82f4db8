import Aquic.Backend.Cid
import Aquic.Lib.Net

/-!
# Tokens of `Initial` packets

`backend/token/mod.rs`: what a token says once it has been verified, and what a token generator
offers to the backends. A generator changes while it is used (it caches ciphers, draws random
bytes), so its operations pass a state `σ` along.
-/

namespace Aquic.Tokens

open Aquic.Cid Aquic.Net

inductive TokenKind where
  /-- Single-use token of a `Retry` packet. -/
  | retry
  /-- General use token for peer's identity verification. -/
  | identity
  deriving DecidableEq, Repr

inductive TokenError where
  /-- Provided token is invalid, and may be malicious. -/
  | invalid
  /-- Provided token is valid, but expired. -/
  | expired (kind : TokenKind) (expiredAt : SystemTime)
  deriving DecidableEq, Repr

/-- A decrypted and verified `Initial` token. -/
inductive Token where
  | retry (peerOriginalDcid : ConnectionId) (expiresAt : SystemTime)
  | identity (expiresAt : SystemTime)
  deriving DecidableEq, Repr

/-- The trait `TokenGenerator`. -/
structure TokenGenerator (σ : Type) where
  generateRetryToken : σ → (peerAddr : IpAddr) → (peerScid peerDcid serverNewScid : List UInt8) →
    (expiresAt : SystemTime) → σ × Option (List UInt8)
  generateIdentityToken : σ → (peerAddr : IpAddr) → (expiresAt : SystemTime) → σ × List UInt8
  generateResetToken : σ → (serverScid : List UInt8) → σ × Vector UInt8 16
  verifyToken : σ → (peerAddr : IpAddr) → (peerScid peerDcid token : List UInt8) →
    (now : SystemTime) → σ × Except TokenError Token

end Aquic.Tokens

import Aquic.Backend.Cid
import Aquic.Lib.Bits
import Aquic.Lib.Word

/-!
# Connection ids of a server

`backend/cid/server.rs`: an id holds the server and the core it belongs to, for a load balancer to read,
and is encrypted. Ids of 17 bytes are a first octet and one block of the cipher; all others go through
four passes of a network over the two halves of the id.

The `aes` crate is a parameter, a cipher under a fixed key. Its decryption serves ids of 17 bytes alone:
the four passes encrypt in both directions. `none` is a panic.
-/

namespace Aquic.Cid

open Aquic.Bits Aquic.Bytes Aquic.Word

/-- AES block size in bytes. -/
def aesBlockSize : Nat := 16

/-- AES block size in bits. -/
def aesBlockSizeBits : Nat := aesBlockSize * 8

abbrev Block := Vector UInt8 aesBlockSize

structure Aes128 where
  encryptBlock : Block → Block
  decryptBlock : Block → Block
  decrypt_encrypt : ∀ block, decryptBlock (encryptBlock block) = block

/-- `GenericArray::from_mut_slice`. -/
def blockOf (bytes : List UInt8) : Option Block :=
  if h : bytes.length = aesBlockSize then some ⟨bytes.toArray, h⟩ else none

theorem blockOf_toList (block : Block) : blockOf block.toList = some block := by
  unfold blockOf
  rw [dif_pos block.length_toList]
  exact congrArg some (Vector.toArray_inj.mp (Array.toArray_toList ..))

/-! ## Four passes -/

/-- The bytes of a bit array of one block. -/
def rawBlock (val : List Bool) : Block := Vector.ofFn fun i => (pack val).getD i 0

def aesEcb (val : List Bool) (encryptBlock : Block → Block) : List Bool :=
  view (encryptBlock (rawBlock val)).toList

def truncateLeft (val : List Bool) (bits : Nat) : List Bool :=
  val.take bits ++ List.replicate (aesBlockSizeBits - bits) false

def truncateRight (val : List Bool) (bits : Nat) : List Bool :=
  List.replicate (aesBlockSizeBits - bits) false ++ val.drop (aesBlockSizeBits - bits)

def expandLeft (msbVal : List Bool) (lsbByte secondLsbByte : UInt8) : List Bool :=
  view (((pack msbVal).modify (aesBlockSize - 1) (· ||| lsbByte)).modify (aesBlockSize - 2)
    (· ||| secondLsbByte))

def expandRight (lsbVal : List Bool) (msbByte secondMsbByte : UInt8) : List Bool :=
  view (((pack lsbVal).set 0 msbByte).set 1 secondMsbByte)

/-- The two halves, each in a block of its own: the left one at its start, the right one at its end. -/
structure Halves where
  left : List Bool
  right : List Bool
  deriving DecidableEq, Repr

namespace Halves

variable (encryptBlock : Block → Block) (cidLen : UInt8)

/-- The passes with an odd index. -/
def mixRight (rightBits : Nat) (index : UInt8) (h : Halves) : Halves :=
  { h with
    right := h.right.zipWith xor
      (truncateRight (aesEcb (expandLeft h.left cidLen index) encryptBlock) rightBits) }

/-- The passes with an even index. -/
def mixLeft (leftBits : Nat) (index : UInt8) (h : Halves) : Halves :=
  { h with
    left := h.left.zipWith xor
      (truncateLeft (aesEcb (expandRight h.right cidLen index) encryptBlock) leftBits) }

/-- The loop of `encrypt_four_pass`, which runs twice. -/
def encrypt (leftBits rightBits : Nat) (h : Halves) : Halves :=
  [1, 3].foldl (fun h index =>
    (h.mixRight encryptBlock cidLen rightBits index).mixLeft encryptBlock cidLen leftBits
      (index + 1)) h

/-- The loop of `decrypt_four_pass`. -/
def decrypt (leftBits rightBits : Nat) (h : Halves) : Halves :=
  [4, 2].foldl (fun h index =>
    (h.mixLeft encryptBlock cidLen leftBits index).mixRight encryptBlock cidLen rightBits
      (index - 1)) h

def load (plaintext : List Bool) (leftBits rightBits : Nat) : Halves where
  left := plaintext.take leftBits ++ List.replicate (aesBlockSizeBits - leftBits) false
  right := List.replicate (aesBlockSizeBits - rightBits) false ++ plaintext.drop leftBits

def store (h : Halves) (leftBits rightBits : Nat) : List Bool :=
  h.left.take leftBits ++ h.right.drop (aesBlockSizeBits - rightBits)

end Halves

/-- What `encrypt_four_pass` and `decrypt_four_pass` share. The slices of the blocks are in bounds if
the halves fit. -/
def fourPass (rounds : UInt8 → Nat → Nat → Halves → Halves) (bytes : List UInt8) :
    Option (List UInt8) :=
  if bytes.isEmpty then
    some bytes
  else
    let plaintext := view bytes
    let leftBits := plaintext.length / 2
    let rightBits := plaintext.length - leftBits
    if aesBlockSizeBits < rightBits then
      none
    else
      let halves := rounds (UInt8.ofNat bytes.length + 1) leftBits rightBits
        (.load plaintext leftBits rightBits)
      some (pack (halves.store leftBits rightBits))

def encryptFourPass (encryptBlock : Block → Block) (plaintext : List UInt8) :
    Option (List UInt8) :=
  fourPass (Halves.encrypt encryptBlock) plaintext

def decryptFourPass (encryptBlock : Block → Block) (plaintext : List UInt8) :
    Option (List UInt8) :=
  fourPass (Halves.decrypt encryptBlock) plaintext

/-! ## The generator -/

structure ServerIdMeta where
  serverId : Nat
  coreId : Option Nat
  deriving DecidableEq, Repr

structure IdError where
  original : ConnectionId
  detail : String
  deriving DecidableEq, Repr

/-- A generator, with what the assertions of `new` guarantee. -/
structure ServerConnectionIdGenerator where
  firstOctet : UInt8
  serverId : UInt32
  serverIdBits : Nat
  coreId : UInt16
  coreIdBits : Nat
  entropyBits : Nat
  cipher : Aes128
  serverIdBits_ge : 8 ≤ serverIdBits
  serverIdBits_le : serverIdBits ≤ 32
  coreIdBits_le : coreIdBits ≤ 16
  entropyBits_ge : 32 ≤ entropyBits
  /-- It is a `usize`. -/
  entropyBits_lt : entropyBits < 2 ^ usizeBits

namespace ServerConnectionIdGenerator

/-- `new`, for an entropy that is a `usize`. -/
def new (cipher : Aes128) (firstOctet : UInt8) (serverId : UInt32) (coreId : UInt16)
    (serverIdBits coreIdBits : Nat) (entropyBits : Fin (2 ^ usizeBits)) :
    Option ServerConnectionIdGenerator :=
  if h : (8 ≤ serverIdBits ∧ serverIdBits ≤ 32) ∧ coreIdBits ≤ 16 ∧ 32 ≤ entropyBits.val then
    some
      { firstOctet, serverId, serverIdBits, coreId, coreIdBits, entropyBits, cipher
        serverIdBits_ge := h.1.1
        serverIdBits_le := h.1.2
        coreIdBits_le := h.2.1
        entropyBits_ge := h.2.2
        entropyBits_lt := entropyBits.isLt }
  else
    none

variable (g : ServerConnectionIdGenerator)

/-- `random_bits`. -/
def randomBits (rng : Rng) (bitsLen : Nat) : Rng × List Bool :=
  let (rng, bytes) := rng.fillBytes ((bitsLen + 7) / 8)
  (rng, (view bytes).take bitsLen)

/-- The part of `build_cid` that is left out for cores of no bits. -/
def writeCoreId (plaintext : List Bool) (offset : Nat) : Option (List Bool) :=
  if g.coreIdBits ≠ 0 then overwrite plaintext offset (storeBe g.coreIdBits g.coreId.toNat)
  else some plaintext

/-- `build_cid`. -/
def buildCid (rng : Rng) : Option (Rng × ConnectionId) := do
  let plaintext := view (g.firstOctet :: List.replicate (maxCidLen - 1) 0)
  let offset := 8
  let plaintext ← overwrite plaintext offset (storeBe g.serverIdBits g.serverId.toNat)
  let offset := offset + g.serverIdBits
  let plaintext ← g.writeCoreId plaintext offset
  let offset := offset + g.coreIdBits
  let entropyBits := min (maxCidLen * 8 - offset) g.entropyBits
  if entropyBits < 32 then
    none
  let (rng, entropy) := randomBits rng entropyBits
  let plaintext ← overwrite plaintext offset entropy
  let offset := offset + entropyBits
  let cid ← ConnectionId.tryFromSlice ((pack plaintext).take ((offset + 7) / 8))
  some (rng, cid)

/-- Encrypts or decrypts everything behind the first octet. -/
def transform (block : Block → Block) (passes : List UInt8 → Option (List UInt8)) :
    List UInt8 → Option (List UInt8)
  | [] => none
  | first :: plaintext =>
    -- one byte for the first octet, and one block
    if plaintext.length + 1 = 17 then
      (blockOf plaintext).map fun b => first :: (block b).toList
    else
      (passes plaintext).map (first :: ·)

/-- `generate`. -/
def generate (rng : Rng) : Option (Rng × ConnectionId) := do
  let (rng, cid) ← g.buildCid rng
  let bytes ← transform g.cipher.encryptBlock (encryptFourPass g.cipher.encryptBlock) cid.bytes
  let cid ← ConnectionId.tryFromSlice bytes
  some (rng, cid)

/-- What `generate` does to the id that it has built. -/
def encrypt (cid : ConnectionId) : Option ConnectionId := do
  let bytes ← transform g.cipher.encryptBlock (encryptFourPass g.cipher.encryptBlock) cid.bytes
  ConnectionId.tryFromSlice bytes

theorem generate_eq (rng : Rng) :
    g.generate rng = (g.buildCid rng).bind fun built => (g.encrypt built.2).map (built.1, ·) := by
  unfold generate encrypt
  cases g.buildCid rng with
  | none => rfl
  | some built => simp [Option.map_eq_bind, Option.bind_assoc]

/-- `cid_len`; the sum may overflow. -/
def cidLen : Nat :=
  let bits := wrappingAdd usizeBits (g.serverIdBits + g.coreIdBits) g.entropyBits
  min ((bits + 7) / 8) maxCidLen

/-- `decrypt`, which never fails but by a panic. -/
def decrypt (cid : ConnectionId) : Option ConnectionId := do
  let bytes ← transform g.cipher.decryptBlock (decryptFourPass g.cipher.encryptBlock) cid.bytes
  ConnectionId.tryFromSlice bytes

/-- `parse`. -/
def parse (cid : ConnectionId) : Except IdError ServerIdMeta :=
  match cid.bytes with
  | [] => .error { original := cid, detail := "CID is empty" }
  | _ :: bytes =>
    let plaintext := view bytes
    if plaintext.length < g.serverIdBits + g.coreIdBits then
      .error
        { original := cid
          detail := "Expected CID to have '" ++ toString g.serverIdBits ++
            "' bits for server_id,'" ++ toString g.coreIdBits ++
            "' bits for core_id, but the whole CID size in bits is '" ++
            toString plaintext.length ++ "'" }
    else
      .ok
        { serverId := loadBe (plaintext.take g.serverIdBits)
          coreId :=
            if 0 < g.coreIdBits then
              some (loadBe ((plaintext.drop g.serverIdBits).take g.coreIdBits))
            else none }

/-- `validate`. -/
def validate (cid : ConnectionId) : Bool :=
  if g.cidLen ≠ cid.bytes.length then
    false
  else
    match g.parse cid with
    | .ok found =>
      found.serverId = g.serverId.toNat ∧ (g.coreIdBits = 0 ∨ found.coreId = some g.coreId.toNat)
    | .error _ => false

end ServerConnectionIdGenerator

end Aquic.Cid

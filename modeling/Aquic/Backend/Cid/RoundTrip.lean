import Aquic.Backend.Cid.Server

/-!
# What a generated id contains

Encryption can be undone, whatever the cipher does to a block: a pass changes one half by something that
depends on the other half alone. So a decrypted id is the one that was built, and parsing it finds the
low bits of the server and of the core.
-/

namespace Aquic.Cid

open Aquic.Bits Aquic.Bytes Aquic.Word

/-! ## Four passes

Bits are added without carry, so that what is added twice is gone. -/

theorem zipWith_xor_cancel {xs ys : List Bool} (h : xs.length = ys.length) :
    (xs.zipWith xor ys).zipWith xor ys = xs := by
  induction xs generalizing ys with
  | nil => rfl
  | cons x xs ih =>
    cases ys with
    | nil => cases h
    | cons y ys => simp [ih (Nat.succ.inj h)]

theorem zipWith_xor_zeros (n : Nat) :
    (List.replicate n false).zipWith xor (List.replicate n false) = List.replicate n false := by
  simp

theorem length_aesEcb (val : List Bool) (f : Block → Block) :
    (aesEcb val f).length = aesBlockSizeBits := by
  unfold aesEcb
  rw [length_view, Vector.length_toList]
  rfl

/-! ### What a pass adds to a half

The two halves lie in blocks of the cipher, the left one at the beginning and the right one at the end, and
the rest of each block is zero. A pass computes a mask from one half and adds it to the other. -/

namespace Halves

variable {f : Block → Block} {cidLen : UInt8} {leftBits rightBits : Nat} {l r : List Bool}

/-- The halves as they are loaded. -/
def ofParts (leftBits rightBits : Nat) (l r : List Bool) : Halves where
  left := l ++ List.replicate (aesBlockSizeBits - leftBits) false
  right := List.replicate (aesBlockSizeBits - rightBits) false ++ r

/-- What a pass adds to the right half. -/
def rightMask (f : Block → Block) (cidLen : UInt8) (leftBits rightBits : Nat) (index : UInt8)
    (l : List Bool) : List Bool :=
  (aesEcb (expandLeft (ofParts leftBits rightBits l []).left cidLen index) f).drop
    (aesBlockSizeBits - rightBits)

/-- What a pass adds to the left half. -/
def leftMask (f : Block → Block) (cidLen : UInt8) (leftBits rightBits : Nat) (index : UInt8)
    (r : List Bool) : List Bool :=
  (aesEcb (expandRight (ofParts leftBits rightBits [] r).right cidLen index) f).take leftBits

theorem length_rightMask (f : Block → Block) (cidLen : UInt8) (leftBits : Nat)
    (hbits : rightBits ≤ aesBlockSizeBits) (index : UInt8) (l : List Bool) :
    (rightMask f cidLen leftBits rightBits index l).length = rightBits := by
  unfold rightMask
  rw [List.length_drop, length_aesEcb]
  omega

theorem length_leftMask (f : Block → Block) (cidLen : UInt8) (rightBits : Nat)
    (hbits : leftBits ≤ aesBlockSizeBits) (index : UInt8) (r : List Bool) :
    (leftMask f cidLen leftBits rightBits index r).length = leftBits := by
  unfold leftMask
  rw [List.length_take, length_aesEcb]
  omega

theorem mixRight_ofParts (index : UInt8) :
    (ofParts leftBits rightBits l r).mixRight f cidLen rightBits index =
      ofParts leftBits rightBits l
        (r.zipWith xor (rightMask f cidLen leftBits rightBits index l)) := by
  unfold mixRight ofParts truncateRight
  rw [List.zipWith_append (by simp), zipWith_xor_zeros]
  rfl

theorem mixLeft_ofParts (hl : l.length = leftBits) (hbits : leftBits ≤ aesBlockSizeBits)
    (index : UInt8) :
    (ofParts leftBits rightBits l r).mixLeft f cidLen leftBits index =
      ofParts leftBits rightBits
        (l.zipWith xor (leftMask f cidLen leftBits rightBits index r)) r := by
  have hmask := length_leftMask f cidLen rightBits hbits index r
  unfold mixLeft ofParts truncateLeft
  rw [List.zipWith_append (by rw [hl]; exact hmask.symm), zipWith_xor_zeros]
  rfl

/-! ### A pass undoes itself

It leaves the half alone that the mask is made of, so that the second pass has the same mask. -/

/-- A pass undoes itself. -/
theorem mixRight_mixRight (hr : r.length = rightBits) (hbits : rightBits ≤ aesBlockSizeBits)
    (index : UInt8) :
    ((ofParts leftBits rightBits l r).mixRight f cidLen rightBits index).mixRight f cidLen
      rightBits index = ofParts leftBits rightBits l r := by
  have hmask := length_rightMask f cidLen leftBits hbits index l
  rw [mixRight_ofParts, mixRight_ofParts, zipWith_xor_cancel (hr.trans hmask.symm)]

theorem mixLeft_mixLeft (hl : l.length = leftBits) (hbits : leftBits ≤ aesBlockSizeBits)
    (index : UInt8) :
    ((ofParts leftBits rightBits l r).mixLeft f cidLen leftBits index).mixLeft f cidLen
      leftBits index = ofParts leftBits rightBits l r := by
  have hmask := length_leftMask f cidLen rightBits hbits index r
  have hmixed : (l.zipWith xor (leftMask f cidLen leftBits rightBits index r)).length =
      leftBits := by
    rw [List.length_zipWith, hl, hmask, Nat.min_self]
  rw [mixLeft_ofParts hl hbits, mixLeft_ofParts hmixed hbits,
    zipWith_xor_cancel (hl.trans hmask.symm)]

/-- Halves that are in their places. -/
def Placed (leftBits rightBits : Nat) (h : Halves) : Prop :=
  ∃ l r, l.length = leftBits ∧ r.length = rightBits ∧ h = ofParts leftBits rightBits l r

variable {h : Halves}

theorem Placed.mixRight (f : Block → Block) (cidLen : UInt8) (hplaced : h.Placed leftBits rightBits)
    (hbits : rightBits ≤ aesBlockSizeBits) (index : UInt8) :
    (h.mixRight f cidLen rightBits index).Placed leftBits rightBits ∧
      (h.mixRight f cidLen rightBits index).mixRight f cidLen rightBits index = h := by
  obtain ⟨l, r, hl, hr, rfl⟩ := hplaced
  refine ⟨⟨l, _, hl, ?_, mixRight_ofParts index⟩, mixRight_mixRight hr hbits index⟩
  rw [List.length_zipWith, hr, length_rightMask f cidLen leftBits hbits, Nat.min_self]

theorem Placed.mixLeft (f : Block → Block) (cidLen : UInt8) (hplaced : h.Placed leftBits rightBits)
    (hbits : leftBits ≤ aesBlockSizeBits) (index : UInt8) :
    (h.mixLeft f cidLen leftBits index).Placed leftBits rightBits ∧
      (h.mixLeft f cidLen leftBits index).mixLeft f cidLen leftBits index = h := by
  obtain ⟨l, r, hl, hr, rfl⟩ := hplaced
  refine ⟨⟨_, r, ?_, hr, mixLeft_ofParts hl hbits index⟩, mixLeft_mixLeft hl hbits index⟩
  rw [List.length_zipWith, hl, length_leftMask f cidLen rightBits hbits, Nat.min_self]

/-! ### All passes

Encryption and decryption are the same passes in opposite orders. -/

/-- **Decryption takes the passes back**, the last one first. -/
theorem Placed.decrypt_encrypt (f : Block → Block) (cidLen : UInt8)
    (hplaced : h.Placed leftBits rightBits)
    (hleft : leftBits ≤ aesBlockSizeBits) (hright : rightBits ≤ aesBlockSizeBits) :
    (h.encrypt f cidLen leftBits rightBits).Placed leftBits rightBits ∧
      (h.encrypt f cidLen leftBits rightBits).decrypt f cidLen leftBits rightBits = h := by
  obtain ⟨h₁, hback₁⟩ := hplaced.mixRight f cidLen hright 1
  obtain ⟨h₂, hback₂⟩ := h₁.mixLeft f cidLen hleft 2
  obtain ⟨h₃, hback₃⟩ := h₂.mixRight f cidLen hright 3
  obtain ⟨h₄, hback₄⟩ := h₃.mixLeft f cidLen hleft 4
  refine ⟨h₄, ?_⟩
  show ((((h.encrypt f cidLen leftBits rightBits).mixLeft f cidLen leftBits 4).mixRight
    f cidLen rightBits 3).mixLeft f cidLen leftBits 2).mixRight f cidLen rightBits 1 = h
  unfold encrypt
  simp only [List.foldl_cons, List.foldl_nil]
  rw [show (1 : UInt8) + 1 = 2 from rfl, show (3 : UInt8) + 1 = 4 from rfl, hback₄, hback₃, hback₂,
    hback₁]

/-- And the other way round. -/
theorem Placed.encrypt_decrypt (f : Block → Block) (cidLen : UInt8)
    (hplaced : h.Placed leftBits rightBits)
    (hleft : leftBits ≤ aesBlockSizeBits) (hright : rightBits ≤ aesBlockSizeBits) :
    (h.decrypt f cidLen leftBits rightBits).Placed leftBits rightBits ∧
      (h.decrypt f cidLen leftBits rightBits).encrypt f cidLen leftBits rightBits = h := by
  obtain ⟨h₄, hback₄⟩ := hplaced.mixLeft f cidLen hleft 4
  obtain ⟨h₃, hback₃⟩ := h₄.mixRight f cidLen hright 3
  obtain ⟨h₂, hback₂⟩ := h₃.mixLeft f cidLen hleft 2
  obtain ⟨h₁, hback₁⟩ := h₂.mixRight f cidLen hright 1
  refine ⟨h₁, ?_⟩
  show ((((h.decrypt f cidLen leftBits rightBits).mixRight f cidLen rightBits 1).mixLeft
    f cidLen leftBits 2).mixRight f cidLen rightBits 3).mixLeft f cidLen leftBits 4 = h
  unfold decrypt
  simp only [List.foldl_cons, List.foldl_nil]
  rw [show (4 : UInt8) - 1 = 3 from rfl, show (2 : UInt8) - 1 = 1 from rfl, hback₁, hback₂, hback₃,
    hback₄]

/-! ### Loading and storing

The bits are split in the middle, which may be the middle of a byte; together the halves have them all. -/

theorem load_placed {plaintext : List Bool} (h : plaintext.length = leftBits + rightBits) :
    (load plaintext leftBits rightBits).Placed leftBits rightBits :=
  ⟨plaintext.take leftBits, plaintext.drop leftBits, by simp [h], by simp [h], rfl⟩

theorem store_load {plaintext : List Bool} (h : plaintext.length = leftBits + rightBits) :
    (load plaintext leftBits rightBits).store leftBits rightBits = plaintext := by
  unfold store load
  rw [List.take_left' (by simp [h]), List.drop_left' (by simp), List.take_append_drop]

theorem Placed.load_store (hplaced : h.Placed leftBits rightBits) :
    (h.store leftBits rightBits).length = leftBits + rightBits ∧
      load (h.store leftBits rightBits) leftBits rightBits = h := by
  obtain ⟨l, r, hl, hr, rfl⟩ := hplaced
  have hstore : (ofParts leftBits rightBits l r).store leftBits rightBits = l ++ r := by
    unfold store ofParts
    rw [List.take_left' hl, List.drop_left' (by simp)]
  rw [hstore]
  refine ⟨by rw [List.length_append, hl, hr], ?_⟩
  unfold load
  rw [List.take_left' hl, List.drop_left' hl]
  rfl

end Halves

theorem fourPass_eq (rounds : UInt8 → Nat → Nat → Halves → Halves) {bytes : List UInt8}
    (hne : bytes ≠ []) (h : bytes.length ≤ 2 * aesBlockSize) :
    fourPass rounds bytes = some (pack ((rounds (UInt8.ofNat bytes.length + 1) (4 * bytes.length)
      (4 * bytes.length) (.load (view bytes) (4 * bytes.length) (4 * bytes.length))).store
        (4 * bytes.length) (4 * bytes.length))) := by
  have hempty : bytes.isEmpty = false := by simpa using hne
  have hleft : (view bytes).length / 2 = 4 * bytes.length := by
    rw [length_view]
    omega
  have hright : (view bytes).length - 4 * bytes.length = 4 * bytes.length := by
    rw [length_view]
    omega
  have hfits : ¬ aesBlockSizeBits < 4 * bytes.length := by
    unfold aesBlockSizeBits
    omega
  unfold fourPass
  simp only [hempty, Bool.false_eq_true, if_false, hleft, hright, if_neg hfits]

/-- Passes that can be undone on halves can be undone on bytes. -/
theorem fourPass_fourPass (rounds rounds' : UInt8 → Nat → Nat → Halves → Halves)
    (hback : ∀ cidLen leftBits rightBits h, h.Placed leftBits rightBits →
      leftBits ≤ aesBlockSizeBits → rightBits ≤ aesBlockSizeBits →
      (rounds cidLen leftBits rightBits h).Placed leftBits rightBits ∧
        rounds' cidLen leftBits rightBits (rounds cidLen leftBits rightBits h) = h)
    {bytes : List UInt8} (h : bytes.length ≤ 2 * aesBlockSize) :
    ∃ out, fourPass rounds bytes = some out ∧ out.length = bytes.length ∧
      fourPass rounds' out = some bytes := by
  rcases eq_or_ne bytes [] with rfl | hne
  · exact ⟨[], rfl, rfl, rfl⟩
  · have hsum : (view bytes).length = 4 * bytes.length + 4 * bytes.length := by
      rw [length_view]
      omega
    have hfits : 4 * bytes.length ≤ aesBlockSizeBits := by
      unfold aesBlockSizeBits
      omega
    obtain ⟨hplaced, hrounds⟩ := hback (UInt8.ofNat bytes.length + 1) _ _ _
      (Halves.load_placed hsum) hfits hfits
    obtain ⟨hstored, hload⟩ := hplaced.load_store
    have hbytes := hstored.trans (hsum.symm.trans (length_view bytes))
    have hlength := length_pack hbytes
    have hview := view_pack hbytes
    refine ⟨_, fourPass_eq rounds hne h, hlength, ?_⟩
    generalize pack _ = out at hlength hview ⊢
    have hout : out ≠ [] := by
      rintro rfl
      exact hne (List.length_eq_zero_iff.mp hlength.symm)
    rw [fourPass_eq rounds' hout (hlength.trans_le h), hlength, hview, hload, hrounds,
      Halves.store_load hsum, pack_view]

/-- **Four passes can be undone**, for every id that fits. -/
theorem decryptFourPass_encryptFourPass (f : Block → Block) {bytes : List UInt8}
    (h : bytes.length ≤ 2 * aesBlockSize) :
    ∃ encrypted, encryptFourPass f bytes = some encrypted ∧
      encrypted.length = bytes.length ∧ decryptFourPass f encrypted = some bytes :=
  fourPass_fourPass (Halves.encrypt f) (Halves.decrypt f)
    (fun cidLen _ _ _ hplaced => hplaced.decrypt_encrypt f cidLen) h

theorem encryptFourPass_decryptFourPass (f : Block → Block) {bytes : List UInt8}
    (h : bytes.length ≤ 2 * aesBlockSize) :
    ∃ decrypted, decryptFourPass f bytes = some decrypted ∧
      decrypted.length = bytes.length ∧ encryptFourPass f decrypted = some bytes :=
  fourPass_fourPass (Halves.decrypt f) (Halves.encrypt f)
    (fun cidLen _ _ _ hplaced => hplaced.encrypt_decrypt f cidLen) h

/-! ## Whole ids

The first octet stays as it is. What follows it is one block of the cipher, or is encrypted by the passes. -/

namespace ServerConnectionIdGenerator

theorem transform_block (block : Block → Block) (passes : List UInt8 → Option (List UInt8))
    (first : UInt8) (b : Block) :
    transform block passes (first :: b.toList) = some (first :: (block b).toList) := by
  have hlength : b.toList.length + 1 = 17 := congrArg (· + 1) (Vector.length_toList ..)
  refine (if_pos hlength).trans ?_
  rw [blockOf_toList]
  rfl

theorem transform_passes (block : Block → Block) (passes : List UInt8 → Option (List UInt8))
    (first : UInt8) {plaintext : List UInt8} (h : plaintext.length ≠ aesBlockSize) :
    transform block passes (first :: plaintext) = (passes plaintext).map (first :: ·) := by
  unfold transform
  exact if_neg fun hlength => h (Nat.add_right_cancel hlength)

/-- The plaintext is one block, or short enough for the passes. -/
theorem block_or_passes {plaintext : List UInt8} (h : plaintext.length < maxCidLen) :
    (∃ b : Block, plaintext = b.toList) ∨
      plaintext.length ≠ aesBlockSize ∧ plaintext.length ≤ 2 * aesBlockSize := by
  by_cases hsize : plaintext.length = aesBlockSize
  · exact .inl ⟨⟨plaintext.toArray, hsize⟩, rfl⟩
  · have hfits : maxCidLen ≤ 2 * aesBlockSize := by decide
    exact .inr ⟨hsize, h.le.trans hfits⟩

/-- Encryption behind the first octet can be undone. -/
theorem transform_transform (cipher : Aes128) (first : UInt8) {plaintext : List UInt8}
    (h : plaintext.length < maxCidLen) :
    ∃ encrypted,
      transform cipher.encryptBlock (encryptFourPass cipher.encryptBlock) (first :: plaintext) =
        some (first :: encrypted) ∧
      encrypted.length = plaintext.length ∧
      transform cipher.decryptBlock (decryptFourPass cipher.encryptBlock) (first :: encrypted) =
        some (first :: plaintext) := by
  rcases block_or_passes h with ⟨b, rfl⟩ | ⟨hsize, hfits⟩
  · refine ⟨_, transform_block _ _ first b, ?_, ?_⟩
    · rw [Vector.length_toList, Vector.length_toList]
    · rw [transform_block, cipher.decrypt_encrypt]
  · obtain ⟨encrypted, hencrypt, hlength, hdecrypt⟩ :=
      decryptFourPass_encryptFourPass cipher.encryptBlock hfits
    refine ⟨encrypted, ?_, hlength, ?_⟩
    · rw [transform_passes _ _ first hsize, hencrypt]
      rfl
    · rw [transform_passes _ _ first (hlength ▸ hsize), hdecrypt]
      rfl

/-- **An id comes back from its encryption**, and its first octet stays where it is. -/
theorem decrypt_encrypt (g : ServerConnectionIdGenerator) {cid : ConnectionId}
    (hne : cid.bytes ≠ []) :
    ∃ encrypted, g.encrypt cid = some encrypted ∧
      encrypted.bytes.head? = cid.bytes.head? ∧ encrypted.bytes.length = cid.bytes.length ∧
      g.decrypt encrypted = some cid := by
  obtain ⟨bytes, hle⟩ := cid
  cases bytes with
  | nil => exact absurd rfl hne
  | cons first plaintext =>
    obtain ⟨encrypted, hencrypt, hlength, hdecrypt⟩ := transform_transform g.cipher first hle
    have hle' : (first :: encrypted).length ≤ maxCidLen := by
      rw [List.length_cons, hlength]
      exact hle
    have hcid : ConnectionId.tryFromSlice (first :: encrypted) = some ⟨_, hle'⟩ := dif_pos hle'
    have hplain : ConnectionId.tryFromSlice (first :: plaintext) = some ⟨_, hle⟩ := dif_pos hle
    refine ⟨⟨_, hle'⟩, ?_, rfl, congrArg (· + 1) hlength, ?_⟩
    · unfold encrypt
      simp only [hencrypt, hcid, Option.bind_eq_bind, Option.bind_some]
    · unfold decrypt
      simp only [hdecrypt, hplain, Option.bind_eq_bind, Option.bind_some]

/-- Whatever stands for the block cipher, the four passes are undone in both orders, and no slice is out
of bounds. So an id comes back from its encryption. -/
theorem four_passes_undone :
    (∀ (f : Block → Block) (p : List UInt8), p.length ≤ 19 →
      (encryptFourPass f p).bind (decryptFourPass f) = some p ∧
      (decryptFourPass f p).bind (encryptFourPass f) = some p) ∧
    ∀ (g : ServerConnectionIdGenerator) (cid : ConnectionId), cid.bytes ≠ [] →
      ∃ encrypted, g.encrypt cid = some encrypted ∧
        encrypted.bytes.head? = cid.bytes.head? ∧ g.decrypt encrypted = some cid := by
  refine ⟨fun f p hp => ?_, fun g cid hne => ?_⟩
  · have hfits : p.length ≤ 2 * aesBlockSize := hp.trans (by decide)
    obtain ⟨encrypted, hencrypt, -, hdecrypt⟩ := decryptFourPass_encryptFourPass f hfits
    obtain ⟨decrypted, hdecrypt', -, hencrypt'⟩ := encryptFourPass_decryptFourPass f hfits
    rw [hencrypt, hdecrypt']
    exact ⟨hdecrypt, hencrypt'⟩
  · obtain ⟨encrypted, hencrypt, hhead, -, hdecrypt⟩ := g.decrypt_encrypt hne
    exact ⟨encrypted, hencrypt, hhead, hdecrypt⟩

/-- A cipher that has no inverse: all blocks become one. The passes over three bytes come back. -/
theorem four_passes_undone_const :
    (encryptFourPass (fun _ => Vector.replicate 16 7) [1, 2, 3]).bind
      (decryptFourPass fun _ => Vector.replicate 16 7) = some [1, 2, 3] :=
  (four_passes_undone.1 (fun _ => Vector.replicate 16 7) [1, 2, 3] (by decide)).1

/-! ## Ids of other generators

A peer may send any bytes as an id. -/

/-- Decrypting anything but the empty id does not panic. -/
theorem decrypt_isSome_iff (g : ServerConnectionIdGenerator) (cid : ConnectionId) :
    (g.decrypt cid).isSome ↔ cid.bytes ≠ [] := by
  have hle := cid.len_le
  unfold decrypt
  cases hbytes : cid.bytes with
  | nil => simp [transform]
  | cons first plaintext =>
    rw [hbytes, List.length_cons] at hle
    have htotal : ∃ decrypted,
        transform g.cipher.decryptBlock (decryptFourPass g.cipher.encryptBlock)
          (first :: plaintext) = some (first :: decrypted) ∧ decrypted.length = plaintext.length := by
      rcases block_or_passes hle with ⟨b, rfl⟩ | ⟨hsize, hfits⟩
      · refine ⟨_, transform_block _ _ first b, ?_⟩
        rw [Vector.length_toList, Vector.length_toList]
      · obtain ⟨decrypted, hdecrypt, hlength, -⟩ :=
          encryptFourPass_decryptFourPass g.cipher.encryptBlock hfits
        refine ⟨decrypted, ?_, hlength⟩
        rw [transform_passes _ _ first hsize, hdecrypt]
        rfl
    obtain ⟨decrypted, hdecrypt, hlength⟩ := htotal
    have hslice : (first :: decrypted).length ≤ maxCidLen := by
      rw [List.length_cons, hlength]
      exact hle
    have hsome : ConnectionId.tryFromSlice (first :: decrypted) = some ⟨_, hslice⟩ := dif_pos hslice
    simp [hdecrypt, hsome]

/-! ## What `build_cid` builds

The low bits of the server, those of the core, and random bits, cut after the byte that the last of them is
in. The maximum length of an id limits the random bits. -/

/-- How many random bits are written. -/
def writtenEntropy (g : ServerConnectionIdGenerator) : Nat :=
  min (maxCidLen * 8 - (8 + g.serverIdBits + g.coreIdBits)) g.entropyBits

/-- The bytes of a plain id. -/
def bodyLength (g : ServerConnectionIdGenerator) : Nat :=
  (g.serverIdBits + g.coreIdBits + g.writtenEntropy + 7) / 8

theorem writtenEntropy_ge (g : ServerConnectionIdGenerator) : 32 ≤ g.writtenEntropy := by
  have hs := g.serverIdBits_le
  have hc := g.coreIdBits_le
  have he := g.entropyBits_ge
  unfold writtenEntropy maxCidLen
  omega

theorem length_randomBits (rng : Rng) (bitsLen : Nat) :
    (randomBits rng bitsLen).2.length = bitsLen := by
  unfold randomBits
  simp only [List.length_take, length_view, Rng.fillBytes_length]
  omega

theorem room_le (g : ServerConnectionIdGenerator) :
    g.serverIdBits + g.coreIdBits + g.writtenEntropy ≤ 152 := by
  have hs := g.serverIdBits_le
  have hc := g.coreIdBits_le
  unfold writtenEntropy maxCidLen
  omega

/-- Everything behind the first octet, before it is cut. -/
def tailBits (g : ServerConnectionIdGenerator) (rng : Rng) : List Bool :=
  storeBe g.serverIdBits g.serverId.toNat ++ (storeBe g.coreIdBits g.coreId.toNat ++
    ((randomBits rng g.writtenEntropy).2 ++
      List.replicate (152 - g.serverIdBits - g.coreIdBits - g.writtenEntropy) false))

theorem length_tailBits (g : ServerConnectionIdGenerator) (rng : Rng) :
    (g.tailBits rng).length = 8 * 19 := by
  have hroom := g.room_le
  simp only [tailBits, List.length_append, List.length_replicate, length_storeBe, length_randomBits]
  omega

theorem bodyLength_le (g : ServerConnectionIdGenerator) : g.bodyLength ≤ 19 := by
  have hroom := g.room_le
  unfold bodyLength
  omega

theorem length_body (g : ServerConnectionIdGenerator) (rng : Rng) :
    ((pack (g.tailBits rng)).take g.bodyLength).length = g.bodyLength := by
  rw [List.length_take, length_pack (g.length_tailBits rng)]
  exact Nat.min_eq_left g.bodyLength_le

theorem length_cid_le (g : ServerConnectionIdGenerator) (rng : Rng) :
    (g.firstOctet :: (pack (g.tailBits rng)).take g.bodyLength).length ≤ maxCidLen := by
  rw [List.length_cons, g.length_body rng]
  exact Nat.succ_le_succ g.bodyLength_le

/-- **What `build_cid` builds.** None of its assertions fails. -/
theorem buildCid_eq (g : ServerConnectionIdGenerator) (rng : Rng) :
    g.buildCid rng = some ((randomBits rng g.writtenEntropy).1,
      ⟨g.firstOctet :: (pack (g.tailBits rng)).take g.bodyLength, g.length_cid_le rng⟩) := by
  have hroom := g.room_le
  have hentropy : ¬ min (maxCidLen * 8 - (8 + g.serverIdBits + g.coreIdBits)) g.entropyBits < 32 :=
    Nat.not_lt.mpr g.writtenEntropy_ge
  let octet := storeBe 8 g.firstOctet.toNat
  let server := storeBe g.serverIdBits g.serverId.toNat
  let core := storeBe g.coreIdBits g.coreId.toNat
  let entropy := (randomBits rng g.writtenEntropy).2
  have hoctet : octet.length = 8 := length_storeBe ..
  have hserver : server.length = g.serverIdBits := length_storeBe ..
  have hcore : core.length = g.coreIdBits := length_storeBe ..
  have hlength : entropy.length = g.writtenEntropy := length_randomBits ..
  have hview : view (g.firstOctet :: List.replicate (maxCidLen - 1) 0) =
      octet ++ List.replicate 152 false := by
    rw [view_cons, view_zeros]
    rfl
  -- the three slices are written one after the other
  have hwrite₁ := overwrite_zeros octet server 152 (by omega)
  rw [hoctet, hserver] at hwrite₁
  have hwrite₂ : g.writeCoreId
        (octet ++ server ++ List.replicate (152 - g.serverIdBits) false) (8 + g.serverIdBits) =
      some (octet ++ server ++ core ++
        List.replicate (152 - g.serverIdBits - g.coreIdBits) false) := by
    unfold writeCoreId
    split
    · have hwrite := overwrite_zeros (octet ++ server) core (152 - g.serverIdBits) (by omega)
      rwa [List.length_append, hoctet, hserver, hcore] at hwrite
    · next hzero =>
      have hzero : g.coreIdBits = 0 := not_not.mp hzero
      have hnil : core = [] := List.length_eq_zero_iff.mp (hcore.trans hzero)
      rw [hnil, hzero, List.append_nil, Nat.sub_zero]
  have hwrite₃ := overwrite_zeros (octet ++ server ++ core) entropy
    (152 - g.serverIdBits - g.coreIdBits) (by omega)
  rw [List.length_append, List.length_append, hoctet, hserver, hcore, hlength] at hwrite₃
  -- and the result is cut at a byte
  have hpack : pack (octet ++ server ++ core ++ entropy ++
      List.replicate (152 - g.serverIdBits - g.coreIdBits - g.writtenEntropy) false) =
      g.firstOctet :: pack (g.tailBits rng) := by
    rw [← pack_byte, tailBits]
    simp only [List.append_assoc, octet, server, core, entropy]
  have hcut : (8 + g.serverIdBits + g.coreIdBits + g.writtenEntropy + 7) / 8 =
      g.bodyLength + 1 := by
    unfold bodyLength
    omega
  have hslice := g.length_cid_le rng
  have hcid : ConnectionId.tryFromSlice ((g.firstOctet :: pack (g.tailBits rng)).take
      (g.bodyLength + 1)) = some ⟨_, hslice⟩ := dif_pos hslice
  unfold buildCid
  simp only [octet, server, core, entropy] at hview hwrite₁ hwrite₂ hwrite₃ hpack
  unfold writtenEntropy at hwrite₃ hpack hcut
  simp only [hview, hwrite₁, hwrite₂, hwrite₃, hpack, hcut, hcid, if_neg hentropy,
    Option.bind_eq_bind, Option.bind_some]
  rfl

/-! ## What `parse` finds

Parsing reads the same bits again. -/

/-- Behind the first octet, an id starts with the low bits of the server and of the core. -/
theorem view_body (g : ServerConnectionIdGenerator) (rng : Rng) :
    ∃ rest, view ((pack (g.tailBits rng)).take g.bodyLength) =
      storeBe g.serverIdBits g.serverId.toNat ++
        (storeBe g.coreIdBits g.coreId.toNat ++ rest) := by
  have hroom : g.serverIdBits + g.coreIdBits ≤ 8 * g.bodyLength := by
    unfold bodyLength
    omega
  rw [view_take, view_pack (g.length_tailBits rng), tailBits, List.take_append, List.take_append,
    length_storeBe, length_storeBe, List.take_of_length_le (by simp; omega),
    List.take_of_length_le (by simp; omega)]
  exact ⟨_, rfl⟩

/-- The metadata of generated ids: what is left of the server and of the core in their bits. -/
def ownMeta (g : ServerConnectionIdGenerator) : ServerIdMeta where
  serverId := g.serverId.toNat % 2 ^ g.serverIdBits
  coreId := if 0 < g.coreIdBits then some (g.coreId.toNat % 2 ^ g.coreIdBits) else none

theorem parse_of_view (g : ServerConnectionIdGenerator) {cid : ConnectionId} {first : UInt8}
    {body : List UInt8} {rest : List Bool} (hbytes : cid.bytes = first :: body)
    (hview : view body = storeBe g.serverIdBits g.serverId.toNat ++
      (storeBe g.coreIdBits g.coreId.toNat ++ rest)) : g.parse cid = .ok g.ownMeta := by
  have hlength : ¬ (view body).length < g.serverIdBits + g.coreIdBits := by
    rw [hview]
    simp only [List.length_append, length_storeBe]
    omega
  unfold parse ownMeta
  simp only [hbytes]
  rw [if_neg hlength, hview, List.take_left' (length_storeBe ..), List.drop_left' (length_storeBe ..),
    List.take_left' (length_storeBe ..), loadBe_storeBe, loadBe_storeBe]

/-! ## What `generate` generates

Built, encrypted, and then decrypted and parsed, with nothing lost on the way. -/

/-- **What `generate` generates**: an id that decrypts to one with the generator's own metadata. -/
theorem generate_spec (g : ServerConnectionIdGenerator) (rng : Rng) :
    ∃ rng' cid plain, g.generate rng = some (rng', cid) ∧
      cid.bytes.length = g.bodyLength + 1 ∧ g.decrypt cid = some plain ∧
      plain.bytes.length = g.bodyLength + 1 ∧ g.parse plain = .ok g.ownMeta := by
  obtain ⟨rest, hview⟩ := g.view_body rng
  have hbuild := g.buildCid_eq rng
  have hbody := g.length_body rng
  generalize hplain : (⟨_, g.length_cid_le rng⟩ : ConnectionId) = plain at hbuild
  have hbytes : plain.bytes = g.firstOctet :: (pack (g.tailBits rng)).take g.bodyLength := by
    rw [← hplain]
  have hlength : plain.bytes.length = g.bodyLength + 1 := by
    rw [hbytes, List.length_cons, hbody]
  have hne : plain.bytes ≠ [] := by
    rw [hbytes]
    exact List.cons_ne_nil _ _
  obtain ⟨cid, hencrypt, -, hcid, hdecrypt⟩ := g.decrypt_encrypt hne
  refine ⟨(randomBits rng g.writtenEntropy).1, cid, plain, ?_, hcid.trans hlength, hdecrypt, hlength,
    g.parse_of_view hbytes hview⟩
  rw [generate_eq, hbuild, Option.bind_some, hencrypt, Option.map_some]

/-- What `new` accepts, it takes over. -/
theorem new_eq_some {cipher : Aes128} {firstOctet : UInt8} {serverId : UInt32} {coreId : UInt16}
    {serverIdBits coreIdBits : Nat} {entropyBits : Fin (2 ^ usizeBits)}
    {g : ServerConnectionIdGenerator}
    (h : new cipher firstOctet serverId coreId serverIdBits coreIdBits entropyBits = some g) :
    g.cipher = cipher ∧ g.serverId = serverId ∧ g.serverIdBits = serverIdBits ∧
      g.coreId = coreId ∧ g.coreIdBits = coreIdBits ∧ g.entropyBits = entropyBits.val := by
  unfold new at h
  split at h
  · cases h
    exact ⟨rfl, rfl, rfl, rfl, rfl, rfl⟩
  · cases h

/-- **The metadata of a generator comes back from the ids that it generates**, and enough random bits are
always written. -/
theorem generated_metadata (cipher : Aes128) (firstOctet : UInt8) (serverId : UInt32)
    (coreId : UInt16) (serverIdBits coreIdBits : Nat) (entropyBits : Fin (2 ^ usizeBits))
    (g : ServerConnectionIdGenerator)
    (hnew : new cipher firstOctet serverId coreId serverIdBits coreIdBits entropyBits = some g)
    (rng : Rng) :
    32 ≤ min (maxCidLen * 8 - (8 + g.serverIdBits + g.coreIdBits)) g.entropyBits ∧
    ∃ rng' cid plain, g.generate rng = some (rng', cid) ∧ g.decrypt cid = some plain ∧
      g.parse plain = .ok
        { serverId := serverId.toNat % 2 ^ serverIdBits
          coreId :=
            if 0 < coreIdBits then some (coreId.toNat % 2 ^ coreIdBits) else none } := by
  obtain ⟨-, rfl, rfl, rfl, rfl, -⟩ := new_eq_some hnew
  obtain ⟨rng', cid, plain, hgenerate, -, hdecrypt, -, hparse⟩ := g.generate_spec rng
  exact ⟨g.writtenEntropy_ge, rng', cid, plain, hgenerate, hdecrypt, hparse⟩

/-- A server whose number does not fit into its bits: `300` is read back as `300 % 256`. -/
theorem generated_metadata_truncated :
    ∃ g rng' cid plain, new ⟨id, id, fun _ => rfl⟩ 0 300 5 8 3 32 = some g ∧
      g.generate ⟨id, 0⟩ = some (rng', cid) ∧ g.decrypt cid = some plain ∧
      g.parse plain = .ok { serverId := 44, coreId := some 5 } := by
  obtain ⟨g, hnew⟩ : ∃ g, new ⟨id, id, fun _ => rfl⟩ 0 300 5 8 3 32 = some g :=
    ⟨_, dif_pos ⟨⟨by decide, by decide⟩, by decide, by decide⟩⟩
  obtain ⟨-, rng', cid, plain, hgenerate, hdecrypt, hparse⟩ :=
    generated_metadata ⟨id, id, fun _ => rfl⟩ 0 300 5 8 3 32 g hnew ⟨id, 0⟩
  exact ⟨g, rng', cid, plain, hnew, hgenerate, hdecrypt, hparse⟩

/-! ## Validation

`validate` compares the numbers in an id with those of the generator, all their bits included, and the length
with `cid_len`. -/

/-- The numbers in an id fit into their bits, whatever the id is. -/
theorem parse_lt (g : ServerConnectionIdGenerator) {cid : ConnectionId} {found : ServerIdMeta}
    (h : g.parse cid = .ok found) :
    found.serverId < 2 ^ g.serverIdBits ∧ ∀ coreId ∈ found.coreId, coreId < 2 ^ g.coreIdBits := by
  have hlt (bits : List Bool) (width : Nat) : loadBe (bits.take width) < 2 ^ width :=
    (loadBe_lt _).trans_le (Nat.pow_le_pow_right (by decide) (List.length_take_le ..))
  unfold parse at h
  split at h
  · cases h
  · simp only at h
    split at h
    · cases h
    · cases h
      refine ⟨hlt .., fun coreId hcore => ?_⟩
      simp only [Option.mem_def] at hcore
      split at hcore
      · cases hcore
        exact hlt ..
      · cases hcore

/-- The server and the core fit into their bits. -/
def IdsFit (g : ServerConnectionIdGenerator) : Prop :=
  g.serverId.toNat < 2 ^ g.serverIdBits ∧
    (g.coreIdBits = 0 ∨ g.coreId.toNat < 2 ^ g.coreIdBits)

instance (g : ServerConnectionIdGenerator) : Decidable g.IdsFit :=
  inferInstanceAs (Decidable (_ ∧ _))

/-- An id can be valid only if the generator's own numbers fit. -/
theorem idsFit_of_validate (g : ServerConnectionIdGenerator) {cid : ConnectionId}
    (h : g.validate cid = true) : g.IdsFit := by
  unfold validate at h
  split at h
  · cases h
  · split at h
    · next found hparse =>
      obtain ⟨hserver, hcore⟩ := of_decide_eq_true h
      obtain ⟨hserverLt, hcoreLt⟩ := g.parse_lt hparse
      refine ⟨hserver ▸ hserverLt, hcore.imp_right fun hcore => hcoreLt _ hcore⟩
    · cases h

/-- The decrypted form of a generated id is valid exactly if its length and its numbers are right. -/
theorem validate_own_iff (g : ServerConnectionIdGenerator) {plain : ConnectionId}
    (hparse : g.parse plain = .ok g.ownMeta) :
    g.validate plain = true ↔ g.cidLen = plain.bytes.length ∧ g.IdsFit := by
  refine ⟨fun h => ⟨?_, g.idsFit_of_validate h⟩, ?_⟩
  · unfold validate at h
    split at h
    · cases h
    · next hlength => exact not_not.mp hlength
  · rintro ⟨hlength, hserver, hcore⟩
    unfold validate
    rw [if_neg (not_not.mpr hlength), hparse]
    refine decide_eq_true ⟨Nat.mod_eq_of_lt hserver, ?_⟩
    rcases hcore with hzero | hcore
    · exact .inl hzero
    · rcases Nat.eq_zero_or_pos g.coreIdBits with hzero | hpos
      · exact .inl hzero
      · refine .inr ?_
        show (if 0 < g.coreIdBits then some _ else none) = _
        rw [if_pos hpos, Nat.mod_eq_of_lt hcore]

/-- **The two lengths agree only at the maximum**: `cid_len` leaves the first octet out. -/
theorem length_eq_iff (g : ServerConnectionIdGenerator) :
    g.bodyLength + 1 = g.cidLen ↔
      153 ≤ g.serverIdBits + g.coreIdBits + g.entropyBits ∧
        g.serverIdBits + g.coreIdBits + g.entropyBits < 2 ^ usizeBits := by
  have hs := g.serverIdBits_le
  have hc := g.coreIdBits_le
  have he := g.entropyBits_lt
  unfold bodyLength writtenEntropy cidLen wrappingAdd maxCidLen
  unfold usizeBits at he ⊢
  simp only [Nat.reducePow] at he ⊢
  omega

end ServerConnectionIdGenerator

end Aquic.Cid

import Aquic.Backend.Cid.RoundTrip

/-!
# The generator of connection ids for quinn

`backend/quinn/cid.rs`: the adapter by which quinn uses a generator of this repository. It accepts an id
that is valid as it is, or after decryption.

Generated ids ought to be accepted, and no id ought to make the adapter panic. Both fail: the length that
the generator announces leaves the first octet out, numbers that are wider than their bits are cut when
they are written and compared in full, and the empty id has no first octet to skip.
-/

namespace Aquic.Backend.Quinn

open Aquic.Bits Aquic.Bytes Aquic.Cid Aquic.Word

/-- `quinn_proto::InvalidCid`. -/
inductive InvalidCid where
  | invalidCid
  deriving DecidableEq, Repr

/-- `ConnectionIdGeneratorAdapter::validate` with a generator for servers; `none` is a panic. -/
def adapterValidate (g : ServerConnectionIdGenerator) (cid : List UInt8) :
    Option (Except InvalidCid Unit) :=
  match ConnectionId.tryFromSlice cid with
  | none => some (.error .invalidCid)
  | some cid =>
    if g.validate cid then
      some (.ok ())
    else
      (g.decrypt cid).map fun cid => if g.validate cid then .ok () else .error .invalidCid

variable (g : ServerConnectionIdGenerator)

theorem tryFromSlice_bytes (cid : ConnectionId) : ConnectionId.tryFromSlice cid.bytes = some cid :=
  dif_pos cid.len_le

/-- **Only the empty id makes the adapter panic.** -/
theorem adapterValidate_isSome_iff (cid : ConnectionId) :
    (adapterValidate g cid.bytes).isSome ↔ cid.bytes ≠ [] := by
  unfold adapterValidate
  rw [tryFromSlice_bytes]
  simp only
  split
  · next hvalid =>
    refine ⟨fun _ hempty => ?_, fun _ => rfl⟩
    -- nothing is valid without a first octet
    have hparse : g.parse cid = .error { original := cid, detail := "CID is empty" } := by
      unfold ServerConnectionIdGenerator.parse
      rw [hempty]
    unfold ServerConnectionIdGenerator.validate at hvalid
    rw [hparse] at hvalid
    simp at hvalid
  · rw [Option.isSome_map, g.decrypt_isSome_iff]

/-- A generated id is accepted exactly if its length is the announced one and its numbers fit. -/
theorem adapterValidate_generated_iff {cid plain : ConnectionId} (hdecrypt : g.decrypt cid = some plain)
    (hlength : plain.bytes.length = cid.bytes.length) (hparse : g.parse plain = .ok g.ownMeta) :
    adapterValidate g cid.bytes = some (.ok ()) ↔ g.cidLen = cid.bytes.length ∧ g.IdsFit := by
  have hplain := g.validate_own_iff hparse
  rw [hlength] at hplain
  unfold adapterValidate
  rw [tryFromSlice_bytes]
  simp only [hdecrypt, Option.map_some]
  split
  · next hvalid =>
    refine ⟨fun _ => ⟨?_, g.idsFit_of_validate hvalid⟩, fun _ => rfl⟩
    unfold ServerConnectionIdGenerator.validate at hvalid
    split at hvalid
    · cases hvalid
    · next hlen => exact not_not.mp hlen
  · rw [← hplain]
    split
    · next hvalid => simp [hvalid]
    · next hvalid => simp [hvalid]

/-- The generator accepts its own id: it has the announced length, and the adapter finds it valid. -/
def AcceptsOwn (rng : Rng) : Prop :=
  ∃ rng' cid, g.generate rng = some (rng', cid) ∧ cid.bytes.length = g.cidLen ∧
    adapterValidate g cid.bytes = some (.ok ())

/-- **A generator accepts its own ids exactly if they are of the maximum length**, and the server and
the core fit into their bits; and the adapter survives every foreign id but the empty one. -/
theorem adapter_sound_iff (rng : Rng) (foreign : ConnectionId) :
    AcceptsOwn g rng ∧ (adapterValidate g foreign.bytes).isSome ↔
      153 ≤ g.serverIdBits + g.coreIdBits + g.entropyBits ∧
        g.serverIdBits + g.coreIdBits + g.entropyBits < 2 ^ usizeBits ∧
        g.serverId.toNat < 2 ^ g.serverIdBits ∧
        (g.coreIdBits = 0 ∨ g.coreId.toNat < 2 ^ g.coreIdBits) ∧
        foreign.bytes ≠ [] := by
  obtain ⟨rng', cid, plain, hgenerate, hlength, hdecrypt, hlength', hparse⟩ := g.generate_spec rng
  have hvalid := adapterValidate_generated_iff g hdecrypt (hlength'.trans hlength.symm) hparse
  have hown : AcceptsOwn g rng ↔ g.bodyLength + 1 = g.cidLen ∧ g.IdsFit := by
    constructor
    · rintro ⟨rng'', cid', hgenerate', hlen, haccepted⟩
      obtain ⟨-, rfl⟩ := Prod.mk.inj (Option.some.inj (hgenerate.symm.trans hgenerate'))
      exact ⟨hlength.symm.trans hlen, (hvalid.mp haccepted).2⟩
    · rintro ⟨hlen, hfit⟩
      have hannounced := hlength.trans hlen
      exact ⟨rng', cid, hgenerate, hannounced, hvalid.mpr ⟨hannounced.symm, hfit⟩⟩
  rw [hown, g.length_eq_iff, adapterValidate_isSome_iff]
  unfold ServerConnectionIdGenerator.IdsFit
  simp only [and_assoc]

/-- A generator with the narrowest bits, under any key. -/
def narrowGenerator (cipher : Aes128) : ServerConnectionIdGenerator where
  firstOctet := 0
  serverId := 1
  serverIdBits := 8
  coreId := 0
  coreIdBits := 0
  entropyBits := 32
  cipher := cipher
  serverIdBits_ge := by decide
  serverIdBits_le := by decide
  coreIdBits_le := by decide
  entropyBits_ge := by decide
  entropyBits_lt := by decide

/-- **Ids of six bytes are announced with five, and refused**, under every key and for all randomness;
and the empty id makes the adapter panic. -/
theorem narrow_id_refused :
    ∃ firstOctet serverId coreId serverIdBits coreIdBits entropyBits, ∀ (cipher : Aes128) (rng : Rng),
      ∃ g rng' cid,
        ServerConnectionIdGenerator.new cipher firstOctet serverId coreId serverIdBits coreIdBits
          entropyBits = some g ∧
        g.generate rng = some (rng', cid) ∧ cid.bytes.length = 6 ∧ g.cidLen = 5 ∧
        adapterValidate g cid.bytes = some (.error .invalidCid) ∧ adapterValidate g [] = none := by
  refine ⟨0, 1, 0, 8, 0, 32, fun cipher rng => ?_⟩
  obtain ⟨rng', cid, plain, hgenerate, hlength, hdecrypt, hlength', hparse⟩ :=
    (narrowGenerator cipher).generate_spec rng
  have hbody : (narrowGenerator cipher).bodyLength = 5 := by
    simp [ServerConnectionIdGenerator.bodyLength, ServerConnectionIdGenerator.writtenEntropy,
      narrowGenerator, maxCidLen]
  have hsix : cid.bytes.length = 6 := by rw [hlength, hbody]
  have hpanic : adapterValidate (narrowGenerator cipher) [] = none := by
    have hempty := adapterValidate_isSome_iff (narrowGenerator cipher) ⟨[], Nat.zero_le _⟩
    simpa using hempty
  have hfive : (narrowGenerator cipher).cidLen = 5 := by
    simp [ServerConnectionIdGenerator.cidLen, narrowGenerator, wrappingAdd, usizeBits, maxCidLen]
  refine ⟨narrowGenerator cipher, rng', cid, rfl, hgenerate, hsix, hfive, ?_, hpanic⟩
  have hrefused : adapterValidate (narrowGenerator cipher) cid.bytes ≠ some (.ok ()) := by
    rw [Ne, adapterValidate_generated_iff _ hdecrypt (hlength'.trans hlength.symm) hparse, hfive, hsix]
    simp
  have hne : cid.bytes ≠ [] := by
    intro hempty
    rw [hempty] at hsix
    cases hsix
  obtain ⟨result, hresult⟩ := Option.isSome_iff_exists.mp
    ((adapterValidate_isSome_iff _ cid).mpr hne)
  rw [hresult] at hrefused ⊢
  cases result with
  | ok _ => exact absurd rfl hrefused
  | error e =>
    cases e
    rfl

end Aquic.Backend.Quinn

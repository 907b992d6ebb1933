import Usdd.ProofCore.CodecLaws
/-!
# Canonical codecs

For each of the twenty protocol records, decoding an encoding returns the record, every byte
string that decodes is the encoding of what it decodes to, and so the identifiers that hash an
encoding bind the record they identify.
-/
namespace Usdd.Verif

open Usdd.Foundation Usdd.Core Usdd.ProofCore

section Laws

variable {α : Type} [CanonicalEncode α] [CanonicalDecode α]

/-- The laws of a canonical codec, for the records that satisfy a condition. -/
structure CanonicalCodec (valid : α → Prop) : Prop where
  roundTrip : ∀ value, valid value → decodeExact α (encode value) = .ok value
  canonical : ∀ bytes value, decodeExact α bytes = .ok value → encode value = bytes
  decodedValid : ∀ bytes value, decodeExact α bytes = .ok value → valid value
  oneEncoding : ∀ left right value, decodeExact α left = .ok value →
    decodeExact α right = .ok value → left = right
  injective : ∀ left right, valid left → valid right → encode left = encode right → left = right

theorem canonicalCodec [CanonicalRecord α] : CanonicalCodec (DecodeValid : α → Prop) where
  roundTrip _ valid := decodeExact_eq_ok.mpr ⟨valid, rfl⟩
  canonical _ _ decoded := (decodeExact_eq_ok.mp decoded).2.symm
  decodedValid _ _ decoded := (decodeExact_eq_ok.mp decoded).1
  oneEncoding _ _ _ decoded decoded' :=
    (decodeExact_eq_ok.mp decoded).2.trans (decodeExact_eq_ok.mp decoded').2.symm
  injective _ _ leftValid rightValid same :=
    encode_injOn leftValid rightValid same

end Laws

variable [Hashing]

/-- Two different byte strings with one digest. -/
def Collide (left right : List UInt8) : Prop :=
  left ≠ right ∧ Hashing.sha256 left = Hashing.sha256 right

/-- Equal domain hashes of different payloads are a collision of their preimages. -/
theorem domainHash_binds {domain : Domain} {left right : List UInt8}
    (same : domainHash domain left = domainHash domain right) :
    left = right ∨ Collide (domainPreimage domain left) (domainPreimage domain right) := by
  by_cases equal : left = right
  · exact Or.inl equal
  · refine Or.inr ⟨fun preimages => equal ?_, same⟩
    simp only [domainPreimage, List.flatten_cons, List.flatten_nil, List.append_nil,
      List.append_cancel_left_eq] at preimages
    have lengths : (beBytes 4 left.length).length = (beBytes 4 right.length).length := by
      rw [beBytes_length, beBytes_length]
    exact (List.append_inj preimages lengths).2

/-- An identifier binds the records it is the identifier of: two valid records with one
identifier are the same, or their hash preimages collide. -/
def Binds {α : Type} [CanonicalEncode α] (valid : α → Prop) (domain : Domain) : Prop :=
  ∀ left right, valid left → valid right →
    domainHash domain (encode left) = domainHash domain (encode right) →
    left = right ∨
      Collide (domainPreimage domain (encode left)) (domainPreimage domain (encode right))

/-- A canonical codec makes domain hashes binding. -/
theorem CanonicalCodec.binds {α : Type} [CanonicalEncode α] [CanonicalDecode α]
    {valid : α → Prop} (codec : CanonicalCodec valid) (domain : Domain) :
    Binds valid domain := by
  intro left right leftValid rightValid same
  rcases domainHash_binds same with equal | collision
  · exact Or.inl (codec.injective left right leftValid rightValid equal)
  · exact Or.inr collision

/-- The codecs of all records of the protocol are canonical, for the conditions that their
decoders check, and the identifiers of claims and manifests bind their contents. -/
structure CodecsCanonical : Prop where
  vaultDeposit : CanonicalCodec fun deposit : VaultDeposit => deposit.validate = .ok ()
  ethereumFinalityWitness :
    CanonicalCodec fun witness : EthereumFinalityWitness => witness.validate = .ok ()
  mintOutput : CanonicalCodec fun output : MintOutput => output.validate = .ok ()
  mintBatch : CanonicalCodec fun batch : MintBatch => batch.validate = .ok ()
  burn : CanonicalCodec fun burn : Burn => burn.validate = .ok ()
  burnPayload : CanonicalCodec fun payload : BurnPayload => payload.validate = .ok ()
  solidityBurnClaim : CanonicalCodec fun claim : SolidityBurnClaim => claim.validate = .ok ()
  elementsEvent : CanonicalCodec fun event : ElementsEvent => event.validate = .ok ()
  solidityElementsBridgeState :
    CanonicalCodec fun state : SolidityElementsBridgeState => state.validate = .ok ()
  mintControllerState : CanonicalCodec fun state : MintControllerState => state.validate = .ok ()
  protocolManifest : CanonicalCodec fun manifest : ProtocolManifest => manifest.validate = .ok ()
  merkleProof : CanonicalCodec fun proof : MerkleProof => proof.siblings.length ≤ 64
  burnProof : CanonicalCodec fun _ : BurnProof => True
  ethereumDepositClaim :
    CanonicalCodec fun claim : EthereumDepositClaim => claim.validate = .ok ()
  ethereumHeartbeatClaim :
    CanonicalCodec fun claim : EthereumHeartbeatClaim => claim.validate = .ok ()
  burnAppend : CanonicalCodec fun append : BurnAppend => append.burn.validate = .ok ()
  elementsStateTransitionClaim :
    CanonicalCodec ElementsStateTransitionClaim.DecodeChecks
  depositPublicOutput :
    CanonicalCodec fun output : DepositPublicOutput => output.validate = .ok ()
  heartbeatPublicOutput :
    CanonicalCodec fun output : HeartbeatPublicOutput => output.validate = .ok ()
  elementsStatePublicOutput :
    CanonicalCodec fun output : ElementsStatePublicOutput => output.validate = .ok ()
  depositClaimId : ∀ left right : EthereumDepositClaim, left.validate = .ok () →
    right.validate = .ok () → left.claimId = right.claimId → left = right ∨
      Collide (domainPreimage .ethereumStateClaim (encode left))
        (domainPreimage .ethereumStateClaim (encode right))
  heartbeatClaimId : ∀ left right : EthereumHeartbeatClaim, left.validate = .ok () →
    right.validate = .ok () → left.claimId = right.claimId → left = right ∨
      Collide (domainPreimage .ethereumStateClaim (encode left))
        (domainPreimage .ethereumStateClaim (encode right))
  elementsClaimId : ∀ left right : ElementsStateTransitionClaim, left.DecodeChecks →
    right.DecodeChecks → left.claimId = right.claimId → left = right ∨
      Collide (domainPreimage .elementsEventClaim (encode left))
        (domainPreimage .elementsEventClaim (encode right))
  manifestId : ∀ (left right : ProtocolManifest) (id : Hash32), left.manifestId = .ok id →
    right.manifestId = .ok id → left = right ∨
      Collide (domainPreimage .manifest (encode left)) (domainPreimage .manifest (encode right))

/-- Every protocol record has a canonical codec. -/
theorem codecs_canonical : CodecsCanonical where
  vaultDeposit := canonicalCodec
  ethereumFinalityWitness := canonicalCodec
  mintOutput := canonicalCodec
  mintBatch := canonicalCodec
  burn := canonicalCodec
  burnPayload := canonicalCodec
  solidityBurnClaim := canonicalCodec
  elementsEvent := canonicalCodec
  solidityElementsBridgeState := canonicalCodec
  mintControllerState := canonicalCodec
  protocolManifest := canonicalCodec
  merkleProof := canonicalCodec
  burnProof := canonicalCodec
  ethereumDepositClaim := canonicalCodec
  ethereumHeartbeatClaim := canonicalCodec
  burnAppend := canonicalCodec
  elementsStateTransitionClaim := canonicalCodec
  depositPublicOutput := canonicalCodec
  heartbeatPublicOutput := canonicalCodec
  elementsStatePublicOutput := canonicalCodec
  depositClaimId := canonicalCodec.binds _
  heartbeatClaimId := canonicalCodec.binds _
  elementsClaimId := canonicalCodec.binds _
  manifestId left right id leftId rightId := by
    obtain ⟨leftValid, rfl⟩ := ProtocolManifest.manifestId_eq_ok.mp leftId
    obtain ⟨rightValid, same⟩ := ProtocolManifest.manifestId_eq_ok.mp rightId
    exact canonicalCodec.binds _ left right (ProtocolManifest.validate_eq_ok.mpr leftValid)
      (ProtocolManifest.validate_eq_ok.mpr rightValid) same

end Usdd.Verif

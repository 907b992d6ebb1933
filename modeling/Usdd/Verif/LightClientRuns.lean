import Mathlib.Data.List.Chain
import Usdd.EthereumInbound.HeliosLaws
/-!
# Light-client steps without a state of their own

Between two proofs the controller keeps four fields of the light client, and the next prover
brings headers and committees afresh. The digest binds the committees and whether there is a
next one, the root binds the beacon header, and the branch binds the execution payload, so the
store rebuilt from the next proof is the one that the last step left, up to the fields that
authorize nothing.
-/
namespace Usdd.Verif

open Usdd.Foundation Usdd.Core Usdd.ProofCore Usdd.EthereumInbound

/-- A transition of the adapter: the manifest and states it is given and the prover's proof. -/
structure AdapterTransition (Beacon Payload Committee Update FinalityUpdate : Type) where
  manifest : ProtocolManifest
  priorState : MintControllerState
  next : EthereumFinalityWitness
  proof : SepoliaFinalityProof Beacon Payload Committee Update FinalityUpdate

/-- A store with the fields reset that a proof does not carry. -/
def resetStore {Beacon Payload Committee Update : Type}
    (store : LightClientStore Beacon Payload Committee Update) :
    LightClientStore Beacon Payload Committee Update :=
  { store with
    optimisticHeader := store.finalizedHeader
    previousMaxActiveParticipants := 0
    currentMaxActiveParticipants := 0
    bestValidUpdate := none }

section Messages

variable [Hashing]

/-- The messages that the fold of a branch hashes. -/
def branchMessages : Nat → Hash32 → List Hash32 → List (List UInt8)
  | _, _, [] => []
  | depth, derived, node :: branch =>
    let message := encode (branchPair depth derived node).1 ++
      encode (branchPair depth derived node).2
    message :: branchMessages (depth + 1) (hashBytes message) branch

omit [Hashing] in
theorem branchPair_inj {depth : Nat} {derived node derived' node' : Hash32}
    (same : encode (branchPair depth derived node).1 ++ encode (branchPair depth derived node).2 =
      encode (branchPair depth derived' node').1 ++ encode (branchPair depth derived' node').2) :
    derived = derived' ∧ node = node' := by
  have halves := List.append_inj same (by rw [encode_fixed_length, encode_fixed_length])
  have first := encode_fixed_inj.mp halves.1
  have second := encode_fixed_inj.mp halves.2
  unfold branchPair at first second
  by_cases right : (9 >>> depth) &&& 1 = 1
  · rw [if_pos right, if_pos right] at first second
    exact ⟨second, first⟩
  · rw [if_neg right, if_neg right] at first second
    exact ⟨first, second⟩

/-- Where its messages do not collide, a fold binds the leaf and the whole branch. -/
theorem foldBranch_inj {inside : Set (List UInt8)} (apart : inside.InjOn Hashing.sha256)
    {depth : Nat} {derived derived' : Hash32} {branch branch' : List Hash32}
    (length : branch.length = branch'.length)
    (listed : ∀ message ∈ branchMessages depth derived branch, message ∈ inside)
    (listed' : ∀ message ∈ branchMessages depth derived' branch', message ∈ inside)
    (same : foldBranch depth derived branch = foldBranch depth derived' branch') :
    derived = derived' ∧ branch = branch' := by
  induction branch generalizing depth derived derived' branch' with
  | nil =>
    cases branch' with
    | nil => exact ⟨same, rfl⟩
    | cons node' branch' => cases length
  | cons node branch ih =>
    cases branch' with
    | nil => cases length
    | cons node' branch' =>
      simp only [branchMessages, List.forall_mem_cons] at listed listed'
      obtain ⟨hashed, rest⟩ := ih (Nat.succ.inj length) listed.2 listed'.2 same
      obtain ⟨rfl, rfl⟩ := branchPair_inj (apart listed.1 listed'.1 hashed)
      exact ⟨rfl, by rw [rest]⟩

omit [Hashing] in
/-- The digest's preimage determines what it packs, the absence of a next committee included. -/
theorem lightClientStatePreimage_inj {slot slot' : UInt64}
    {root root' current current' : Hash32} {next next' : Option Hash32}
    (same : lightClientStatePreimage slot root current next =
      lightClientStatePreimage slot' root' current' next') :
    slot = slot' ∧ root = root' ∧ current = current' ∧ next = next' := by
  have widths : ([lightClientStateDomain, encode encodingSchema, encodeSepoliaConfig, encode slot,
      encode root, encode current].map List.length) =
      [lightClientStateDomain, encode encodingSchema, encodeSepoliaConfig, encode slot',
        encode root', encode current'].map List.length := by
    simp
  have front := List.append_inj same (by rw [List.length_flatten, List.length_flatten, widths])
  have fields := flatten_inj widths front.1
  simp only [List.cons.injEq, encode_u64_inj, encode_fixed_inj, true_and, and_true] at fields
  obtain ⟨slots, roots, currents⟩ := fields
  refine ⟨slots, roots, currents, ?_⟩
  have tail := front.2
  cases next with
  | none =>
    cases next' with
    | none => rfl
    | some other => simpa using congrArg List.length tail
  | some one =>
    cases next' with
    | none => simpa using congrArg List.length tail
    | some other =>
      have committees := List.append_cancel_left tail
      rw [encode_fixed_inj.mp committees]

end Messages

section Runs

variable [Hashing] {Beacon Payload Committee Update FinalityUpdate : Type}

/-- The library leaves only headers in the store whose payload is bound: an update that it
verified keeps this. -/
structure BindsHeaders (helios : Helios Beacon Payload Committee Update FinalityUpdate) : Prop where
  update : ∀ update slot store,
    helios.verifyUpdate update slot store sepoliaGenesisValidatorsRoot sepoliaForks = true →
    executionPayloadIsBound helios store.finalizedHeader = true →
    executionPayloadIsBound helios (helios.applyUpdate store update).finalizedHeader = true
  finality : ∀ update slot store,
    helios.verifyFinalityUpdate update slot store sepoliaGenesisValidatorsRoot sepoliaForks =
      true →
    executionPayloadIsBound helios store.finalizedHeader = true →
    executionPayloadIsBound helios (helios.applyFinalityUpdate store update).finalizedHeader = true

/-- The next step starts from the four fields of the witness of the last. -/
structure StartsFrom (earlier later :
    AdapterTransition Beacon Payload Committee Update FinalityUpdate) : Prop where
  digest : later.priorState.ethereumLightClientDigest = earlier.next.ethereumLightClientDigest
  slot : later.priorState.finalizedBeaconSlot = earlier.next.finalizedBeaconSlot
  root : later.priorState.finalizedBeaconRoot = earlier.next.finalizedBeaconRoot
  stateRoot : later.priorState.finalizedExecutionStateRoot =
    earlier.next.finalizedExecutionStateRoot

variable (helios : Helios Beacon Payload Committee Update FinalityUpdate)
  (steps : List (AdapterTransition Beacon Payload Committee Update FinalityUpdate))

/-- The stores that the steps rebuild and leave. -/
def StoreOf (store : LightClientStore Beacon Payload Committee Update) : Prop :=
  ∃ step ∈ steps, store = rebuiltStore step.proof ∨ updatedStore helios step.proof = .ok store

/-- The messages that a store is committed by: the digest's preimage and those of the branch of
its finalized header. -/
def StoreMessage (store : LightClientStore Beacon Payload Committee Update)
    (message : List UInt8) : Prop :=
  message = lightClientStatePreimage (helios.slot store.finalizedHeader.beacon)
      (helios.beaconRoot store.finalizedHeader.beacon)
      (helios.committeeRoot store.currentSyncCommittee)
      (store.nextSyncCommittee.map helios.committeeRoot) ∨
    ∃ payload branch, store.finalizedHeader.execution = some payload ∧
      store.finalizedHeader.executionBranch = some branch ∧
      message ∈ branchMessages 0 (helios.payloadRoot payload) branch

/-- SHA-256 and the tree hashes do not collide on what the stores of the steps commit to. -/
structure CommitmentsApart : Prop where
  beacons : Set.InjOn helios.beaconRoot
    { beacon | ∃ store, StoreOf helios steps store ∧ store.finalizedHeader.beacon = beacon }
  payloads : Set.InjOn helios.payloadRoot
    { payload | ∃ store, StoreOf helios steps store ∧
      store.finalizedHeader.execution = some payload }
  committees : Set.InjOn helios.committeeRoot
    { committee | ∃ store, StoreOf helios steps store ∧
      (store.currentSyncCommittee = committee ∨ store.nextSyncCommittee = some committee) }
  messages : Set.InjOn Hashing.sha256
    { message | ∃ store, StoreOf helios steps store ∧ StoreMessage helios store message }

/-- The steps are one light client: each store is rebuilt as it was left, and finality advances
by epochs within the gap. -/
structure OneLightClient : Prop where
  continuous : steps.IsChain fun earlier later => ∃ store,
    updatedStore helios earlier.proof = .ok store ∧ rebuiltStore later.proof = resetStore store
  advances : ∀ step ∈ steps,
    step.priorState.finalizedBeaconSlot.toNat < step.next.finalizedBeaconSlot.toNat ∧
      step.next.finalizedBeaconSlot.toNat ≤ step.priorState.finalizedBeaconSlot.toNat + 4096 ∧
      step.next.finalizedBeaconSlot % helios.slotsPerEpoch = 0
  increasing : steps.Pairwise fun earlier later =>
    earlier.next.finalizedBeaconSlot.toNat < later.next.finalizedBeaconSlot.toNat

variable {helios steps}

/-- The committee updates keep the finalized header bound. -/
theorem runUpdates_bound (binds : BindsHeaders helios) {slot : UInt64} {index : Nat}
    {updates : List Update} {store left : LightClientStore Beacon Payload Committee Update}
    (ran : runUpdates helios slot index updates store = .ok left)
    (bound : executionPayloadIsBound helios store.finalizedHeader = true) :
    executionPayloadIsBound helios left.finalizedHeader = true := by
  induction updates generalizing index store with
  | nil =>
    simp only [runUpdates, pure_eq_ok] at ran
    rw [← ran]
    exact bound
  | cons update updates ih =>
    simp only [runUpdates] at ran
    simp only [↓then_eq_ok, rejectIf_eq_ok, Bool.not_eq_false] at ran
    exact ih ran.2.2 (binds.update update slot store ran.2.1 bound)

theorem updatedStore_bound (binds : BindsHeaders helios)
    {proof : SepoliaFinalityProof Beacon Payload Committee Update FinalityUpdate}
    {store : LightClientStore Beacon Payload Committee Update}
    (updated : updatedStore helios proof = .ok store)
    (bound : executionPayloadIsBound helios proof.priorFinalizedHeader = true) :
    executionPayloadIsBound helios store.finalizedHeader = true := by
  simp only [updatedStore] at updated
  simp only [↓then_eq_ok, bind_eq_ok, rejectIf_eq_ok, pure_eq_ok, Bool.not_eq_false] at updated
  obtain ⟨-, middle, ran, -, verified, rfl⟩ := updated
  exact binds.finality _ _ _ verified (runUpdates_bound binds ran bound)

/-- A bound header has a payload and a branch of four nodes that fold to the body root. -/
theorem executionPayloadIsBound_iff {header : LightClientHeader Beacon Payload} :
    executionPayloadIsBound helios header = true ↔ ∃ payload branch,
      header.execution = some payload ∧ header.executionBranch = some branch ∧
      branch.length = 4 ∧
      foldBranch 0 (helios.payloadRoot payload) branch = helios.bodyRoot header.beacon := by
  unfold executionPayloadIsBound
  cases payloadOf : header.execution with
  | none => simp
  | some payload =>
    cases branchOf : header.executionBranch with
    | none => simp
    | some branch =>
      by_cases four : branch.length = 4
      · simp [four]
      · simp [four]

/-- The header that the stores of a run commit to is determined by its beacon header. -/
theorem CommitmentsApart.same_header (apart : CommitmentsApart helios steps)
    {left right : LightClientStore Beacon Payload Committee Update}
    (leftOf : StoreOf helios steps left) (rightOf : StoreOf helios steps right)
    (leftBound : executionPayloadIsBound helios left.finalizedHeader = true)
    (rightBound : executionPayloadIsBound helios right.finalizedHeader = true)
    (beacon : left.finalizedHeader.beacon = right.finalizedHeader.beacon) :
    left.finalizedHeader = right.finalizedHeader := by
  obtain ⟨payload, branch, payloadOf, branchOf, length, folded⟩ :=
    executionPayloadIsBound_iff.mp leftBound
  obtain ⟨payload', branch', payloadOf', branchOf', length', folded'⟩ :=
    executionPayloadIsBound_iff.mp rightBound
  have same : foldBranch 0 (helios.payloadRoot payload) branch =
      foldBranch 0 (helios.payloadRoot payload') branch' := by
    rw [folded, folded', beacon]
  have pinned := foldBranch_inj apart.messages (length.trans length'.symm)
    (fun message listed => ⟨left, leftOf, Or.inr ⟨payload, branch, payloadOf, branchOf, listed⟩⟩)
    (fun message listed =>
      ⟨right, rightOf, Or.inr ⟨payload', branch', payloadOf', branchOf', listed⟩⟩) same
  have payloads : payload = payload' :=
    apart.payloads ⟨left, leftOf, payloadOf⟩ ⟨right, rightOf, payloadOf'⟩ pinned.1
  cases leftHeader : left.finalizedHeader with
  | mk leftBeacon leftExecution leftBranch =>
    cases rightHeader : right.finalizedHeader with
    | mk rightBeacon rightExecution rightBranch =>
      rw [leftHeader] at beacon payloadOf branchOf
      rw [rightHeader] at beacon payloadOf' branchOf'
      simp only at beacon payloadOf branchOf payloadOf' branchOf'
      rw [beacon, payloadOf, branchOf, payloadOf', branchOf', payloads, pinned.2]

/-- Two stores of a run with one digest commit to the same header and committees. -/
theorem CommitmentsApart.same_store (apart : CommitmentsApart helios steps)
    {left right : LightClientStore Beacon Payload Committee Update}
    (leftOf : StoreOf helios steps left) (rightOf : StoreOf helios steps right)
    (leftBound : executionPayloadIsBound helios left.finalizedHeader = true)
    (rightBound : executionPayloadIsBound helios right.finalizedHeader = true)
    (digest : lightClientStateDigest helios (helios.slot left.finalizedHeader.beacon)
        (helios.beaconRoot left.finalizedHeader.beacon) left.currentSyncCommittee
        left.nextSyncCommittee =
      lightClientStateDigest helios (helios.slot right.finalizedHeader.beacon)
        (helios.beaconRoot right.finalizedHeader.beacon) right.currentSyncCommittee
        right.nextSyncCommittee) :
    left.finalizedHeader = right.finalizedHeader ∧
      left.currentSyncCommittee = right.currentSyncCommittee ∧
      left.nextSyncCommittee = right.nextSyncCommittee := by
  have preimage := apart.messages ⟨left, leftOf, Or.inl rfl⟩ ⟨right, rightOf, Or.inl rfl⟩ digest
  obtain ⟨-, root, current, next⟩ := lightClientStatePreimage_inj preimage
  have beacon : left.finalizedHeader.beacon = right.finalizedHeader.beacon :=
    apart.beacons ⟨left, leftOf, rfl⟩ ⟨right, rightOf, rfl⟩ root
  have currents : left.currentSyncCommittee = right.currentSyncCommittee :=
    apart.committees ⟨left, leftOf, Or.inl rfl⟩ ⟨right, rightOf, Or.inl rfl⟩ current
  refine ⟨apart.same_header leftOf rightOf leftBound rightBound beacon, currents, ?_⟩
  cases leftNext : left.nextSyncCommittee with
  | none =>
    cases rightNext : right.nextSyncCommittee with
    | none => rfl
    | some other =>
      rw [leftNext, rightNext] at next
      cases next
  | some one =>
    cases rightNext : right.nextSyncCommittee with
    | none =>
      rw [leftNext, rightNext] at next
      cases next
    | some other =>
      rw [leftNext, rightNext] at next
      have committees : one = other := apart.committees ⟨left, leftOf, Or.inr leftNext⟩
        ⟨right, rightOf, Or.inr rightNext⟩ (Option.some.inj next)
      rw [committees]

omit [Hashing] in
/-- A rebuilt store is what a proof carries of the store it was left as. -/
theorem rebuiltStore_eq_reset
    {proof : SepoliaFinalityProof Beacon Payload Committee Update FinalityUpdate}
    {store : LightClientStore Beacon Payload Committee Update}
    (header : (rebuiltStore proof).finalizedHeader = store.finalizedHeader)
    (current : (rebuiltStore proof).currentSyncCommittee = store.currentSyncCommittee)
    (next : (rebuiltStore proof).nextSyncCommittee = store.nextSyncCommittee) :
    rebuiltStore proof = resetStore store := by
  unfold resetStore
  rw [← header, ← current, ← next]
  rfl

/-- The step law: the store rebuilt from the next proof is the one that the last step left. -/
theorem StartsFrom.continuous (binds : BindsHeaders helios)
    (apart : CommitmentsApart helios steps)
    {earlier later : AdapterTransition Beacon Payload Committee Update FinalityUpdate}
    (earlierIn : earlier ∈ steps) (laterIn : later ∈ steps)
    (earlierVerified : verifyTransition helios earlier.manifest earlier.priorState earlier.next
      earlier.proof = .ok ())
    (laterVerified : verifyTransition helios later.manifest later.priorState later.next
      later.proof = .ok ())
    (starts : StartsFrom earlier later) :
    ∃ store, updatedStore helios earlier.proof = .ok store ∧
      rebuiltStore later.proof = resetStore store := by
  obtain ⟨earlierPrior, store, updated, readOff⟩ := verifyTransition_eq_ok earlierVerified
  obtain ⟨laterPrior, -⟩ := verifyTransition_eq_ok laterVerified
  have digest := laterPrior.digest
  rw [starts.digest, readOff.digest] at digest
  have rebuiltOf : StoreOf helios steps (rebuiltStore later.proof) :=
    ⟨later, laterIn, Or.inl rfl⟩
  have storeOf : StoreOf helios steps store := ⟨earlier, earlierIn, Or.inr updated⟩
  obtain ⟨header, current, next⟩ := apart.same_store rebuiltOf storeOf laterPrior.bound
    (updatedStore_bound binds updated earlierPrior.bound) digest
  exact ⟨store, updated, rebuiltStore_eq_reset header current next⟩

/-- What a verified step does to the finalized slot. -/
theorem verified_advances
    {step : AdapterTransition Beacon Payload Committee Update FinalityUpdate}
    (verified : verifyTransition helios step.manifest step.priorState step.next step.proof =
      .ok ()) :
    step.priorState.finalizedBeaconSlot.toNat < step.next.finalizedBeaconSlot.toNat ∧
      step.next.finalizedBeaconSlot.toNat ≤ step.priorState.finalizedBeaconSlot.toNat + 4096 ∧
      step.next.finalizedBeaconSlot % helios.slotsPerEpoch = 0 := by
  obtain ⟨-, store, -, readOff⟩ := verifyTransition_eq_ok verified
  obtain ⟨later, within⟩ := finalizedSlotAdvances_iff.mp readOff.advances
  rw [readOff.slot]
  exact ⟨later, within, readOff.checkpoint⟩

/-- Verified steps that start from one another are one light client. -/
theorem light_client_continuous (binds : BindsHeaders helios)
    (verified : ∀ step ∈ steps, verifyTransition helios step.manifest step.priorState step.next
      step.proof = .ok ())
    (linked : steps.IsChain StartsFrom) (apart : CommitmentsApart helios steps) :
    OneLightClient helios steps := by
  refine ⟨?_, ?_, ?_⟩
  · apply linked.imp_of_mem_imp
    intro earlier later earlierIn laterIn starts
    exact starts.continuous binds apart earlierIn laterIn (verified earlier earlierIn)
      (verified later laterIn)
  · intro step stepIn
    exact verified_advances (verified step stepIn)
  · -- each step starts at the slot where the one before it ended
    have increases : (steps.map fun step => step.next.finalizedBeaconSlot.toNat).IsChain
        (· < ·) := by
      rw [List.isChain_map]
      apply linked.imp_of_mem_imp
      intro earlier later _ laterIn starts
      rw [← starts.slot]
      exact (verified_advances (verified later laterIn)).1
    rw [List.isChain_iff_pairwise, List.pairwise_map] at increases
    exact increases

end Runs

/-! ## A run of two steps -/

/-- A valid manifest of a deployment on Sepolia. -/
def sepoliaManifest : ProtocolManifest :=
  { sampleManifest with
    ethereumChainId := sepoliaChainId
    ethereumGenesis := sepoliaExecutionGenesisHash
    vaultId := .ofNat 32 0x5f77df9a24c7346e8e51c85ee2595a71d368dbe861d4fc75a3331009caef97ec
    verifierConfigHash :=
      .ofNat 32 0x1b852d8197a29b234240199055ad003534b2d06bb0ca84d0bb3f41cbd1db4a98
    controllerConfigurationHash :=
      .ofNat 32 0xa4ec57790230728156dbed1c369ba5ea750621ba4a1298a8b2c130cb8922cea4
    initialControllerStateHash :=
      .ofNat 32 0x35518bc2bf40fa46c006c62b117ed8ec873a140e655e899e5ddd41841028512a }

/-- What the adapter reads of a beacon header. -/
structure SampleBeacon where
  slot : UInt64
  bodyRoot : Hash32

/-- What the adapter reads of an execution payload. -/
structure SamplePayload where
  stateRoot : Hash32
  blockHash : Hash32
  blockNumber : UInt64
  timestamp : UInt64

/-- A finality update is the header it finalizes, signed in the slot after it. -/
abbrev SampleUpdate := LightClientHeader SampleBeacon SamplePayload

section Sample

variable [Hashing]

/-- The tree hashes of a small library, with a committee given by its root. -/
def sampleTrees : Helios SampleBeacon SamplePayload Hash32 Hash32 SampleUpdate where
  slot := SampleBeacon.slot
  bodyRoot := SampleBeacon.bodyRoot
  beaconRoot beacon := hashBytes (encode beacon.slot ++ encode beacon.bodyRoot)
  payloadRoot payload := hashBytes (encode payload.stateRoot ++ encode payload.blockHash ++
    encode payload.blockNumber ++ encode payload.timestamp)
  stateRoot := SamplePayload.stateRoot
  blockHash := SamplePayload.blockHash
  blockNumber := SamplePayload.blockNumber
  timestamp := SamplePayload.timestamp
  committeeRoot committee := committee
  syncCommitteeSize := 512
  slotsPerEpoch := 32
  updateParticipants _ := 512
  finalityParticipants _ := 512
  signatureSlot update := update.beacon.slot + 1
  verifyUpdate _ _ store _ _ := store.nextSyncCommittee.isNone
  applyUpdate store committee := { store with nextSyncCommittee := some committee }
  verifyFinalityUpdate update _ store _ _ :=
    store.finalizedHeader.beacon.slot < update.beacon.slot
  applyFinalityUpdate store update :=
    { store with
      finalizedHeader := update
      optimisticHeader := update
      currentMaxActiveParticipants := 512 }

/-- The library: it finalizes only later headers whose payload is bound. -/
def sampleHelios : Helios SampleBeacon SamplePayload Hash32 Hash32 SampleUpdate :=
  { sampleTrees with
    verifyFinalityUpdate := fun update slot store root forks =>
      sampleTrees.verifyFinalityUpdate update slot store root forks &&
        executionPayloadIsBound sampleTrees update }

theorem sampleHelios_binds : BindsHeaders sampleHelios := by
  constructor
  · intro update slot store verified bound
    exact bound
  · intro update slot store verified bound
    exact (Bool.and_eq_true_iff.mp verified).2

/-- The payload of a slot. -/
def samplePayload (slot : UInt64) : SamplePayload where
  stateRoot := .ofNat 32 (0xa000 + slot.toNat)
  blockHash := .ofNat 32 (0xb000 + slot.toNat)
  blockNumber := slot
  timestamp := 1700000000 + 12 * slot

/-- The branch of a slot's payload. -/
def sampleBranch (slot : UInt64) : List Hash32 :=
  [.ofNat 32 (0xc000 + slot.toNat), .ofNat 32 0xc1, .ofNat 32 0xc2, .ofNat 32 0xc3]

/-- The header of a slot, its payload bound to the body root. -/
def sampleHeader (slot : UInt64) : SampleUpdate where
  beacon :=
    { slot
      bodyRoot := foldBranch 0 (sampleHelios.payloadRoot (samplePayload slot))
        (sampleBranch slot) }
  execution := some (samplePayload slot)
  executionBranch := some (sampleBranch slot)

/-- The committee that signs. -/
def sampleCommittee : Hash32 := .ofNat 32 0xca

/-- The committee after it. -/
def sampleNextCommittee : Hash32 := .ofNat 32 0xcb

/-- The digest of the store at a slot. -/
def sampleDigest (slot : UInt64) (next : Option Hash32) : Hash32 :=
  lightClientStateDigest sampleHelios slot (sampleHelios.beaconRoot (sampleHeader slot).beacon)
    sampleCommittee next

/-- A transition from a slot to a later one, the next committee learnt by an update. -/
def sampleStep (sequence prior later : UInt64) (next : Option Hash32)
    (updates : List Hash32) :
    AdapterTransition SampleBeacon SamplePayload Hash32 Hash32 SampleUpdate where
  manifest := sepoliaManifest
  priorState :=
    { version := protocolVersion
      sequence
      nextMintNonce := 0
      ethereumLightClientDigest := sampleDigest prior next
      finalizedBeaconSlot := prior
      finalizedBeaconRoot := sampleHelios.beaconRoot (sampleHeader prior).beacon
      finalizedExecutionStateRoot := (samplePayload prior).stateRoot
      totalMintedUsddBase := 0
      configurationHash := sepoliaManifest.controllerConfigurationHash }
  next :=
    { ethereumLightClientDigest := sampleDigest later (some sampleNextCommittee)
      finalizedBeaconSlot := later
      finalizedBeaconRoot := sampleHelios.beaconRoot (sampleHeader later).beacon
      finalizedExecutionBlock := (samplePayload later).blockHash
      finalizedExecutionStateRoot := (samplePayload later).stateRoot
      executionBlockNumber := (samplePayload later).blockNumber
      executionBlockTimestamp := (samplePayload later).timestamp }
  proof :=
    { priorFinalizedHeader := sampleHeader prior
      priorCurrentSyncCommittee := sampleCommittee
      priorNextSyncCommittee := next
      updates
      finalityUpdate := sampleHeader later }

/-- The first step learns the next committee, the second brings only finality. -/
def sampleSteps :
    List (AdapterTransition SampleBeacon SamplePayload Hash32 Hash32 SampleUpdate) :=
  [sampleStep 0 32 64 none [sampleNextCommittee],
    sampleStep 1 64 96 (some sampleNextCommittee) []]

end Sample

theorem sampleSteps_verified : letI := sha256Hashing
    ∀ step ∈ sampleSteps, verifyTransition sampleHelios step.manifest step.priorState step.next
      step.proof = .ok () := by
  let hashing := sha256Hashing
  simp only [sampleSteps, List.forall_mem_cons]
  exact ⟨by decide +kernel, by decide +kernel, List.forall_mem_nil _⟩

theorem sampleSteps_linked [Hashing] : sampleSteps.IsChain StartsFrom := by
  unfold sampleSteps
  rw [List.isChain_pair]
  exact ⟨rfl, rfl, rfl, rfl⟩

section Commitments

variable [Hashing]

/-- The headers of the run. -/
def sampleHeaders : List SampleUpdate := [sampleHeader 32, sampleHeader 64, sampleHeader 96]

/-- The messages of the run. -/
def sampleCommitments : List (List UInt8) :=
  sampleHeaders.flatMap fun header =>
    let slot := header.beacon.slot
    let root := sampleHelios.beaconRoot header.beacon
    lightClientStatePreimage slot root sampleCommittee none ::
      lightClientStatePreimage slot root sampleCommittee (some sampleNextCommittee) ::
      branchMessages 0 (sampleHelios.payloadRoot (samplePayload slot)) (sampleBranch slot)

/-- What a store of the run can be. -/
structure SampleStore (store : LightClientStore SampleBeacon SamplePayload Hash32 Hash32) :
    Prop where
  header : store.finalizedHeader ∈ sampleHeaders
  current : store.currentSyncCommittee = sampleCommittee
  next : store.nextSyncCommittee ∈ [none, some sampleNextCommittee]

theorem sampleStore_of {store : LightClientStore SampleBeacon SamplePayload Hash32 Hash32}
    (storeOf : StoreOf sampleHelios sampleSteps store) : SampleStore store := by
  obtain ⟨step, stepIn, left⟩ := storeOf
  simp only [sampleSteps, List.mem_cons, List.not_mem_nil, or_false] at stepIn
  obtain rebuilt | updated := left
  · obtain rfl | rfl := stepIn
    · rw [rebuilt]
      exact ⟨by simp [sampleHeaders, rebuiltStore, sampleStep], rfl,
        by simp [rebuiltStore, sampleStep]⟩
    · rw [rebuilt]
      exact ⟨by simp [sampleHeaders, rebuiltStore, sampleStep], rfl,
        by simp [rebuiltStore, sampleStep]⟩
  · simp only [updatedStore] at updated
    simp only [↓then_eq_ok, bind_eq_ok, rejectIf_eq_ok, pure_eq_ok] at updated
    obtain ⟨-, middle, ran, -, -, rfl⟩ := updated
    obtain rfl | rfl := stepIn
    · simp only [sampleStep, runUpdates] at ran
      simp only [↓then_eq_ok, rejectIf_eq_ok, pure_eq_ok] at ran
      obtain ⟨-, -, rfl⟩ := ran
      exact ⟨by simp [sampleHeaders, sampleHelios, sampleTrees, sampleStep], rfl,
        by simp [sampleHelios, sampleTrees]⟩
    · simp only [sampleStep, runUpdates] at ran
      simp only [pure_eq_ok] at ran
      obtain rfl := ran
      exact ⟨by simp [sampleHeaders, sampleHelios, sampleTrees, sampleStep], rfl,
        by simp [sampleHelios, sampleTrees, rebuiltStore]⟩

/-- A header of the run carries its slot's payload and branch. -/
theorem sampleHeaders_carry {header : SampleUpdate} (listed : header ∈ sampleHeaders) :
    header.execution = some (samplePayload header.beacon.slot) ∧
      header.executionBranch = some (sampleBranch header.beacon.slot) := by
  simp only [sampleHeaders, List.mem_cons, List.not_mem_nil, or_false] at listed
  obtain rfl | rfl | rfl := listed <;> exact ⟨rfl, rfl⟩

/-- A store of the run is committed by the run's messages. -/
theorem sampleCommitments_of {store : LightClientStore SampleBeacon SamplePayload Hash32 Hash32}
    (sample : SampleStore store) {message : List UInt8}
    (commits : StoreMessage sampleHelios store message) : message ∈ sampleCommitments := by
  obtain ⟨payloadOf, branchOf⟩ := sampleHeaders_carry sample.header
  unfold sampleCommitments
  rw [List.mem_flatMap]
  refine ⟨store.finalizedHeader, sample.header, ?_⟩
  obtain rfl | ⟨payload, branch, carried, hashed, folded⟩ := commits
  · rw [sample.current]
    have next := sample.next
    simp only [List.mem_cons, List.not_mem_nil, or_false] at next
    obtain none | some := next
    · rw [none]
      exact List.mem_cons_self
    · rw [some]
      exact List.mem_cons_of_mem _ List.mem_cons_self
  · rw [payloadOf, Option.some.injEq] at carried
    rw [branchOf, Option.some.injEq] at hashed
    rw [← carried, ← hashed] at folded
    exact List.mem_cons_of_mem _ (List.mem_cons_of_mem _ folded)

end Commitments

theorem sampleSteps_apart : letI := sha256Hashing
    CommitmentsApart sampleHelios sampleSteps := by
  let hashing := sha256Hashing
  have beaconRoots : (sampleHeaders.map fun header =>
      sampleHelios.beaconRoot header.beacon).Nodup := by decide +kernel
  have payloadRoots : (sampleHeaders.map fun header =>
      sampleHelios.payloadRoot (samplePayload header.beacon.slot)).Nodup := by decide +kernel
  have digests : (sampleCommitments.map Hashing.sha256).Nodup := by decide +kernel
  constructor
  · rintro _ ⟨left, leftOf, rfl⟩ _ ⟨right, rightOf, rfl⟩ same
    have headers := List.inj_on_of_nodup_map beaconRoots (sampleStore_of leftOf).header
      (sampleStore_of rightOf).header same
    rw [headers]
  · rintro payload ⟨left, leftOf, carried⟩ payload' ⟨right, rightOf, carried'⟩ same
    have leftHeader := (sampleStore_of leftOf).header
    have rightHeader := (sampleStore_of rightOf).header
    rw [(sampleHeaders_carry leftHeader).1, Option.some.injEq] at carried
    rw [(sampleHeaders_carry rightHeader).1, Option.some.injEq] at carried'
    rw [← carried, ← carried'] at same ⊢
    rw [List.inj_on_of_nodup_map payloadRoots leftHeader rightHeader same]
  · intro committee _ committee' _ same
    exact same
  · rintro message ⟨left, leftOf, commits⟩ message' ⟨right, rightOf, commits'⟩ same
    exact List.inj_on_of_nodup_map digests (sampleCommitments_of (sampleStore_of leftOf) commits)
      (sampleCommitments_of (sampleStore_of rightOf) commits') same

/-- Two steps, the first of which learns the next committee. -/
theorem light_client_continuous_sample : letI := sha256Hashing
    BindsHeaders sampleHelios ∧ CommitmentsApart sampleHelios sampleSteps ∧
      OneLightClient sampleHelios sampleSteps :=
  letI := sha256Hashing
  ⟨sampleHelios_binds, sampleSteps_apart, light_client_continuous sampleHelios_binds
    sampleSteps_verified sampleSteps_linked sampleSteps_apart⟩

end Usdd.Verif

import Usdd.EthereumInbound.DepositBatch
import Usdd.Verif.DepositLiveness
import Usdd.Verif.SlotRules
/-!
# What is minted was deposited

The Ethereum guest believes a claim about deposits because it found their commitments in the
storage of the vault, at a state root whose finality was proven. If finality is only proven of
real states, and the trie verifier only finds what a trie holds, then along every sequence of
accepted claims the controller mints the vault's own deposits: each nonce in its turn, one
hundred times its amount, to its script, and never more than was deposited.
-/
namespace Usdd.Verif

open Usdd.Foundation Usdd.Foundation.Reentrant Usdd.Core Usdd.ProofCore Usdd.Contracts Usdd.Spec
open Usdd.EthereumInbound
open Usdd.Guests (EthereumInboundProof)

/-- What tries hold: the value under a root at the hash of a key. -/
abbrev TrieContent := Hash32 → Hash32 → Option (List UInt8)

/-- A trie verifier that accepts only values that are held under the root. -/
def TrieSound (verifyProof : VerifyProof) (content : TrieContent) : Prop :=
  ∀ root key value nodes, verifyProof root key value nodes = true → content root key = some value

/-- Where the trie of the vault's storage holds the commitment of a nonce. -/
def commitmentPath (nonce : UInt64) : Hash32 := keccak256 (depositCommitmentStorageKey nonce).bytes

/-- A state root under which the vault's account and its storage are held: what stands at the
path of a commitment is a commitment with that path. -/
def HoldsVault (content : TrieContent) (vault : Vault) (storage : VaultStorage)
    (stateRoot : Hash32) : Prop :=
  ∃ account : VaultAccountWitness,
    content stateRoot (keccak256 vault.self.bytes) = some (rlpAccount account) ∧
    ∀ nonce value, content account.storageRoot (commitmentPath nonce) = some value →
      ∃ stored, commitmentPath stored = commitmentPath nonce ∧
        storage.depositCommitmentByNonce stored ≠ .zero ∧
        value = rlpNumber (storage.depositCommitmentByNonce stored).toNat

/-- The sum of the amounts of the deposits below a nonce. -/
def depositedBelow (deposits : List AcceptedDeposit) (nonce : UInt64) : Nat :=
  ((deposits.filter fun deposit => deposit.nonce < nonce).map
    fun deposit => deposit.amountUSDT6.toNat).sum

section Timelines

variable [Hashing] {World : Type} {env : Environment World TokenRequest CallResult}
  {view : VaultView World} {vault : Vault} {first : World} {log : List VaultEntry}

/-- The state of the vault at every beacon slot: the storage after some prefix of its call
history, and a later slot never has a shorter prefix. -/
structure VaultTimeline (env : Environment World TokenRequest CallResult)
    (view : VaultView World) (vault : Vault) (first : World) (log : List VaultEntry) where
  calls : UInt64 → Nat
  storage : UInt64 → VaultStorage
  later : ∀ {early late : UInt64}, early.toNat ≤ late.toNat → calls early ≤ calls late
  ran : ∀ slot, ∃ last,
    Run env (vaultContract view vault) first .fresh (log.take (calls slot)) last (storage slot)

namespace VaultTimeline

/-- The deposits accepted up to a slot. -/
def deposits (timeline : VaultTimeline env view vault first log) (slot : UInt64) :
    List AcceptedDeposit :=
  (VaultHistory.ofLog (log.take (timeline.calls slot))).deposits

theorem invariant (timeline : VaultTimeline env view vault first log) (slot : UInt64) :
    VaultInvariant vault (log.take (timeline.calls slot)) (timeline.storage slot) := by
  obtain ⟨last, run⟩ := timeline.ran slot
  exact VaultInvariant.fresh.run run

theorem deposits_within (timeline : VaultTimeline env view vault first log) (slot : UInt64) :
    timeline.deposits slot <+: (VaultHistory.ofLog log).deposits :=
  (List.take_prefix _ log).filterMap depositOf

theorem deposits_mono (timeline : VaultTimeline env view vault first log) {early late : UInt64}
    (order : early.toNat ≤ late.toNat) : timeline.deposits early <+: timeline.deposits late :=
  (List.take_prefix_take_left (timeline.later order)).filterMap depositOf

end VaultTimeline

end Timelines

section Runs

variable [Hashing] {World Proof : Type} {env : Environment World TokenRequest CallResult}
  {view : VaultView World} {vault : Vault} {first : World} {log : List VaultEntry}
  {verifyProof : VerifyProof} {content : TrieContent}
  {verifier : EthereumFinalityTransitionVerifier Proof} {manifest : ProtocolManifest}

/-- A finality verifier that accepts only witnesses of real vault states: the state root of the
witness holds the vault as it was at the slot of the witness. -/
def FinalitySound (verifier : EthereumFinalityTransitionVerifier Proof)
    (manifest : ProtocolManifest) (content : TrieContent)
    (timeline : VaultTimeline env view vault first log) : Prop :=
  ∀ priorState finality proof,
    verifier.verifyFinalizedTransition manifest priorState finality proof = .ok () →
    HoldsVault content vault (timeline.storage finality.finalizedBeaconSlot)
      finality.finalizedExecutionStateRoot

/-- The runs of the Ethereum guest from the manifest's first state: the deposits that were
claimed, the outputs that were minted, and the state that was reached. Every claim starts from
the next state of the one before it. -/
inductive InboundRun (verifyProof : VerifyProof)
    (verifier : EthereumFinalityTransitionVerifier Proof) (manifest : ProtocolManifest) :
    List VaultDeposit → List MintOutput → MintControllerState → Prop
  | start : InboundRun verifyProof verifier manifest [] [] manifest.initialControllerState
  | deposits {claimed : List VaultDeposit} {outputs : List MintOutput}
      {claim : EthereumDepositClaim} {proof : EthereumInboundProof Proof}
      {journal : StrictJournal} {output : DepositPublicOutput} :
    InboundRun verifyProof verifier manifest claimed outputs claim.priorState →
    buildDepositJournal (ethereumInboundVerifier verifyProof verifier) manifest claim proof =
      .ok journal →
    depositOutput (ethereumInboundVerifier verifyProof verifier) manifest claim proof =
      .ok output →
    InboundRun verifyProof verifier manifest (claimed ++ claim.deposits)
      (outputs ++ output.mintBatch.outputs) output.nextState
  | heartbeat {claimed : List VaultDeposit} {outputs : List MintOutput}
      {claim : EthereumHeartbeatClaim} {proof : EthereumInboundProof Proof}
      {journal : StrictJournal} {output : HeartbeatPublicOutput} :
    InboundRun verifyProof verifier manifest claimed outputs claim.priorState →
    buildHeartbeatJournal (ethereumInboundVerifier verifyProof verifier) manifest claim proof =
      .ok journal →
    heartbeatOutput (ethereumInboundVerifier verifyProof verifier) manifest claim proof =
      .ok output →
    InboundRun verifyProof verifier manifest claimed outputs output.nextState

/-- The deposits that were claimed, and those that the vault accepted. -/
def depositRecords (manifest : ProtocolManifest) (vault : Vault) (claimed : List VaultDeposit)
    (deposits : List AcceptedDeposit) : Set VaultDeposit :=
  {record | record ∈ claimed ∨
    ∃ deposit ∈ deposits, record = depositRecord manifest.ethereumChainId vault deposit}

/-- SHA-256 has no collision on the preimages of some deposits. -/
def NoDepositCollision (records : Set VaultDeposit) : Prop :=
  Set.InjOn hashBytes {message | ∃ record ∈ records,
    message = record.depositPreimage ∨ message = record.elementsScript}

/-- Minting that follows the history of a vault, whose storage is the last. -/
structure MintSound (timeline : VaultTimeline env view vault first log) (storage : VaultStorage)
    (deposits : List AcceptedDeposit) (outputs : List MintOutput) (state : MintControllerState) :
    Prop where
  /-- Each nonce is minted at most once and in order. -/
  nonces : MintBatch.nonces outputs = List.range state.nextMintNonce.toNat
  /-- An output is that of the deposit with its nonce. -/
  exact : ∀ output ∈ outputs, ∃ deposit, deposits[output.nonce.toNat]? = some deposit ∧
    deposit.nonce = output.nonce ∧ output.depositId = deposit.depositId ∧
    output.usddAmountBase.toNat = 100 * deposit.amountUSDT6.toNat ∧
    output.elementsScript = deposit.elementsScript
  /-- The supply is one hundred times the deposits below the next nonce. -/
  total : state.totalMintedUsddBase.toNat = 100 * depositedBelow deposits state.nextMintNonce
  /-- The supply is covered by what was deposited. -/
  total_le : state.totalMintedUsddBase.toNat ≤ 100 * storage.totalDepositedUSDT6.toNat
  /-- From the finalized slot on, no slot has seen less deposited. -/
  covered : ∀ slot, state.finalizedBeaconSlot.toNat ≤ slot.toNat →
    state.totalMintedUsddBase.toNat ≤ 100 * (timeline.storage slot).totalDepositedUSDT6.toNat

/-- What a run keeps of its claims: their outputs, their order and their sums. -/
structure ClaimAccounts (manifest : ProtocolManifest) (claimed : List VaultDeposit)
    (outputs : List MintOutput) (state : MintControllerState) : Prop where
  outputs : outputs = claimed.map MintOutput.ofDeposit
  each : ∀ record ∈ claimed, record.Valid ∧
    record.ethereumChainId = manifest.ethereumChainId ∧ record.vault = manifest.vault
  nonces : claimed.map (fun record => record.nonce.toNat) = List.range claimed.length
  next : state.nextMintNonce.toNat = claimed.length
  total : state.totalMintedUsddBase.toNat =
    100 * (claimed.map fun record => record.usdtAmountMicro.toNat).sum

/-- The commitment of a claimed deposit is one of a deposit that the vault accepted. -/
def Committed (deposits : List AcceptedDeposit) (record : VaultDeposit) : Prop :=
  ∃ deposit ∈ deposits, record.depositId = deposit.depositId

theorem Committed.mono {early late : List AcceptedDeposit} {record : VaultDeposit}
    (committed : Committed early record) (grows : early <+: late) : Committed late record := by
  obtain ⟨deposit, member, identified⟩ := committed
  exact ⟨deposit, grows.subset member, identified⟩

/-- What stands in a vault's storage at a state root was committed. -/
theorem committed_of_proven {timeline : VaultTimeline env view vault first log}
    {priorState : MintControllerState} {finality : EthereumFinalityWitness}
    {deposits : List VaultDeposit} (trie : TrieSound verifyProof content)
    (sound : FinalitySound verifier manifest content timeline) (self : vault.self = manifest.vault)
    (proven : ProvenBatch verifyProof verifier manifest priorState finality deposits) :
    ∀ record ∈ deposits, Committed (timeline.deposits finality.finalizedBeaconSlot) record := by
  intro record member
  obtain ⟨proof, finalized⟩ := proven.finalized
  obtain ⟨account, accountProven, each⟩ := proven.stored
  obtain ⟨nonzero, nodes, slotProven⟩ := each record member
  obtain ⟨real, stands, slots⟩ := sound _ _ _ finalized
  have held := trie _ _ _ _ accountProven
  rw [← self, stands, Option.some.injEq] at held
  have slot := trie _ _ _ _ slotProven
  rw [← rlpAccount_storageRoot held] at slot
  obtain ⟨stored, -, present, value⟩ := slots record.nonce _ slot
  have identified : record.depositId = _ := rlpNumber_inj value
  have commitments := (timeline.invariant finality.finalizedBeaconSlot).recorded.commitments stored
  rw [commitments] at identified present
  cases found : (timeline.deposits finality.finalizedBeaconSlot)[stored.toNat]? with
  | none =>
    rw [VaultTimeline.deposits] at found
    rw [found] at present
    exact absurd rfl present
  | some deposit =>
    refine ⟨deposit, List.mem_of_getElem? found, ?_⟩
    rw [VaultTimeline.deposits] at found
    rw [identified, found]
    rfl

/-- A run keeps its accounts, and claims only what the vault had accepted. -/
theorem InboundRun.accounts {timeline : VaultTimeline env view vault first log}
    {claimed : List VaultDeposit} {outputs : List MintOutput} {state : MintControllerState}
    (trie : TrieSound verifyProof content)
    (sound : FinalitySound verifier manifest content timeline) (self : vault.self = manifest.vault)
    (start : manifest.firstDepositNonce = 0)
    (run : InboundRun verifyProof verifier manifest claimed outputs state) :
    ClaimAccounts manifest claimed outputs state ∧
      ∀ record ∈ claimed, Committed (timeline.deposits state.finalizedBeaconSlot) record := by
  induction run with
  | start =>
    have zero : manifest.initialControllerState.nextMintNonce.toNat = 0 := by
      change manifest.firstDepositNonce.toNat = 0
      rw [start]
      rfl
    exact ⟨⟨rfl, by simp, rfl, zero, rfl⟩, by simp⟩
  | @deposits claimed outputs claim proof journal output _ _ accepted ih =>
    obtain ⟨accounts, committed⟩ := ih
    obtain ⟨law, verified⟩ := depositOutput_eq_ok.mp accepted
    have built := MintBatch.fromDeposits_eq_ok.mp law.batch
    have proven := ethereumInboundVerifier_deposits verified
    have consecutive := built.consecutive
    rw [law.step.nonce, accounts.next] at consecutive
    refine ⟨{
      outputs := ?_
      each := ?_
      nonces := ?_
      next := ?_
      total := ?_ }, ?_⟩
    · rw [accounts.outputs, built.outputs, List.map_append]
    · intro record member
      rcases List.mem_append.mp member with old | new
      · exact accounts.each record old
      · obtain ⟨chain, target, -⟩ := law.targets record new
        exact ⟨built.each record new, chain, target⟩
    · rw [List.map_append, accounts.nonces, consecutive, List.length_append,
        List.range_eq_range', List.range_eq_range']
      have joined := @List.range'_append_1 0 claimed.length claim.deposits.length
      rwa [Nat.zero_add] at joined
    · rw [law.step.nextNonce, built.next, law.step.nonce, accounts.next, List.length_append]
    · have sums : MintBatch.usdtSum output.mintBatch.outputs =
          (claim.deposits.map fun record => record.usdtAmountMicro.toNat).sum := by
        rw [built.outputs, MintBatch.usdtSum, List.map_map]
        rfl
      rw [law.step.total, accounts.total, law.step.batchValid.converted, built.usdt, sums,
        List.map_append, List.sum_append, Nat.mul_add]
    · intro record member
      rw [law.step.context.slot]
      rcases List.mem_append.mp member with old | new
      · exact (committed record old).mono (timeline.deposits_mono law.step.advance.slot_le)
      · exact committed_of_proven trie sound self proven record new
  | @heartbeat claimed outputs claim proof journal output _ _ accepted ih =>
    obtain ⟨accounts, committed⟩ := ih
    obtain ⟨step, -⟩ := heartbeatOutput_eq_ok accepted
    refine ⟨{
      outputs := accounts.outputs
      each := accounts.each
      nonces := accounts.nonces
      next := by rw [step.nextNonce, accounts.next]
      total := by rw [step.total, accounts.total] }, ?_⟩
    intro record member
    rw [step.context.slot]
    exact (committed record member).mono (timeline.deposits_mono step.advance.slot_le)

end Runs

section Histories

variable [Hashing] {vault : Vault} {manifest : ProtocolManifest}
  {deposits : List AcceptedDeposit} {claimed : List VaultDeposit}

omit [Hashing] in
/-- In a history the nonces below a number are the first ones. -/
theorem filter_below {start count : Nat}
    (nonces : deposits.map (fun deposit => deposit.nonce.toNat) =
      List.range' start deposits.length) :
    deposits.filter (fun deposit => deposit.nonce.toNat < start + count) =
      deposits.take count := by
  induction deposits generalizing start count with
  | nil => simp
  | cons deposit rest ih =>
    rw [List.map_cons, List.length_cons, List.range'_succ] at nonces
    obtain ⟨head, tail⟩ := List.cons.inj nonces
    cases count with
    | zero =>
      rw [List.take_zero, List.filter_eq_nil_iff]
      intro other member
      have listed : other.nonce.toNat ∈ List.range' start (rest.length + 1) := by
        rw [List.range'_succ, ← tail, ← head]
        rcases List.mem_cons.mp member with rfl | later
        · exact List.mem_cons_self
        · exact List.mem_cons_of_mem _ (List.mem_map_of_mem later)
      have bound := (List.mem_range'_1.mp listed).1
      simp only [Nat.add_zero, decide_eq_true_eq, Nat.not_lt]
      exact bound
    | succ count =>
      have inside : deposit.nonce.toNat < start + (count + 1) := by omega
      rw [List.filter_cons_of_pos (by simpa using inside), List.take_succ_cons, ← ih tail]
      congr 2
      funext other
      rw [Nat.add_right_comm, Nat.add_assoc]

omit [Hashing] in
/-- The deposits below a nonce are as many as the nonce. -/
theorem depositedBelow_eq {nonce : UInt64}
    (nonces : deposits.map (fun deposit => deposit.nonce.toNat) = List.range deposits.length) :
    depositedBelow deposits nonce = depositedBefore deposits nonce.toNat := by
  rw [List.range_eq_range'] at nonces
  have below := @filter_below deposits 0 nonce.toNat nonces
  simp only [Nat.zero_add] at below
  rw [depositedBelow, depositedBefore, ← below]
  rfl

/-- The bytes of a deposit's identifier determine what it is for. -/
theorem depositPreimage_inj {left right : VaultDeposit}
    (same : left.depositPreimage = right.depositPreimage) :
    left.usdt = right.usdt ∧ left.nonce = right.nonce ∧ left.depositor = right.depositor ∧
      left.usdtAmountMicro = right.usdtAmountMicro ∧
      left.elementsScriptHash = right.elementsScriptHash ∧ left.userSalt = right.userSalt := by
  have segments := flatten_inj (by simp) same
  simp only [List.cons.injEq, encode_fixed_inj, encode_u64_inj, true_and, and_true] at segments
  obtain ⟨_, _, usdt, nonce, depositor, amount, script, salt⟩ := segments
  exact ⟨usdt, nonce, depositor, amount, script, salt⟩

/-- A claimed deposit whose commitment was accepted is the record of that deposit. -/
theorem Committed.eq_record {record : VaultDeposit} (target : Matches manifest vault)
    (valid : ∀ deposit ∈ deposits, deposit.Valid vault)
    (free : NoDepositCollision (depositRecords manifest vault claimed deposits))
    (member : record ∈ claimed) (chain : record.ethereumChainId = manifest.ethereumChainId)
    (self : record.vault = manifest.vault) (committed : Committed deposits record) :
    ∃ deposit ∈ deposits, record = depositRecord manifest.ethereumChainId vault deposit := by
  obtain ⟨deposit, accepted, identified⟩ := committed
  have inClaims : record ∈ depositRecords manifest vault claimed deposits := .inl member
  have inHistory : depositRecord manifest.ethereumChainId vault deposit ∈
      depositRecords manifest vault claimed deposits := .inr ⟨deposit, accepted, rfl⟩
  rw [← depositRecord_id target.chainId (valid deposit accepted)] at identified
  have preimages := free ⟨record, inClaims, .inl rfl⟩ ⟨_, inHistory, .inl rfl⟩ identified
  obtain ⟨usdt, nonce, depositor, amount, scriptHash, salt⟩ := depositPreimage_inj preimages
  have script := free ⟨record, inClaims, .inr rfl⟩ ⟨_, inHistory, .inr rfl⟩ scriptHash
  refine ⟨deposit, accepted, ?_⟩
  cases record
  simp only [depositRecord, VaultDeposit.mk.injEq]
  exact ⟨chain, self.trans target.self.symm, usdt, nonce, depositor, amount, script, salt⟩

omit [Hashing] in
/-- Deposits claimed in order of their nonces are the first ones of the history. -/
theorem claimed_eq_take {chain : UInt64}
    (numbered : deposits.map (fun deposit => deposit.nonce.toNat) = List.range deposits.length)
    (nonces : claimed.map (fun record => record.nonce.toNat) = List.range claimed.length)
    (recorded : ∀ record ∈ claimed, ∃ deposit ∈ deposits,
      record = depositRecord chain vault deposit) :
    claimed = (deposits.take claimed.length).map (depositRecord chain vault) := by
  have placed : ∀ (index : Nat) (record : VaultDeposit), claimed[index]? = some record →
      ∃ deposit, deposits[index]? = some deposit ∧ record = depositRecord chain vault deposit := by
    intro index record stands
    obtain ⟨deposit, member, rfl⟩ := recorded record (List.mem_of_getElem? stands)
    have at_nonce := deposit_at_nonce numbered member
    have named := congrArg (fun numbers => numbers[index]?) nonces
    obtain ⟨inside, -⟩ := List.getElem?_eq_some_iff.mp stands
    simp only [List.getElem?_map, stands, Option.map_some, List.getElem?_range inside,
      Option.some.injEq] at named
    change deposit.nonce.toNat = index at named
    rw [named] at at_nonce
    exact ⟨deposit, at_nonce, rfl⟩
  apply List.ext_getElem?
  intro index
  by_cases inside : index < claimed.length
  · have stands := List.getElem?_eq_getElem inside
    obtain ⟨deposit, found, same⟩ := placed index _ stands
    rw [stands, List.getElem?_map, List.getElem?_take_of_lt inside, found, same]
    rfl
  · rw [List.getElem?_eq_none (Nat.not_lt.mp inside), List.getElem?_map,
      List.getElem?_take_eq_none (Nat.not_lt.mp inside)]
    rfl

theorem NoDepositCollision.mono {fewer : List AcceptedDeposit}
    (free : NoDepositCollision (depositRecords manifest vault claimed deposits))
    (among : fewer ⊆ deposits) :
    NoDepositCollision (depositRecords manifest vault claimed fewer) := by
  refine Set.InjOn.mono ?_ free
  rintro message ⟨record, member, preimage⟩
  refine ⟨record, ?_, preimage⟩
  rcases member with inClaims | ⟨deposit, accepted, rfl⟩
  · exact .inl inClaims
  · exact .inr ⟨deposit, among accepted, rfl⟩

omit [Hashing] in
/-- A longer history has deposited as much before a nonce, and no less altogether. -/
theorem depositedBefore_grows {early late : List AcceptedDeposit} {count : Nat}
    (grows : early <+: late) (within : count ≤ early.length) :
    depositedBefore early count = depositedBefore late count ∧
      depositedBefore early count ≤ (late.map fun deposit => deposit.amountUSDT6.toNat).sum := by
  obtain ⟨rest, rfl⟩ := grows
  have same : depositedBefore (early ++ rest) count = depositedBefore early count := by
    rw [depositedBefore, depositedBefore, List.take_append_of_le_length within]
  refine ⟨same.symm, ?_⟩
  have whole := congrArg (fun deposits : List AcceptedDeposit =>
    (deposits.map fun deposit => deposit.amountUSDT6.toNat).sum)
    (List.take_append_drop count (early ++ rest))
  simp only [List.map_append, List.sum_append] at whole
  rw [← same, depositedBefore]
  simp only [List.map_append, List.sum_append]
  omega

end Histories

section Soundness

variable [Hashing] {World Proof : Type} {env : Environment World TokenRequest CallResult}
  {view : VaultView World} {vault : Vault} {first last : World} {log : List VaultEntry}
  {storage : VaultStorage} {verifyProof : VerifyProof} {content : TrieContent}
  {verifier : EthereumFinalityTransitionVerifier Proof} {manifest : ProtocolManifest}
  {claimed : List VaultDeposit} {outputs : List MintOutput} {state : MintControllerState}

/-- Whatever claims are accepted, in whatever order, the controller mints what the vault's
history says. -/
theorem accepted_mints_sound (target : Matches manifest vault)
    (start : manifest.firstDepositNonce = 0)
    (history : Run env (vaultContract view vault) first .fresh log last storage)
    (timeline : VaultTimeline env view vault first log) (trie : TrieSound verifyProof content)
    (sound : FinalitySound verifier manifest content timeline)
    (free : NoDepositCollision
      (depositRecords manifest vault claimed (VaultHistory.ofLog log).deposits))
    (run : InboundRun verifyProof verifier manifest claimed outputs state) :
    MintSound timeline storage (VaultHistory.ofLog log).deposits outputs state := by
  obtain ⟨accounts, committed⟩ := run.accounts trie sound target.self start
  have whole : VaultInvariant vault log storage := VaultInvariant.fresh.run history
  have seen := (timeline.invariant state.finalizedBeaconSlot).sound
  have grows := timeline.deposits_within state.finalizedBeaconSlot
  have recorded : ∀ record ∈ claimed, ∃ deposit ∈ timeline.deposits state.finalizedBeaconSlot,
      record = depositRecord manifest.ethereumChainId vault deposit := by
    intro record member
    obtain ⟨-, chain, self⟩ := accounts.each record member
    exact (committed record member).eq_record target seen.deposits (free.mono grows.subset) member
      chain self
  have taken : claimed = ((timeline.deposits state.finalizedBeaconSlot).take claimed.length).map
      (depositRecord manifest.ethereumChainId vault) :=
    claimed_eq_take seen.nonces accounts.nonces recorded
  have within : claimed.length ≤ (timeline.deposits state.finalizedBeaconSlot).length := by
    have lengths := congrArg List.length taken
    rw [List.length_map, List.length_take] at lengths
    omega
  have amounts : (claimed.map fun record => record.usdtAmountMicro.toNat).sum =
      depositedBefore (timeline.deposits state.finalizedBeaconSlot) claimed.length := by
    rw [depositedBefore]
    conv_lhs => rw [taken]
    rw [List.map_map]
    rfl
  refine ⟨?_, ?_, ?_, ?_, ?_⟩
  · rw [accounts.outputs, accounts.next, ← accounts.nonces, MintBatch.nonces, List.map_map]
    rfl
  · intro output member
    rw [accounts.outputs] at member
    obtain ⟨record, inClaims, rfl⟩ := List.mem_map.mp member
    have base := VaultDeposit.usddAmountBase_toNat (accounts.each record inClaims).1
    obtain ⟨deposit, accepted, rfl⟩ := recorded record inClaims
    refine ⟨deposit, deposit_at_nonce whole.sound.nonces (grows.subset accepted), rfl, ?_, base,
      rfl⟩
    exact depositRecord_id target.chainId (seen.deposits deposit accepted)
  · rw [accounts.total, amounts, depositedBelow_eq whole.sound.nonces, accounts.next,
      (depositedBefore_grows grows within).1]
  · rw [accounts.total, amounts, whole.recorded.deposited]
    exact Nat.mul_le_mul_left 100 (depositedBefore_grows grows within).2
  · intro slot order
    have deposited := (timeline.invariant slot).recorded.deposited
    have bound := (depositedBefore_grows (timeline.deposits_mono order) within).2
    rw [accounts.total, amounts, deposited]
    exact Nat.mul_le_mul_left 100 bound

end Soundness

section Sample

variable [Hashing]

/-- The log and the storage after one deposit into the sample vault. -/
def sampleDeposits : List VaultEntry × Holdings × VaultStorage :=
  playVault (fun _ => false) [sampleDeposit 5] sampleHoldings .fresh

/-- That deposit, as the vault accepted it. -/
def sampleAccepted : AcceptedDeposit where
  nonce := 0
  depositor := .ofNat 20 0xc1
  amountUSDT6 := 5
  elementsScript := [0x51]
  userSalt := .zero
  depositId := sampleDeposits.2.2.depositCommitmentByNonce 0

/-- The record of that deposit. -/
def sampleRecord : VaultDeposit :=
  depositRecord sampleManifest.ethereumChainId sampleVault sampleAccepted

/-- The vault's account, with a root of its storage. -/
def sampleAccount : VaultAccountWitness where
  nonce := 1
  balanceBe := .ofNat 32 0
  storageRoot := .ofNat 32 0xf1
  codeHash := sampleManifest.vaultCodeHash
  proofNodes := [[0xf2]]

/-- Tries that hold the vault's account and its one commitment. -/
def sampleContent : TrieContent := fun root key =>
  if root = laterWitness.finalizedExecutionStateRoot then
    if key = keccak256 sampleVault.self.bytes then some (rlpAccount sampleAccount) else none
  else if root = sampleAccount.storageRoot ∧ key = commitmentPath 0 then
    some (rlpNumber sampleAccepted.depositId.toNat)
  else none

/-- A trie verifier that looks the value up. -/
def sampleVerifyProof : VerifyProof := fun root key value _ =>
  decide (sampleContent root key = some value)

/-- A finality verifier that knows one checkpoint. -/
def sampleFinalityVerifier : EthereumFinalityTransitionVerifier Unit where
  verifyFinalizedTransition _ _ finality _ :=
    if finality = laterWitness then .ok () else .error .rejected

/-- The claim of the deposit, from the first state of the controller. -/
def sampleInboundClaim : EthereumDepositClaim where
  manifestId := domainHash .manifest (encode sampleManifest)
  priorState := sampleManifest.initialControllerState
  finality := laterWitness
  deposits := [sampleRecord]

/-- The proof of the claim. -/
def sampleInboundProof : EthereumInboundProof Unit :=
  .deposit () ⟨sampleAccount, [⟨[[0xf3]]⟩]⟩

theorem sampleDeposits_run : Run .arbitrary (vaultContract (sampleView fun _ => false) sampleVault)
    sampleHoldings .fresh sampleDeposits.1 sampleDeposits.2.1 sampleDeposits.2.2 :=
  run_playVault _ _ _ _

/-- The sample vault at every slot: the deposit has been made. -/
def sampleTimeline : VaultTimeline .arbitrary (sampleView fun _ => false) sampleVault
    sampleHoldings sampleDeposits.1 where
  calls _ := sampleDeposits.1.length
  storage _ := sampleDeposits.2.2
  later _ := Nat.le_refl _
  ran _ := by
    rw [List.take_length]
    exact ⟨_, sampleDeposits_run⟩

theorem sampleContent_sound : TrieSound sampleVerifyProof sampleContent := by
  intro root key value nodes accepted
  simpa [sampleVerifyProof] using accepted

theorem sampleFinality_sound (present : sampleAccepted.depositId ≠ .zero) :
    FinalitySound sampleFinalityVerifier sampleManifest sampleContent sampleTimeline := by
  intro priorState finality proof accepted
  have known : finality = laterWitness := by
    simp only [sampleFinalityVerifier] at accepted
    split at accepted
    · assumption
    · cases accepted
  subst known
  refine ⟨sampleAccount, by simp only [sampleContent, ↓reduceIte], ?_⟩
  intro nonce value held
  have other : sampleAccount.storageRoot ≠ laterWitness.finalizedExecutionStateRoot := by decide
  simp only [sampleContent, other, ↓reduceIte, true_and] at held
  split at held
  · rename_i path
    exact ⟨0, path.symm, present, (Option.some.inj held).symm⟩
  · cases held

theorem sampleRecords_free
    (deposits : (VaultHistory.ofLog sampleDeposits.1).deposits = [sampleAccepted])
    (apart : hashBytes sampleRecord.depositPreimage ≠ hashBytes sampleRecord.elementsScript) :
    NoDepositCollision (depositRecords sampleManifest sampleVault [sampleRecord]
      (VaultHistory.ofLog sampleDeposits.1).deposits) := by
  have only : ∀ record ∈ depositRecords sampleManifest sampleVault [sampleRecord]
      (VaultHistory.ofLog sampleDeposits.1).deposits, record = sampleRecord := by
    rw [deposits]
    rintro record (claimed | ⟨deposit, member, rfl⟩)
    · exact List.mem_singleton.mp claimed
    · rw [List.mem_singleton.mp member, sampleRecord]
  rintro left ⟨leftRecord, inLeft, isLeft⟩ right ⟨rightRecord, inRight, isRight⟩ same
  rw [only leftRecord inLeft] at isLeft
  rw [only rightRecord inRight] at isRight
  rcases isLeft with rfl | rfl <;> rcases isRight with rfl | rfl
  · rfl
  · exact absurd same apart
  · exact absurd same.symm apart
  · rfl

/-- Where the claim of the deposit is accepted, it is a run. -/
theorem sampleInboundRun
    (accepted : (depositOutput (ethereumInboundVerifier sampleVerifyProof sampleFinalityVerifier)
      sampleManifest sampleInboundClaim sampleInboundProof).isOk = true)
    (written : (buildDepositJournal (ethereumInboundVerifier sampleVerifyProof
      sampleFinalityVerifier) sampleManifest sampleInboundClaim sampleInboundProof).isOk = true) :
    ∃ outputs state, outputs.length = 1 ∧ InboundRun sampleVerifyProof sampleFinalityVerifier
      sampleManifest [sampleRecord] outputs state := by
  cases output : depositOutput (ethereumInboundVerifier sampleVerifyProof sampleFinalityVerifier)
      sampleManifest sampleInboundClaim sampleInboundProof with
  | error error => simp [output, Except.isOk, Except.toBool] at accepted
  | ok made =>
    cases journal : buildDepositJournal (ethereumInboundVerifier sampleVerifyProof
        sampleFinalityVerifier) sampleManifest sampleInboundClaim sampleInboundProof with
    | error error => simp [journal, Except.isOk, Except.toBool] at written
    | ok written =>
      obtain ⟨law, -⟩ := depositOutput_eq_ok.mp output
      refine ⟨_, _, ?_, InboundRun.start.deposits journal output⟩
      rw [List.nil_append, (MintBatch.fromDeposits_eq_ok.mp law.batch).outputs, List.length_map]
      rfl

end Sample

/-- One deposit is made, claimed and minted. -/
theorem accepted_mints_sound_sample : letI := nonzeroSha256Hashing
    ∃ outputs state, outputs.length = 1 ∧ InboundRun sampleVerifyProof sampleFinalityVerifier
        sampleManifest [sampleRecord] outputs state ∧
      MintSound sampleTimeline sampleDeposits.2.2 (VaultHistory.ofLog sampleDeposits.1).deposits
        outputs state := by
  let hashing := nonzeroSha256Hashing
  have accepted : (depositOutput (ethereumInboundVerifier sampleVerifyProof
      sampleFinalityVerifier) sampleManifest sampleInboundClaim sampleInboundProof).isOk = true := by
    decide +kernel
  have written : (buildDepositJournal (ethereumInboundVerifier sampleVerifyProof
      sampleFinalityVerifier) sampleManifest sampleInboundClaim sampleInboundProof).isOk = true := by
    decide +kernel
  have deposits : (VaultHistory.ofLog sampleDeposits.1).deposits = [sampleAccepted] := by
    decide +kernel
  have present : sampleAccepted.depositId ≠ .zero := by decide +kernel
  have apart : hashBytes sampleRecord.depositPreimage ≠ hashBytes sampleRecord.elementsScript := by
    decide +kernel
  obtain ⟨outputs, state, minted, run⟩ := sampleInboundRun accepted written
  exact ⟨outputs, state, minted, run, accepted_mints_sound (matches_vaultFor sampleManifest) rfl
    sampleDeposits_run sampleTimeline sampleContent_sound (sampleFinality_sound present)
    (sampleRecords_free deposits apart) run⟩

end Usdd.Verif

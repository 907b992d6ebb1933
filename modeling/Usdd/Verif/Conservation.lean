import Usdd.Core.AuditLaws
import Usdd.Verif.ControllerRuns
import Usdd.Verif.VaultRuns
/-!
# The audit of both chains

The vault takes deposits and pays redemptions, the controller mints recorded deposits, holders
burn, and all of it may be interleaved in any order. Whatever the order, the lists that an
auditor reads off both chains are consistent and their totals conserve value, so that the audit
reports the vault's own liability as the backing.
-/
namespace Usdd.Verif

open Usdd.Foundation Usdd.Foundation.Attempts Usdd.Foundation.Reentrant Usdd.Core Usdd.Contracts
  Usdd.Spec

/-- The records of the deposits of a history. -/
def auditedDeposits (history : VaultHistory) : List AuditedDeposit :=
  history.deposits.map fun deposit => ⟨deposit.nonce, deposit.depositId, deposit.amountUSDT6⟩

/-- The records of the outputs that a controller minted. -/
def auditedMints (outputs : List MintOutput) : List AuditedMint :=
  outputs.map fun output => ⟨output.nonce, output.depositId, output.usddAmountBase⟩

/-- The records of the payouts of a history. -/
def auditedPayouts (history : VaultHistory) : List AuditedPayout :=
  history.payouts.map fun payout =>
    ⟨payout.claim.burnId, payout.claim.amountUSDT6, payout.claim.recipient⟩

/-- Where both chains stand: the vault in its world, with the calls made; the controller, with
the attempts it accepted; the burns appended. -/
structure CrossChain (World : Type) where
  world : World
  log : List VaultEntry
  storage : VaultStorage
  state : MintControllerState
  attempts : List (ControllerAttempt × MintControllerState)
  burns : List AuditedBurn

/-- An output is of a deposit of a history. -/
def OutputRecorded (history : VaultHistory) (output : MintOutput) : Prop :=
  ∃ deposit, history.deposits[output.nonce.toNat]? = some deposit ∧
    output.depositId = deposit.depositId ∧ output.usdtAmountMicro = deposit.amountUSDT6

/-- A burn that may be appended after some burns and mints. -/
structure Burnable (mints : List AuditedMint) (burns : List AuditedBurn) (burn : AuditedBurn) :
    Prop where
  index : burn.burnIndex.toNat = burns.length
  unique : burn.burnId ∉ burns.map AuditedBurn.burnId
  divisible : 100 ∣ burn.amountUsddBase.toNat
  positive : burn.amountUsddBase ≠ 0
  recipient : burn.recipient ≠ .zero
  supply : amountSum AuditedBurn.amountUsddBase burns + burn.amountUsddBase.toNat ≤
    amountSum AuditedMint.amountUsddBase mints

section Model

variable [Hashing] {World : Type}

/-- The states that both chains reach from a fresh vault and a controller, in any order of steps:
a change of the world between calls, a call of the vault, which may fail and whose payouts are
of appended burns, an attempt the controller accepts, which mints recorded deposits, and a burn. -/
inductive Interleaves (view : VaultView World) (vault : Vault)
    (env : Environment World TokenRequest CallResult) (first : World)
    (initial : MintControllerState) : CrossChain World → Prop
  | start : Interleaves view vault env first initial ⟨first, [], .fresh, initial, [], []⟩
  | drift {chains : CrossChain World} {world : World} :
    Interleaves view vault env first initial chains → env.drifts chains.world world →
    Interleaves view vault env first initial { chains with world }
  | call {chains : CrossChain World} (call : VaultCall)
      {final : Final World VaultStorage VaultError VaultResult} :
    Interleaves view vault env first initial chains →
    Finishes env (vaultContract view vault)
      (vaultContract view vault call chains.world chains.storage) final →
    (∀ payout ∈ auditedPayouts (VaultHistory.ofLog [(call, final.outcome)]),
      payout.Of chains.burns) →
    Interleaves view vault env first initial { chains with
      world := final.worldAfter chains.world
      log := chains.log ++ [(call, final.outcome)]
      storage := final.storageAfter chains.storage }
  | attempt {chains : CrossChain World} (attempt : ControllerAttempt)
      {next : MintControllerState} :
    Interleaves view vault env first initial chains →
    attempt.apply chains.state = .ok next →
    (∀ output ∈ attempt.outputs, OutputRecorded (VaultHistory.ofLog chains.log) output) →
    Interleaves view vault env first initial { chains with
      state := next
      attempts := chains.attempts ++ [(attempt, next)] }
  | burn {chains : CrossChain World} (burn : AuditedBurn) :
    Interleaves view vault env first initial chains →
    Burnable (auditedMints (minted chains.attempts)) chains.burns burn →
    Interleaves view vault env first initial { chains with burns := chains.burns ++ [burn] }

end Model

section Records

theorem auditedDeposits_append (before after : List VaultEntry) :
    auditedDeposits (VaultHistory.ofLog (before ++ after)) =
      auditedDeposits (VaultHistory.ofLog before) ++
        auditedDeposits (VaultHistory.ofLog after) := by
  rw [VaultHistory.ofLog_append, auditedDeposits, List.map_append, auditedDeposits, auditedDeposits]

theorem auditedPayouts_append (before after : List VaultEntry) :
    auditedPayouts (VaultHistory.ofLog (before ++ after)) =
      auditedPayouts (VaultHistory.ofLog before) ++
        auditedPayouts (VaultHistory.ofLog after) := by
  rw [VaultHistory.ofLog_append, auditedPayouts, List.map_append, auditedPayouts, auditedPayouts]

/-- The record of a valid output of a recorded deposit is a mint of its record. -/
theorem OutputRecorded.audited {history : VaultHistory} {output : MintOutput}
    (recorded : OutputRecorded history output) (valid : output.Valid) :
    AuditedMint.Of ⟨output.nonce, output.depositId, output.usddAmountBase⟩
      (auditedDeposits history) := by
  obtain ⟨deposit, stands, same, amount⟩ := recorded
  refine ⟨⟨deposit.nonce, deposit.depositId, deposit.amountUSDT6⟩, ?_, same, ?_⟩
  · simp [auditedDeposits, stands]
  · change output.usddAmountBase.toNat = 100 * deposit.amountUSDT6.toNat
    rw [← amount]
    exact valid.converted

/-- What a controller that started at nonce zero has minted. -/
structure MintedInOrder (attempts : List (ControllerAttempt × MintControllerState))
    (state : MintControllerState) : Prop where
  numbered : Numbered MintOutput.nonce (minted attempts)
  nonce : state.nextMintNonce.toNat = (minted attempts).length
  total : amountSum MintOutput.usddAmountBase (minted attempts) ≤ state.totalMintedUsddBase.toNat

/-- Numbers that continue a list of numbers. -/
theorem numbered_append {α : Type} {number : α → UInt64} {before after : List α}
    (numbered : Numbered number before)
    (follow : after.map (fun item => (number item).toNat) =
      List.range' before.length after.length) : Numbered number (before ++ after) := by
  rw [Numbered, List.range_eq_range'] at numbered ⊢
  rw [List.map_append, numbered, follow, List.length_append]
  have joined := @List.range'_append_1 0 before.length after.length
  rwa [Nat.zero_add] at joined

/-- Controllers mint consecutive nonces and count what they mint. -/
theorem MintedInOrder.run {initial state : MintControllerState}
    {attempts : List (ControllerAttempt × MintControllerState)}
    (run : Reaches ControllerAttempt.apply initial attempts state)
    (zero : initial.nextMintNonce = 0) : MintedInOrder attempts state := by
  refine run.invariant (I := MintedInOrder) ?_ ?_
  · exact ⟨rfl, by rw [zero]; rfl, Nat.zero_le _⟩
  · intro attempts state attempt next known accepted
    have step := attempt.step accepted
    have rate : amountSum MintOutput.usddAmountBase attempt.outputs =
        100 * MintBatch.usdtSum attempt.outputs := MintBatch.usddSum_of_valid step.outputs_valid
    have total := known.total
    constructor
    · rw [minted_concat]
      refine numbered_append known.numbered ?_
      rw [← known.nonce]
      exact step.nonces
    · rw [minted_concat, List.length_append, step.nextNonce, known.nonce]
    · rw [minted_concat, amountSum, List.map_append, List.sum_append, step.total]
      change amountSum MintOutput.usddAmountBase _ + amountSum MintOutput.usddAmountBase _ ≤ _
      omega

end Records

section Runs

variable [Hashing] {World : Type} {view : VaultView World} {vault : Vault}
  {env : Environment World TokenRequest CallResult} {first : World}
  {initial : MintControllerState} {chains : CrossChain World}

/-- The vault's side of an interleaving is a run of the vault. -/
theorem Interleaves.run (reached : Interleaves view vault env first initial chains) :
    Run env (vaultContract view vault) first .fresh chains.log chains.world chains.storage := by
  induction reached with
  | start => exact .start _ _
  | drift _ drifted ih => exact .drift ih drifted
  | call call _ done _ ih => exact .call call ih done
  | attempt _ _ _ _ ih => exact ih
  | burn _ _ _ ih => exact ih

/-- The controller's side of an interleaving is a run of the controller. -/
theorem Interleaves.reaches (reached : Interleaves view vault env first initial chains) :
    Reaches ControllerAttempt.apply initial chains.attempts chains.state := by
  induction reached with
  | start => exact .start
  | drift _ _ ih => exact ih
  | call _ _ _ _ ih => exact ih
  | attempt attempt _ accepted _ ih => exact .accept ih accepted
  | burn _ _ _ ih => exact ih

/-- How the lists of both chains agree, after any interleaving. -/
structure Books (chains : CrossChain World) : Prop where
  minted : ∀ mint ∈ auditedMints (minted chains.attempts),
    mint.Of (auditedDeposits (VaultHistory.ofLog chains.log))
  indices : Numbered AuditedBurn.burnIndex chains.burns
  unique : (chains.burns.map AuditedBurn.burnId).Nodup
  divisible : ∀ burn ∈ chains.burns, 100 ∣ burn.amountUsddBase.toNat
  recipients : ∀ burn ∈ chains.burns, burn.recipient ≠ .zero
  supply : amountSum AuditedBurn.amountUsddBase chains.burns ≤
    amountSum AuditedMint.amountUsddBase (auditedMints (Verif.minted chains.attempts))
  paid : ∀ payout ∈ auditedPayouts (VaultHistory.ofLog chains.log), payout.Of chains.burns

/-- The run law: each step of either chain keeps the books. -/
theorem Interleaves.books (reached : Interleaves view vault env first initial chains) :
    Books chains := by
  induction reached with
  | start =>
    constructor
    · simp [auditedMints, minted]
    · rfl
    · exact List.nodup_nil
    · simp
    · simp
    · exact Nat.zero_le _
    · simp [auditedPayouts]
  | drift _ _ ih =>
    obtain ⟨minted, indices, unique, divisible, recipients, supply, paid⟩ := ih
    exact ⟨minted, indices, unique, divisible, recipients, supply, paid⟩
  | call call _ _ pays ih =>
    obtain ⟨minted, indices, unique, divisible, recipients, supply, paid⟩ := ih
    refine ⟨?_, indices, unique, divisible, recipients, supply, ?_⟩
    · intro mint member
      rw [auditedDeposits_append]
      exact (minted mint member).append _
    · intro payout member
      rw [auditedPayouts_append, List.mem_append] at member
      rcases member with old | new
      · exact paid payout old
      · exact pays payout new
  | attempt attempt earlier accepted recorded ih =>
    obtain ⟨known, indices, unique, divisible, recipients, supply, paid⟩ := ih
    have step := attempt.step accepted
    refine ⟨?_, indices, unique, divisible, recipients, ?_, paid⟩
    · intro mint member
      rw [minted_concat, auditedMints, List.map_append, List.mem_append] at member
      rcases member with old | new
      · exact known mint old
      · obtain ⟨output, listed, rfl⟩ := List.mem_map.mp new
        exact (recorded output listed).audited (step.outputs_valid output listed)
    · refine Nat.le_trans supply ?_
      simp [amountSum, auditedMints]
  | burn burn _ allowed ih =>
    obtain ⟨minted, indices, unique, divisible, recipients, supply, paid⟩ := ih
    constructor
    · exact minted
    · exact numbered_concat.mpr ⟨indices, allowed.index⟩
    · exact nodup_map_concat.mpr ⟨unique, allowed.unique⟩
    · exact forall_mem_concat.mpr ⟨divisible, allowed.divisible⟩
    · exact forall_mem_concat.mpr ⟨recipients, allowed.recipient⟩
    · rw [amountSum_concat]
      exact allowed.supply
    · intro payout member
      exact (paid payout member).append _

/-- The lists of an interleaving are consistent, and their totals conserve value. -/
theorem Interleaves.conserved (reached : Interleaves view vault env first initial chains)
    (zero : initial.nextMintNonce = 0)
    (depositIds : ((VaultHistory.ofLog chains.log).deposits.map
      AcceptedDeposit.depositId).Nodup)
    (fits : (VaultHistory.ofLog chains.log).deposited < 2 ^ 64)
    (burnIds : ∀ burn ∈ chains.burns, burn.burnId ≠ .zero) {actual recorded : UInt64}
    (backing : recorded.toNat = chains.storage.principalLiabilityUSDT6.toNat)
    (reserve : recorded.toNat ≤ actual.toNat) :
    Conserved actual recorded (auditedDeposits (VaultHistory.ofLog chains.log))
      (auditedMints (minted chains.attempts)) chains.burns
      (auditedPayouts (VaultHistory.ofLog chains.log)) := by
  have invariant : VaultInvariant vault chains.log chains.storage :=
    VaultInvariant.fresh.run reached.run
  obtain ⟨sound, recordedBy⟩ := invariant
  have books := reached.books
  have order := MintedInOrder.run reached.reaches zero
  have deposited : amountSum AuditedDeposit.amountUsdtMicro
      (auditedDeposits (VaultHistory.ofLog chains.log)) =
      (VaultHistory.ofLog chains.log).deposited := by
    rw [amountSum, auditedDeposits, List.map_map]
    rfl
  have redeemed : amountSum AuditedPayout.amountUsdtMicro
      (auditedPayouts (VaultHistory.ofLog chains.log)) =
      (VaultHistory.ofLog chains.log).redeemed := by
    rw [amountSum, auditedPayouts, List.map_map]
    rfl
  have mintedSum : amountSum AuditedMint.amountUsddBase (auditedMints (minted chains.attempts)) =
      amountSum MintOutput.usddAmountBase (minted chains.attempts) := by
    rw [amountSum, auditedMints, List.map_map]
    rfl
  have mintedFits : amountSum AuditedMint.amountUsddBase
      (auditedMints (minted chains.attempts)) < 2 ^ 64 := by
    have total := order.total
    have bound := chains.state.totalMintedUsddBase.toNat_lt
    omega
  have supply := books.supply
  have liability := recordedBy.liability
  constructor
  · constructor
    · rw [Numbered, auditedDeposits, List.map_map, List.length_map]
      exact sound.nonces
    · intro deposit member
      obtain ⟨accepted, listed, rfl⟩ := List.mem_map.mp member
      exact (sound.deposits accepted listed).depositId_ne
    · rw [auditedDeposits, List.map_map]
      exact depositIds
    · intro deposit member
      obtain ⟨accepted, listed, rfl⟩ := List.mem_map.mp member
      exact (sound.deposits accepted listed).amount_pos
    · rw [deposited]
      exact fits
  · constructor
    · rw [Numbered, auditedMints, List.map_map, List.length_map]
      exact order.numbered
    · exact books.minted
    · exact mintedFits
  · exact ⟨books.indices, burnIds, books.recipients, books.divisible, books.unique,
      Nat.lt_of_le_of_lt supply mintedFits⟩
  · constructor
    · intro payout member
      obtain ⟨accepted, listed, rfl⟩ := List.mem_map.mp member
      exact (sound.payouts accepted listed).burnId_ne
    · intro payout member
      obtain ⟨accepted, listed, rfl⟩ := List.mem_map.mp member
      exact (sound.payouts accepted listed).recipient_ne
    · rw [auditedPayouts, List.map_map]
      exact sound.distinct
    · exact books.paid
    · rw [redeemed]
      exact Nat.lt_of_le_of_lt sound.covered fits
  · exact supply
  · rw [redeemed, deposited, backing]
    exact liability
  · exact reserve

/-- Whatever the order of the steps, the audit of the lists of both chains returns, and reports
the liability as the expected and the recorded backing, and the minted supply that was not
burned as circulating. -/
theorem interleavings_audited (reached : Interleaves view vault env first initial chains)
    (zero : initial.nextMintNonce = 0)
    (depositIds : ((VaultHistory.ofLog chains.log).deposits.map
      AcceptedDeposit.depositId).Nodup)
    (fits : (VaultHistory.ofLog chains.log).deposited < 2 ^ 64)
    (burnIds : ∀ burn ∈ chains.burns, burn.burnId ≠ .zero) {actual recorded : UInt64}
    {balance : Uint256}
    (held : reportedBalance view.balances chains.world vault.usdt vault.self = some balance)
    (actually : actual.toNat = balance.toNat)
    (backing : recorded.toNat = chains.storage.principalLiabilityUSDT6.toNat)
    (solvent : Solvent view vault chains.world chains.storage.principalLiabilityUSDT6.toNat) :
    ∃ snapshot report,
      reconstructAuditSnapshot actual recorded (auditedDeposits (VaultHistory.ofLog chains.log))
        (auditedMints (minted chains.attempts)) chains.burns
        (auditedPayouts (VaultHistory.ofLog chains.log)) = .ok (snapshot, report) ∧
      report.expectedBackingUsdtMicro = chains.storage.principalLiabilityUSDT6.toNat ∧
      report.recordedBackingUsdtMicro = chains.storage.principalLiabilityUSDT6.toNat ∧
      report.circulatingUsddBase =
        amountSum MintOutput.usddAmountBase (minted chains.attempts) -
          amountSum AuditedBurn.amountUsddBase chains.burns := by
  obtain ⟨reserve, found, covered⟩ := solvent
  obtain rfl := Option.some.inj (found.symm.trans held)
  have conserved := reached.conserved zero depositIds fits burnIds backing
    (show recorded.toNat ≤ actual.toNat by omega)
  obtain ⟨snapshot, report, audited, exact⟩ := conserved.audited
  refine ⟨snapshot, report, audited, exact.expected.trans backing, exact.backed.trans backing, ?_⟩
  rw [exact.circulating, amountSum, auditedMints, List.map_map]
  rfl

end Runs

section Sample

variable [Hashing]

/-- The sample vault after a deposit of five micro-USDT. -/
def depositedVault : List VaultEntry × Holdings × VaultStorage :=
  playVault (fun _ => false) [sampleDeposit 5] sampleHoldings .fresh

/-- The output that mints the deposit. -/
def depositedOutput : MintOutput where
  depositId := depositedVault.2.2.depositCommitmentByNonce 0
  nonce := 0
  usdtAmountMicro := 5
  usddAmountBase := 500
  elementsScript := [0x51]

/-- The mint of the deposit. -/
def depositedMint : ControllerAttempt :=
  .mint ⟨0, 1, [depositedOutput], 5, 500⟩ (sampleFinality 16 100)

/-- The sample controller before its first mint. -/
def unusedController : MintControllerState := { sampleController with nextMintNonce := 0 }

/-- A burn of the whole supply. -/
def wholeBurn (burnId : Hash32) : AuditedBurn := ⟨0, burnId, 500, .ofNat 20 0xc2⟩

/-- The state of both chains after a deposit, its mint and its burn. -/
def depositedChains (burnId : Hash32) (next : MintControllerState) : CrossChain Holdings where
  world := depositedVault.2.1
  log := depositedVault.1
  storage := depositedVault.2.2
  state := next
  attempts := [(depositedMint, next)]
  burns := [wholeBurn burnId]

/-- A deposit, its mint and its burn are an interleaving. -/
theorem depositedChains_reached {next : MintControllerState} (burnId : Hash32)
    (accepted : depositedMint.apply unusedController = .ok next)
    (deposits : (VaultHistory.ofLog depositedVault.1).deposits =
      [⟨0, .ofNat 20 0xc1, 5, [0x51], .zero, depositedOutput.depositId⟩]) :
    Interleaves (sampleView fun _ => false) sampleVault .arbitrary sampleHoldings
      unusedController (depositedChains burnId next) := by
  have done : Finishes .arbitrary (vaultContract (sampleView fun _ => false) sampleVault)
      (vaultContract (sampleView fun _ => false) sampleVault (sampleDeposit 5) sampleHoldings
        .fresh)
      ((vaultContract (sampleView fun _ => false) sampleVault (sampleDeposit 5) sampleHoldings
        .fresh).runWith (plainToken sampleVault.self)) :=
    finishes_runWith (fun _ _ => trivial) (fun _ _ => trivial) _
  have called : Interleaves (sampleView fun _ => false) sampleVault .arbitrary sampleHoldings
      unusedController ⟨depositedVault.2.1, depositedVault.1, depositedVault.2.2,
        unusedController, [], []⟩ :=
    .call (sampleDeposit 5) .start done
      (by simp [auditedPayouts, VaultHistory.ofLog, payoutOf, sampleDeposit])
  have recorded : ∀ output ∈ depositedMint.outputs,
      OutputRecorded (VaultHistory.ofLog depositedVault.1) output := by
    intro output listed
    obtain rfl : output = depositedOutput := List.mem_singleton.mp listed
    exact ⟨_, by rw [deposits]; rfl, rfl, rfl⟩
  have allowed : Burnable (auditedMints (minted [(depositedMint, next)])) []
      (wholeBurn burnId) := by
    constructor
    · rfl
    · exact List.not_mem_nil
    · exact ⟨5, rfl⟩
    · exact (by decide : (500 : UInt64) ≠ 0)
    · exact (by decide : FixedBytes.ofNat 20 0xc2 ≠ EthAddress.zero)
    · exact Nat.le_refl 500
  exact .burn (wholeBurn burnId) (.attempt depositedMint called accepted recorded) allowed

end Sample

/-- What is evaluated of the sample. -/
theorem depositedVault_facts : letI := nonzeroSha256Hashing
    Succeeds (depositedMint.apply unusedController) ∧
    (VaultHistory.ofLog depositedVault.1).deposits =
      [⟨0, .ofNat 20 0xc1, 5, [0x51], .zero, depositedOutput.depositId⟩] ∧
    depositedVault.2.2.principalLiabilityUSDT6 = 5 ∧ depositedVault.2.1 sampleVault.self = 5 := by
  let hashing := nonzeroSha256Hashing
  refine ⟨?_, ?_, ?_, ?_⟩
  · decide +kernel
  · decide +kernel
  · decide +kernel
  · decide +kernel

/-- What the audit of the sample assumes. -/
theorem depositedChains_assumptions (burnId : Hash32) (next : MintControllerState) :
    letI := nonzeroSha256Hashing
    let chains := depositedChains burnId next
    ((VaultHistory.ofLog chains.log).deposits.map AcceptedDeposit.depositId).Nodup ∧
    (VaultHistory.ofLog chains.log).deposited < 2 ^ 64 ∧
    reportedBalance (sampleView fun _ => false).balances chains.world sampleVault.usdt
      sampleVault.self = some 5 ∧
    (5 : UInt64).toNat = chains.storage.principalLiabilityUSDT6.toNat := by
  let hashing := nonzeroSha256Hashing
  obtain ⟨-, deposits, liability, held⟩ := depositedVault_facts
  simp only [depositedChains]
  refine ⟨?_, ?_, ?_, ?_⟩
  · rw [deposits]
    exact List.nodup_singleton _
  · rw [VaultHistory.deposited, deposits]
    decide
  · rw [reportedBalance_sampleView, held]
  · rw [liability]
    decide

/-- A deposit, its mint and its burn are audited. -/
theorem interleavings_audited_sample : letI := nonzeroSha256Hashing
    ∃ snapshot report,
      reconstructAuditSnapshot 5 5 (auditedDeposits (VaultHistory.ofLog depositedVault.1))
        (auditedMints [depositedOutput]) [wholeBurn (.ofNat 32 7)]
        (auditedPayouts (VaultHistory.ofLog depositedVault.1)) = .ok (snapshot, report) ∧
      report.expectedBackingUsdtMicro = 5 ∧ report.circulatingUsddBase = 0 := by
  let hashing := nonzeroSha256Hashing
  obtain ⟨⟨next, accepted⟩, deposits, -, -⟩ := depositedVault_facts
  obtain ⟨depositIds, fits, balance, backing⟩ :=
    depositedChains_assumptions (.ofNat 32 7) next
  have burnIds : ∀ burn ∈ [wholeBurn (.ofNat 32 7)], burn.burnId ≠ .zero := by decide
  have solvent : Solvent (sampleView fun _ => false) sampleVault
      (depositedChains (.ofNat 32 7) next).world
      (depositedChains (.ofNat 32 7) next).storage.principalLiabilityUSDT6.toNat := by
    refine ⟨5, balance, ?_⟩
    rw [← backing]
    decide
  have same : (5 : UInt64).toNat = (5 : Uint256).toNat := by decide
  obtain ⟨snapshot, report, audited, expected, _, circulating⟩ := interleavings_audited
    (depositedChains_reached (.ofNat 32 7) accepted deposits) rfl depositIds fits burnIds balance
    same backing solvent
  have burned : amountSum MintOutput.usddAmountBase
        (minted (depositedChains (.ofNat 32 7) next).attempts) -
      amountSum AuditedBurn.amountUsddBase (depositedChains (.ofNat 32 7) next).burns = 0 := by
    simp [amountSum, depositedChains, minted, depositedMint, ControllerAttempt.outputs,
      depositedOutput, wholeBurn]
  exact ⟨snapshot, report, audited, expected.trans backing.symm, circulating.trans burned⟩

/-- An auditor does not accept a burn whose identifier is zero. -/
theorem zero_burn_refused : letI := nonzeroSha256Hashing
    ¬∀ (chains : CrossChain Holdings) (actual recorded : UInt64) (balance : Uint256),
      Interleaves (sampleView fun _ => false) sampleVault .arbitrary sampleHoldings
        unusedController chains →
      ((VaultHistory.ofLog chains.log).deposits.map AcceptedDeposit.depositId).Nodup →
      (VaultHistory.ofLog chains.log).deposited < 2 ^ 64 →
      reportedBalance (sampleView fun _ => false).balances chains.world sampleVault.usdt
        sampleVault.self = some balance →
      actual.toNat = balance.toNat →
      recorded.toNat = chains.storage.principalLiabilityUSDT6.toNat →
      chains.storage.principalLiabilityUSDT6.toNat ≤ balance.toNat →
      Succeeds (reconstructAuditSnapshot actual recorded
        (auditedDeposits (VaultHistory.ofLog chains.log)) (auditedMints (minted chains.attempts))
        chains.burns (auditedPayouts (VaultHistory.ofLog chains.log))) := by
  let hashing := nonzeroSha256Hashing
  intro claimed
  obtain ⟨⟨next, accepted⟩, deposits, -, -⟩ := depositedVault_facts
  obtain ⟨depositIds, fits, balance, backing⟩ := depositedChains_assumptions .zero next
  have same : (5 : UInt64).toNat = (5 : Uint256).toNat := by decide
  obtain ⟨result, audited⟩ := claimed (depositedChains .zero next) 5 5 5
    (depositedChains_reached .zero accepted deposits) depositIds fits balance same backing
    (backing.symm.trans same).le
  have listed : BurnsListed [wholeBurn .zero] := burnsListed_of_audited audited
  exact listed.ids_ne _ (List.mem_singleton_self _) rfl

end Usdd.Verif

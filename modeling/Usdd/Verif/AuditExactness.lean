import Usdd.Core.AuditLaws
/-!
# What the audit accepts

A snapshot verifies exactly where it conserves value, and its report is exact. An audit of lists
succeeds exactly on consistent histories: once the loops over the lists have passed, only the
burned supply, the recorded backing and the reserve can still be wrong.
-/
namespace Usdd.Verif

open Usdd.Foundation Usdd.Core

section Snapshots

/-- A snapshot verifies exactly where its supplies convert, its partitions add up and the backing
is recorded and held; the report is exact, and the two later checks of the backing never fail. -/
theorem auditSnapshot_verify_exact (snapshot : AuditSnapshot) :
    (Succeeds snapshot.verify ↔
      100 ∣ snapshot.totalMintedUsddBase.toNat ∧ 100 ∣ snapshot.totalBurnedUsddBase.toNat ∧
      snapshot.totalBurnedUsddBase.toNat / 100 ≤ snapshot.totalMintedUsddBase.toNat / 100 ∧
      snapshot.totalPaidUsdtMicro.toNat ≤ snapshot.totalDepositedUsdtMicro.toNat ∧
      snapshot.totalDepositedUsdtMicro.toNat =
        snapshot.totalMintedUsddBase.toNat / 100 + snapshot.depositsUnmintedUsdtMicro.toNat ∧
      snapshot.totalBurnedUsddBase.toNat / 100 =
        snapshot.totalPaidUsdtMicro.toNat + snapshot.burnsUnpaidUsdtMicro.toNat ∧
      snapshot.recordedBackingUsdtMicro.toNat =
        snapshot.totalDepositedUsdtMicro.toNat - snapshot.totalPaidUsdtMicro.toNat ∧
      snapshot.totalDepositedUsdtMicro.toNat - snapshot.totalPaidUsdtMicro.toNat ≤
        snapshot.actualVaultUsdtMicro.toNat) ∧
    (∀ report, snapshot.verify = .ok report →
      report.expectedBackingUsdtMicro = snapshot.recordedBackingUsdtMicro.toNat ∧
      report.recordedBackingUsdtMicro = snapshot.recordedBackingUsdtMicro.toNat ∧
      snapshot.recordedBackingUsdtMicro.toNat =
        snapshot.totalMintedUsddBase.toNat / 100 - snapshot.totalBurnedUsddBase.toNat / 100 +
          snapshot.depositsUnmintedUsdtMicro.toNat + snapshot.burnsUnpaidUsdtMicro.toNat ∧
      report.physicalSurplusUsdtMicro + snapshot.recordedBackingUsdtMicro.toNat =
        snapshot.actualVaultUsdtMicro.toNat ∧
      report.circulatingUsddBase + snapshot.totalBurnedUsddBase.toNat =
        snapshot.totalMintedUsddBase.toNat ∧
      report.circulatingUsddBase < 2 ^ 128) ∧
    snapshot.verify ≠ .error .conservationUnderflow ∧
    (∀ expected actual, snapshot.verify = .error (.recordedBackingMismatch expected actual) →
      snapshot.totalPaidUsdtMicro.toNat ≤ snapshot.totalDepositedUsdtMicro.toNat ∧
      expected = snapshot.totalDepositedUsdtMicro.toNat - snapshot.totalPaidUsdtMicro.toNat ∧
      actual = snapshot.recordedBackingUsdtMicro.toNat ∧ expected ≠ actual) := by
  rw [snapshot.verify_eq]
  refine ⟨?_, ?_, ?_, ?_⟩
  · constructor
    · rintro ⟨report, verified⟩
      exact (verifyOutcome_eq_ok.mp verified).1
    · intro conserves
      exact ⟨snapshot.exactReport, verifyOutcome_eq_ok.mpr ⟨conserves, rfl⟩⟩
  · intro report verified
    obtain ⟨⟨mintedConverts, burnedConverts, burnedLe, paidLe, deposits, burns, recorded, held⟩,
      rfl⟩ := verifyOutcome_eq_ok.mp verified
    have minted := snapshot.totalMintedUsddBase.toNat_lt
    refine ⟨rfl, rfl, ?_, ?_, ?_, ?_⟩
    · omega
    · change snapshot.actualVaultUsdtMicro.toNat - snapshot.recordedBackingUsdtMicro.toNat +
        snapshot.recordedBackingUsdtMicro.toNat = snapshot.actualVaultUsdtMicro.toNat
      omega
    · change snapshot.totalMintedUsddBase.toNat - snapshot.totalBurnedUsddBase.toNat +
        snapshot.totalBurnedUsddBase.toNat = snapshot.totalMintedUsddBase.toNat
      omega
    · change snapshot.totalMintedUsddBase.toNat - snapshot.totalBurnedUsddBase.toNat < 2 ^ 128
      omega
  · exact verifyOutcome_no_underflow
  · intro expected actual failed
    exact verifyOutcome_mismatch failed

/-- A snapshot of two deposits, one of which is minted, and of a burn that is not paid yet. -/
theorem auditSnapshot_verify_exact_sample :
    Succeeds (AuditSnapshot.verify ⟨12, 10, 10, 0, 700, 300, 3, 3⟩) ∧
      AuditSnapshot.verify ⟨12, 10, 10, 0, 700, 300, 3, 4⟩ =
        .error (.burnPayoutPartitionMismatch 3 4) :=
  ⟨(auditSnapshot_verify_exact ⟨12, 10, 10, 0, 700, 300, 3, 3⟩).1.mpr (by decide), by decide⟩

end Snapshots

section Histories

variable {actual recorded : UInt64} {deposits : List AuditedDeposit} {mints : List AuditedMint}
  {burns : List AuditedBurn} {payouts : List AuditedPayout}

/-- A history that both chains agree on: the deposits and burns are numbered and distinct, the
mints follow the deposits, the payouts the burns, and the totals leave the recorded backing, which
the vault holds. -/
structure ConsistentHistory (actual recorded : UInt64) (deposits : List AuditedDeposit)
    (mints : List AuditedMint) (burns : List AuditedBurn) (payouts : List AuditedPayout) :
    Prop where
  depositsListed : DepositsListed deposits
  mintsListed : MintsListed deposits mints
  burnsListed : BurnsListed burns
  payoutIds : ∀ payout ∈ payouts, payout.burnId ≠ .zero
  payoutsDistinct : (payouts.map AuditedPayout.burnId).Nodup
  payoutsMatched : ∀ payout ∈ payouts, payout.Of burns
  payoutTotal : amountSum AuditedPayout.amountUsdtMicro payouts < 2 ^ 64
  burned_le : amountSum AuditedBurn.amountUsddBase burns ≤
    amountSum AuditedMint.amountUsddBase mints
  backed : recorded.toNat + amountSum AuditedPayout.amountUsdtMicro payouts =
    amountSum AuditedDeposit.amountUsdtMicro deposits
  reserve : recorded.toNat ≤ actual.toNat

/-- The recipients of payouts are those of burns, which are checked. -/
theorem ConsistentHistory.payoutsListed
    (history : ConsistentHistory actual recorded deposits mints burns payouts) :
    PayoutsListed burns payouts where
  ids_ne := history.payoutIds
  recipients_ne := by
    intro payout listed
    obtain ⟨burn, present, -, -, same⟩ := history.payoutsMatched payout listed
    rw [same]
    exact history.burnsListed.recipients_ne burn present
  distinct := history.payoutsDistinct
  matched := history.payoutsMatched
  total := history.payoutTotal

/-- A consistent history is audited, with the exact report on the exact sums. -/
theorem ConsistentHistory.audited
    (history : ConsistentHistory actual recorded deposits mints burns payouts) :
    ∃ snapshot : AuditSnapshot, snapshot.Of actual recorded deposits mints burns payouts ∧
      reconstructAuditSnapshot actual recorded deposits mints burns payouts =
        .ok (snapshot, snapshot.exactReport) := by
  obtain ⟨snapshot, totals, outcome⟩ := @reconstructAuditSnapshot_of_listed actual recorded _ _ _ _
    history.depositsListed history.mintsListed history.burnsListed history.payoutsListed
  have burnedLe := history.burned_le
  have backed := history.backed
  have reserve := history.reserve
  rw [if_neg (by omega), if_neg (by omega), if_neg (by omega)] at outcome
  exact ⟨snapshot, totals, outcome⟩

/-- An audit that succeeds is of a consistent history. -/
theorem ConsistentHistory.of_audited {result : AuditSnapshot × AuditReport}
    (audited : reconstructAuditSnapshot actual recorded deposits mints burns payouts =
      .ok result) : ConsistentHistory actual recorded deposits mints burns payouts := by
  obtain ⟨depositsListed, mintsListed, burnsListed, payoutsListed⟩ := listed_of_audited audited
  obtain ⟨snapshot, totals, outcome⟩ := @reconstructAuditSnapshot_of_listed actual recorded _ _ _ _
    depositsListed mintsListed burnsListed payoutsListed
  have mintedLe := mintsListed.le
  have paidLe := payoutsListed.le
  rw [audited] at outcome
  split_ifs at outcome with burnedMore unrecorded short
  exact ⟨depositsListed, mintsListed, burnsListed, payoutsListed.ids_ne, payoutsListed.distinct,
    payoutsListed.matched, payoutsListed.total, by omega, by omega, by omega⟩

/-- The audit succeeds exactly on consistent histories and then holds the exact sums. Once the
loops over the lists have passed, it fails only for more burned than minted, for a recorded backing
other than what was deposited and not paid, or for a reserve below that. -/
theorem reconstructAuditSnapshot_exact (actual recorded : UInt64) (deposits : List AuditedDeposit)
    (mints : List AuditedMint) (burns : List AuditedBurn) (payouts : List AuditedPayout) :
    (Succeeds (reconstructAuditSnapshot actual recorded deposits mints burns payouts) ↔
      ConsistentHistory actual recorded deposits mints burns payouts) ∧
    (∀ snapshot report,
      reconstructAuditSnapshot actual recorded deposits mints burns payouts =
        .ok (snapshot, report) →
      snapshot.Of actual recorded deposits mints burns payouts ∧
        report = snapshot.exactReport) ∧
    (∀ deposited totalMinted burned paid,
      foldIndexed auditDeposit 0 ⟨fun _ => none, [], 0⟩ deposits = .ok deposited →
      foldIndexed (auditMint deposited) 0 0 mints = .ok totalMinted →
      foldIndexed auditBurn 0 ⟨fun _ => none, 0⟩ burns = .ok burned →
      foldIndexed (auditPayout burned) 0 ⟨[], 0⟩ payouts = .ok paid →
      ∀ error, reconstructAuditSnapshot actual recorded deposits mints burns payouts =
        .error error →
      error = .burnExceedsMint ∨
      error = .recordedBackingMismatch (amountSum AuditedDeposit.amountUsdtMicro deposits -
          amountSum AuditedPayout.amountUsdtMicro payouts) recorded.toNat ∧
        amountSum AuditedDeposit.amountUsdtMicro deposits -
          amountSum AuditedPayout.amountUsdtMicro payouts ≠ recorded.toNat ∨
      error = .physicalReserveShortfall (amountSum AuditedDeposit.amountUsdtMicro deposits -
        amountSum AuditedPayout.amountUsdtMicro payouts) actual.toNat) := by
  refine ⟨⟨?_, ?_⟩, ?_, ?_⟩
  · rintro ⟨result, audited⟩
    exact .of_audited audited
  · intro history
    obtain ⟨snapshot, -, audited⟩ := history.audited
    exact ⟨_, audited⟩
  · intro snapshot report audited
    obtain ⟨snapshot', totals, audited'⟩ := (ConsistentHistory.of_audited audited).audited
    rw [audited, Except.ok.injEq, Prod.mk.injEq] at audited'
    obtain ⟨rfl, rfl⟩ := audited'
    exact ⟨totals, rfl⟩
  · intro deposited totalMinted burned paid depositsRan mintsRan burnsRan payoutsRan error failed
    have depositTable := depositLoop.holds depositsRan
    have burnTable := burnLoop.holds burnsRan
    obtain ⟨snapshot, -, outcome⟩ := @reconstructAuditSnapshot_of_listed actual recorded _ _ _ _
      ((depositLoop.succeeds deposits).mp ⟨deposited, depositsRan⟩)
      (((mintLoop depositTable).succeeds mints).mp ⟨totalMinted, mintsRan⟩)
      ((burnLoop.succeeds burns).mp ⟨burned, burnsRan⟩)
      (((payoutLoop burnTable).succeeds payouts).mp ⟨paid, payoutsRan⟩)
    rw [failed] at outcome
    split_ifs at outcome with burnedMore unrecorded short
    · exact .inl (Except.error.inj outcome)
    · exact .inr (.inl ⟨Except.error.inj outcome, unrecorded⟩)
    · exact .inr (.inr (Except.error.inj outcome))

/-- A deposit that is minted in full, of which a part is burned and paid. -/
theorem reconstructAuditSnapshot_exact_sample :
    Succeeds (reconstructAuditSnapshot 8 6 [⟨0, .ofNat 32 1, 10⟩] [⟨0, .ofNat 32 1, 1000⟩]
      [⟨0, .ofNat 32 2, 400, .ofNat 20 5⟩] [⟨.ofNat 32 2, 4, .ofNat 20 5⟩]) := by
  apply (reconstructAuditSnapshot_exact ..).1.mpr
  refine ⟨⟨rfl, by decide, by decide, by decide, by decide⟩, ⟨rfl, ?_, by decide⟩,
    ⟨rfl, by decide, by decide, by decide, by decide, by decide⟩,
    by decide, by decide, ?_, by decide, by decide, by decide, by decide⟩
  · intro mint listed
    rw [List.mem_singleton] at listed
    rw [listed]
    exact ⟨_, rfl, rfl, rfl⟩
  · intro payout listed
    rw [List.mem_singleton] at listed
    rw [listed]
    exact ⟨_, List.mem_singleton_self _, rfl, rfl, rfl⟩

end Histories

end Usdd.Verif

import Usdd.Core.Audit
/-!
# What the audit checks

Each loop of the audit accepts exactly the lists with one condition: `DepositsListed`,
`MintsListed`, `BurnsListed` and `PayoutsListed`. Lists with these conditions whose totals
conserve value are audited without an error, and the report is about their exact sums.
-/
namespace Usdd.Core

open Usdd.Foundation

/-- The numbers of a list count up from zero. -/
def Numbered {α : Type} (number : α → UInt64) (items : List α) : Prop :=
  items.map (fun item => (number item).toNat) = List.range items.length

/-- The exact sum of an amount over a list. -/
def amountSum {α : Type} (amount : α → UInt64) (items : List α) : Nat :=
  (items.map fun item => (amount item).toNat).sum

/-- What the deposit loop accepts. -/
structure DepositsListed (deposits : List AuditedDeposit) : Prop where
  nonces : Numbered AuditedDeposit.nonce deposits
  ids_ne : ∀ deposit ∈ deposits, deposit.depositId ≠ .zero
  distinct : (deposits.map AuditedDeposit.depositId).Nodup
  amounts : ∀ deposit ∈ deposits, deposit.amountUsdtMicro ≠ 0
  total : amountSum AuditedDeposit.amountUsdtMicro deposits < 2 ^ 64

/-- A mint is of the deposit of its nonce, at the exact rate. -/
def AuditedMint.Of (mint : AuditedMint) (deposits : List AuditedDeposit) : Prop :=
  ∃ deposit, deposits[mint.nonce.toNat]? = some deposit ∧ mint.depositId = deposit.depositId ∧
    mint.amountUsddBase.toNat = 100 * deposit.amountUsdtMicro.toNat

/-- What the mint loop accepts after a list of deposits. -/
structure MintsListed (deposits : List AuditedDeposit) (mints : List AuditedMint) : Prop where
  nonces : Numbered AuditedMint.nonce mints
  matched : ∀ mint ∈ mints, mint.Of deposits
  total : amountSum AuditedMint.amountUsddBase mints < 2 ^ 64

/-- What the burn loop accepts. -/
structure BurnsListed (burns : List AuditedBurn) : Prop where
  indices : Numbered AuditedBurn.burnIndex burns
  ids_ne : ∀ burn ∈ burns, burn.burnId ≠ .zero
  recipients_ne : ∀ burn ∈ burns, burn.recipient ≠ .zero
  convertible : ∀ burn ∈ burns, 100 ∣ burn.amountUsddBase.toNat
  distinct : (burns.map AuditedBurn.burnId).Nodup
  total : amountSum AuditedBurn.amountUsddBase burns < 2 ^ 64

/-- A payout is of a listed burn, at the exact rate and to its recipient. -/
def AuditedPayout.Of (payout : AuditedPayout) (burns : List AuditedBurn) : Prop :=
  ∃ burn ∈ burns, burn.burnId = payout.burnId ∧
    burn.amountUsddBase.toNat = 100 * payout.amountUsdtMicro.toNat ∧
    payout.recipient = burn.recipient

/-- What the payout loop accepts after a list of burns. -/
structure PayoutsListed (burns : List AuditedBurn) (payouts : List AuditedPayout) : Prop where
  ids_ne : ∀ payout ∈ payouts, payout.burnId ≠ .zero
  recipients_ne : ∀ payout ∈ payouts, payout.recipient ≠ .zero
  distinct : (payouts.map AuditedPayout.burnId).Nodup
  matched : ∀ payout ∈ payouts, payout.Of burns
  total : amountSum AuditedPayout.amountUsdtMicro payouts < 2 ^ 64

/-- A mint of a deposit stays one when deposits follow. -/
theorem AuditedMint.Of.append {mint : AuditedMint} {before : List AuditedDeposit}
    (found : mint.Of before) (after : List AuditedDeposit) : mint.Of (before ++ after) := by
  obtain ⟨deposit, stands, same, exact⟩ := found
  refine ⟨deposit, ?_, same, exact⟩
  rw [List.getElem?_append_left (List.getElem?_eq_some_iff.mp stands).1, stands]

/-- A payout of a burn stays one when burns follow. -/
theorem AuditedPayout.Of.append {payout : AuditedPayout} {before : List AuditedBurn}
    (found : payout.Of before) (after : List AuditedBurn) : payout.Of (before ++ after) := by
  obtain ⟨burn, member, paid⟩ := found
  exact ⟨burn, List.mem_append_left _ member, paid⟩

section Words

theorem wordOfPosition_eq_some {position : Nat} {word : UInt64} :
    wordOfPosition position = some word ↔ word.toNat = position := by
  unfold wordOfPosition
  split
  · rename_i fits
    have value : (UInt64.ofNat position).toNat = position := UInt64.toNat_ofNat_of_lt' fits
    rw [Option.some.injEq, ← UInt64.toNat_inj, value]
    exact eq_comm
  · have bound := word.toNat_lt
    simp only [reduceCtorEq, false_iff]
    omega

/-- A check of a number against a position. -/
theorem position_checked {position : Nat} {number : UInt64} :
    (∃ expected, wordOfPosition position = some expected ∧ number = expected) ↔
      number.toNat = position := by
  simp only [wordOfPosition_eq_some]
  constructor
  · rintro ⟨_, same, rfl⟩
    exact same
  · intro same
    exact ⟨number, same, rfl⟩

/-- A multiple of one hundred converts. -/
theorem usddBaseToUsdtMicro_of_dvd {base : UInt64} (divides : 100 ∣ base.toNat) :
    ∃ amount, usddBaseToUsdtMicro base = some amount := by
  obtain ⟨count, exact⟩ := divides
  have bound := base.toNat_lt
  have fits : count < 2 ^ 64 := by omega
  have value : (UInt64.ofNat count).toNat = count := UInt64.toNat_ofNat_of_lt' fits
  exact ⟨UInt64.ofNat count, usddBaseToUsdtMicro_eq_some.mpr (by rw [value, exact])⟩

theorem usddBaseToUsdtMicro_of_not_dvd {base : UInt64} (odd : ¬100 ∣ base.toNat) :
    usddBaseToUsdtMicro base = none := by
  cases converted : usddBaseToUsdtMicro base with
  | none => rfl
  | some amount => exact absurd ⟨_, usddBaseToUsdtMicro_eq_some.mp converted⟩ odd

theorem usddBaseToUsdtMicro_ne_none {base : UInt64} :
    usddBaseToUsdtMicro base ≠ none ↔ 100 ∣ base.toNat := by
  constructor
  · intro found
    obtain ⟨amount, converted⟩ := Option.ne_none_iff_exists'.mp found
    exact ⟨_, usddBaseToUsdtMicro_eq_some.mp converted⟩
  · intro divides
    obtain ⟨amount, converted⟩ := usddBaseToUsdtMicro_of_dvd divides
    rw [converted]
    exact Option.some_ne_none _

end Words

section Lists

variable {α : Type} {items : List α} {last : α}

@[simp]
theorem amountSum_nil (amount : α → UInt64) : amountSum amount [] = 0 := rfl

@[simp]
theorem amountSum_concat (amount : α → UInt64) (items : List α) (last : α) :
    amountSum amount (items ++ [last]) = amountSum amount items + (amount last).toNat := by
  simp [amountSum]

theorem numbered_concat {number : α → UInt64} :
    Numbered number (items ++ [last]) ↔
      Numbered number items ∧ (number last).toNat = items.length := by
  rw [Numbered, List.map_append, List.length_append, List.map_singleton, List.length_singleton,
    List.range_succ]
  constructor
  · intro same
    obtain ⟨early, final⟩ := List.append_inj' same rfl
    exact ⟨early, List.head_eq_of_cons_eq final⟩
  · rintro ⟨early, final⟩
    rw [final]
    exact congrArg (· ++ [items.length]) early

/-- A condition on every item, of a list with one more. -/
theorem forall_mem_concat {condition : α → Prop} :
    (∀ item ∈ items ++ [last], condition item) ↔
      (∀ item ∈ items, condition item) ∧ condition last := by
  rw [List.forall_mem_append, List.forall_mem_singleton]

/-- Distinct keys, of a list with one more. -/
theorem nodup_map_concat {β : Type} {key : α → β} :
    ((items ++ [last]).map key).Nodup ↔
      (items.map key).Nodup ∧ key last ∉ items.map key := by
  rw [List.map_append, List.map_singleton, ← List.concat_eq_append, List.nodup_concat, and_comm]

end Lists

section Deposits

variable {deposits : List AuditedDeposit} {deposit : AuditedDeposit} {table next : DepositTable}

/-- One more deposit. -/
theorem depositsListed_concat : DepositsListed (deposits ++ [deposit]) ↔
    DepositsListed deposits ∧ deposit.nonce.toNat = deposits.length ∧
      deposit.depositId ≠ .zero ∧ deposit.depositId ∉ deposits.map AuditedDeposit.depositId ∧
      deposit.amountUsdtMicro ≠ 0 ∧ amountSum AuditedDeposit.amountUsdtMicro deposits +
        deposit.amountUsdtMicro.toNat < 2 ^ 64 := by
  constructor
  · rintro ⟨nonces, ids, distinct, amounts, total⟩
    rw [numbered_concat] at nonces
    rw [forall_mem_concat] at ids amounts
    rw [nodup_map_concat] at distinct
    rw [amountSum_concat] at total
    exact ⟨⟨nonces.1, ids.1, distinct.1, amounts.1, Nat.lt_of_le_of_lt (Nat.le_add_right _ _) total⟩,
      nonces.2, ids.2, distinct.2, amounts.2, total⟩
  · rintro ⟨listed, nonce, id, fresh, amount, total⟩
    exact ⟨numbered_concat.mpr ⟨listed.nonces, nonce⟩, forall_mem_concat.mpr ⟨listed.ids_ne, id⟩,
      nodup_map_concat.mpr ⟨listed.distinct, fresh⟩,
      forall_mem_concat.mpr ⟨listed.amounts, amount⟩, by rwa [amountSum_concat]⟩

/-- What a table knows of the deposits so far. -/
structure DepositTable.Of (table : DepositTable) (deposits : List AuditedDeposit) : Prop where
  byNonce : ∀ nonce, table.byNonce nonce = deposits[nonce.toNat]?
  ids : ∀ id, id ∈ table.ids ↔ id ∈ deposits.map AuditedDeposit.depositId
  total : table.total.toNat = amountSum AuditedDeposit.amountUsdtMicro deposits

/-- The body of the deposit loop. -/
theorem auditDeposit_eq_ok {position : Nat} :
    auditDeposit position table deposit = .ok next ↔
      deposit.nonce.toNat = position ∧ deposit.depositId ≠ .zero ∧ deposit.depositId ∉ table.ids ∧
      deposit.amountUsdtMicro ≠ 0 ∧ ∃ total,
        checkedAdd table.total deposit.amountUsdtMicro = some total ∧
        next = ⟨Function.update table.byNonce deposit.nonce (some deposit),
          deposit.depositId :: table.ids, total⟩ := by
  rw [← position_checked]
  simp only [auditDeposit]
  simp only [↓then_eq_ok, bind_eq_ok, rejectIf_eq_ok, okOr_eq_ok, pure_eq_ok, ne_eq, not_not,
    List.contains_iff_mem]
  constructor
  · rintro ⟨expected, found, same, id, fresh, amount, total, added, rfl⟩
    exact ⟨⟨expected, found, same⟩, id, fresh, amount, total, added, rfl⟩
  · rintro ⟨⟨expected, found, same⟩, id, fresh, amount, total, added, rfl⟩
    exact ⟨expected, found, same, id, fresh, amount, total, added, rfl⟩

/-- The deposit loop accepts exactly the listed deposits. -/
theorem depositLoop :
    FoldLaw auditDeposit ⟨fun _ => none, [], 0⟩ (fun deposits table => table.Of deposits)
      DepositsListed where
  empty := ⟨rfl, by simp, List.nodup_nil, by simp, by simp⟩
  start := ⟨by simp, by simp, rfl⟩
  closed listed := (depositsListed_concat.mp listed).1
  accepts := by
    intro deposits table deposit listed known
    simp only [Succeeds, auditDeposit_eq_ok, depositsListed_concat, known.ids, ← known.total,
      ← checkedAdd_isSome]
    constructor
    · rintro ⟨_, nonce, id, fresh, amount, total, added, rfl⟩
      exact ⟨listed, nonce, id, fresh, amount, total, added⟩
    · rintro ⟨_, nonce, id, fresh, amount, total, added⟩
      exact ⟨_, nonce, id, fresh, amount, total, added, rfl⟩
  keeps := by
    intro deposits table deposit next known ran
    obtain ⟨position, _, _, _, total, added, rfl⟩ := auditDeposit_eq_ok.mp ran
    refine ⟨?_, ?_, ?_⟩
    · intro nonce
      by_cases same : nonce = deposit.nonce
      · subst same
        simp [position]
      · have apart : nonce.toNat ≠ deposits.length := by
          rw [← position]
          exact fun equal => same (UInt64.toNat_inj.mp equal)
        change Function.update table.byNonce deposit.nonce (some deposit) nonce = _
        rw [Function.update_of_ne same, known.byNonce]
        by_cases inside : nonce.toNat < deposits.length
        · rw [List.getElem?_append_left inside]
        · rw [List.getElem?_eq_none (by omega), List.getElem?_eq_none (by simp; omega)]
    · intro id
      simp [known.ids, or_comm]
    · rw [checkedAdd_eq_some.mp added, known.total, amountSum_concat]

end Deposits

section Mints

variable {deposits : List AuditedDeposit} {mints : List AuditedMint} {mint : AuditedMint}
  {table : DepositTable} {total next : UInt64}

/-- One more mint. -/
theorem mintsListed_concat : MintsListed deposits (mints ++ [mint]) ↔
    MintsListed deposits mints ∧ mint.nonce.toNat = mints.length ∧ mint.Of deposits ∧
      amountSum AuditedMint.amountUsddBase mints + mint.amountUsddBase.toNat < 2 ^ 64 := by
  constructor
  · rintro ⟨nonces, matched, total⟩
    rw [numbered_concat] at nonces
    rw [forall_mem_concat] at matched
    rw [amountSum_concat] at total
    exact ⟨⟨nonces.1, matched.1, Nat.lt_of_le_of_lt (Nat.le_add_right _ _) total⟩, nonces.2,
      matched.2, total⟩
  · rintro ⟨listed, nonce, found, total⟩
    exact ⟨numbered_concat.mpr ⟨listed.nonces, nonce⟩,
      forall_mem_concat.mpr ⟨listed.matched, found⟩, by rwa [amountSum_concat]⟩

/-- The body of the mint loop. -/
theorem auditMint_eq_ok {position : Nat} (known : table.Of deposits) :
    auditMint table position total mint = .ok next ↔
      mint.nonce.toNat = position ∧ mint.Of deposits ∧
        checkedAdd total mint.amountUsddBase = some next := by
  rw [← position_checked]
  simp only [auditMint]
  simp only [↓then_eq_ok, bind_eq_ok, rejectIf_eq_ok, okOr_eq_ok, ne_eq, not_not, not_or,
    known.byNonce, checkedMul_eq_some]
  have rate : usddUnitsPerUsdtMicro.toNat = 100 := rfl
  rw [rate]
  constructor
  · rintro ⟨expected, found, same, deposit, present, amount, exact, ⟨id, rfl⟩, added⟩
    exact ⟨⟨expected, found, same⟩, ⟨deposit, present, id, by omega⟩, added⟩
  · rintro ⟨⟨expected, found, same⟩, ⟨deposit, present, id, exact⟩, added⟩
    exact ⟨expected, found, same, deposit, present, mint.amountUsddBase, by omega, ⟨id, rfl⟩, added⟩

/-- The mint loop accepts exactly the listed mints. -/
theorem mintLoop (known : table.Of deposits) :
    FoldLaw (auditMint table) 0
      (fun mints total => total.toNat = amountSum AuditedMint.amountUsddBase mints)
      (MintsListed deposits) where
  empty := ⟨rfl, by simp, by simp⟩
  start := rfl
  closed listed := (mintsListed_concat.mp listed).1
  accepts := by
    intro mints total mint listed sum
    simp only [Succeeds, auditMint_eq_ok known, mintsListed_concat, ← sum, ← checkedAdd_isSome]
    constructor
    · rintro ⟨next, nonce, found, added⟩
      exact ⟨listed, nonce, found, next, added⟩
    · rintro ⟨_, nonce, found, next, added⟩
      exact ⟨next, nonce, found, added⟩
  keeps := by
    intro mints total mint next sum ran
    obtain ⟨_, _, added⟩ := (auditMint_eq_ok known).mp ran
    rw [checkedAdd_eq_some.mp added, sum, amountSum_concat]

/-- The mints consume the first deposits at the exact rate. -/
theorem MintsListed.sum (listed : MintsListed deposits mints) :
    amountSum AuditedMint.amountUsddBase mints =
      100 * amountSum AuditedDeposit.amountUsdtMicro (deposits.take mints.length) := by
  induction mints using List.reverseRecOn with
  | nil => rfl
  | append_singleton mints mint ih =>
    obtain ⟨earlier, nonce, ⟨deposit, found, _, exact⟩, _⟩ := mintsListed_concat.mp listed
    rw [nonce] at found
    rw [amountSum_concat, ih earlier, List.length_append, List.length_singleton,
      List.take_add_one, found, Option.toList_some, amountSum_concat, exact, Nat.mul_add]

theorem MintsListed.le (listed : MintsListed deposits mints) :
    amountSum AuditedMint.amountUsddBase mints ≤
      100 * amountSum AuditedDeposit.amountUsdtMicro deposits := by
  have split : amountSum AuditedDeposit.amountUsdtMicro deposits =
      amountSum AuditedDeposit.amountUsdtMicro (deposits.take mints.length) +
        amountSum AuditedDeposit.amountUsdtMicro (deposits.drop mints.length) := by
    rw [amountSum, amountSum, amountSum, ← List.sum_append, ← List.map_append,
      List.take_append_drop]
  rw [listed.sum, split]
  omega

end Mints

section Burns

variable {burns : List AuditedBurn} {burn : AuditedBurn} {table next : BurnTable}

/-- One more burn. -/
theorem burnsListed_concat : BurnsListed (burns ++ [burn]) ↔
    BurnsListed burns ∧ burn.burnIndex.toNat = burns.length ∧ burn.burnId ≠ .zero ∧
      burn.recipient ≠ .zero ∧ 100 ∣ burn.amountUsddBase.toNat ∧
      burn.burnId ∉ burns.map AuditedBurn.burnId ∧
      amountSum AuditedBurn.amountUsddBase burns + burn.amountUsddBase.toNat < 2 ^ 64 := by
  constructor
  · rintro ⟨indices, ids, recipients, convertible, distinct, total⟩
    rw [numbered_concat] at indices
    rw [forall_mem_concat] at ids recipients convertible
    rw [nodup_map_concat] at distinct
    rw [amountSum_concat] at total
    exact ⟨⟨indices.1, ids.1, recipients.1, convertible.1, distinct.1,
      Nat.lt_of_le_of_lt (Nat.le_add_right _ _) total⟩, indices.2, ids.2, recipients.2,
      convertible.2, distinct.2, total⟩
  · rintro ⟨listed, index, id, recipient, divides, fresh, total⟩
    exact ⟨numbered_concat.mpr ⟨listed.indices, index⟩,
      forall_mem_concat.mpr ⟨listed.ids_ne, id⟩,
      forall_mem_concat.mpr ⟨listed.recipients_ne, recipient⟩,
      forall_mem_concat.mpr ⟨listed.convertible, divides⟩,
      nodup_map_concat.mpr ⟨listed.distinct, fresh⟩, by rwa [amountSum_concat]⟩

/-- What a table knows of the burns so far. -/
structure BurnTable.Of (table : BurnTable) (burns : List AuditedBurn) : Prop where
  byId : ∀ id burn, table.byId id = some burn ↔ burn ∈ burns ∧ burn.burnId = id
  total : table.total.toNat = amountSum AuditedBurn.amountUsddBase burns

theorem BurnTable.Of.free (known : table.Of burns) (id : Hash32) :
    table.byId id = none ↔ id ∉ burns.map AuditedBurn.burnId := by
  rw [Option.eq_none_iff_forall_ne_some]
  simp only [ne_eq, known.byId, List.mem_map, not_exists]

/-- The body of the burn loop. -/
theorem auditBurn_eq_ok {position : Nat} :
    auditBurn position table burn = .ok next ↔
      burn.burnIndex.toNat = position ∧ burn.burnId ≠ .zero ∧ burn.recipient ≠ .zero ∧
      100 ∣ burn.amountUsddBase.toNat ∧ table.byId burn.burnId = none ∧ ∃ total,
        checkedAdd table.total burn.amountUsddBase = some total ∧
        next = ⟨Function.update table.byId burn.burnId (some burn), total⟩ := by
  rw [← position_checked, ← usddBaseToUsdtMicro_ne_none]
  simp only [auditBurn]
  simp only [↓then_eq_ok, bind_eq_ok, rejectIf_eq_ok, okOr_eq_ok, pure_eq_ok, ne_eq, not_not,
    not_or]
  constructor
  · rintro ⟨expected, found, same, ⟨id, recipient⟩, converts, fresh, total, added, rfl⟩
    exact ⟨⟨expected, found, same⟩, id, recipient, converts, fresh, total, added, rfl⟩
  · rintro ⟨⟨expected, found, same⟩, id, recipient, converts, fresh, total, added, rfl⟩
    exact ⟨expected, found, same, ⟨id, recipient⟩, converts, fresh, total, added, rfl⟩

/-- The burn loop accepts exactly the listed burns. -/
theorem burnLoop :
    FoldLaw auditBurn ⟨fun _ => none, 0⟩ (fun burns table => table.Of burns) BurnsListed where
  empty := ⟨rfl, by simp, by simp, by simp, List.nodup_nil, by simp⟩
  start := ⟨by simp, rfl⟩
  closed listed := (burnsListed_concat.mp listed).1
  accepts := by
    intro burns table burn listed known
    simp only [Succeeds, auditBurn_eq_ok, burnsListed_concat, known.free, ← known.total,
      ← checkedAdd_isSome]
    constructor
    · rintro ⟨_, index, id, recipient, divides, fresh, total, added, rfl⟩
      exact ⟨listed, index, id, recipient, divides, fresh, total, added⟩
    · rintro ⟨_, index, id, recipient, divides, fresh, total, added⟩
      exact ⟨_, index, id, recipient, divides, fresh, total, added, rfl⟩
  keeps := by
    intro burns table burn next known ran
    obtain ⟨_, _, _, _, fresh, total, added, rfl⟩ := auditBurn_eq_ok.mp ran
    refine ⟨?_, ?_⟩
    · intro id found
      change Function.update table.byId burn.burnId (some burn) id = some found ↔ _
      by_cases same : id = burn.burnId
      · subst same
        have unlisted : ¬(found ∈ burns ∧ found.burnId = burn.burnId) := by
          rw [← known.byId, fresh]
          exact (Option.some_ne_none _).symm
        rw [Function.update_self, Option.some.injEq, List.mem_append, List.mem_singleton]
        constructor
        · rintro rfl
          exact ⟨Or.inr rfl, rfl⟩
        · rintro ⟨old | new, equal⟩
          · exact absurd ⟨old, equal⟩ unlisted
          · exact new.symm
      · rw [Function.update_of_ne same, known.byId, List.mem_append, List.mem_singleton]
        constructor
        · rintro ⟨old, equal⟩
          exact ⟨Or.inl old, equal⟩
        · rintro ⟨old | new, equal⟩
          · exact ⟨old, equal⟩
          · rw [new] at equal
            exact absurd equal.symm same
    · rw [checkedAdd_eq_some.mp added, known.total, amountSum_concat]

/-- The burned total converts exactly. -/
theorem BurnsListed.divides (listed : BurnsListed burns) :
    100 ∣ amountSum AuditedBurn.amountUsddBase burns := by
  refine List.dvd_sum fun amount member => ?_
  obtain ⟨burn, present, rfl⟩ := List.mem_map.mp member
  exact listed.convertible burn present

end Burns

section Payouts

variable {burns : List AuditedBurn} {payouts : List AuditedPayout} {payout : AuditedPayout}
  {burned : BurnTable} {table next : PayoutTable}

/-- One more payout. -/
theorem payoutsListed_concat : PayoutsListed burns (payouts ++ [payout]) ↔
    PayoutsListed burns payouts ∧ payout.burnId ≠ .zero ∧ payout.recipient ≠ .zero ∧
      payout.burnId ∉ payouts.map AuditedPayout.burnId ∧ payout.Of burns ∧
      amountSum AuditedPayout.amountUsdtMicro payouts + payout.amountUsdtMicro.toNat < 2 ^ 64 := by
  constructor
  · rintro ⟨ids, recipients, distinct, matched, total⟩
    rw [forall_mem_concat] at ids recipients matched
    rw [nodup_map_concat] at distinct
    rw [amountSum_concat] at total
    exact ⟨⟨ids.1, recipients.1, distinct.1, matched.1,
      Nat.lt_of_le_of_lt (Nat.le_add_right _ _) total⟩, ids.2, recipients.2, distinct.2,
      matched.2, total⟩
  · rintro ⟨listed, id, recipient, fresh, found, total⟩
    exact ⟨forall_mem_concat.mpr ⟨listed.ids_ne, id⟩,
      forall_mem_concat.mpr ⟨listed.recipients_ne, recipient⟩,
      nodup_map_concat.mpr ⟨listed.distinct, fresh⟩,
      forall_mem_concat.mpr ⟨listed.matched, found⟩, by rwa [amountSum_concat]⟩

/-- What a table knows of the payouts so far. -/
structure PayoutTable.Of (table : PayoutTable) (payouts : List AuditedPayout) : Prop where
  ids : ∀ id, id ∈ table.ids ↔ id ∈ payouts.map AuditedPayout.burnId
  total : table.total.toNat = amountSum AuditedPayout.amountUsdtMicro payouts

/-- The body of the payout loop. -/
theorem auditPayout_eq_ok {position : Nat} (known : burned.Of burns) :
    auditPayout burned position table payout = .ok next ↔
      payout.burnId ≠ .zero ∧ payout.recipient ≠ .zero ∧ payout.burnId ∉ table.ids ∧
      payout.Of burns ∧ ∃ total, checkedAdd table.total payout.amountUsdtMicro = some total ∧
        next = ⟨payout.burnId :: table.ids, total⟩ := by
  simp only [auditPayout]
  simp only [↓then_eq_ok, bind_eq_ok, rejectIf_eq_ok, okOr_eq_ok, pure_eq_ok, ne_eq, not_not,
    not_or, List.contains_iff_mem, known.byId, usddBaseToUsdtMicro_eq_some]
  constructor
  · rintro ⟨⟨id, recipient⟩, fresh, burn, ⟨present, same⟩, _, exact, ⟨rfl, paid⟩, total, added, rfl⟩
    exact ⟨id, recipient, fresh, ⟨burn, present, same, exact, paid⟩, total, added, rfl⟩
  · rintro ⟨id, recipient, fresh, ⟨burn, present, same, exact, paid⟩, total, added, rfl⟩
    exact ⟨⟨id, recipient⟩, fresh, burn, ⟨present, same⟩, _, exact, ⟨rfl, paid⟩, total, added, rfl⟩

/-- The payout loop accepts exactly the listed payouts. -/
theorem payoutLoop (known : burned.Of burns) :
    FoldLaw (auditPayout burned) ⟨[], 0⟩ (fun payouts table => table.Of payouts)
      (PayoutsListed burns) where
  empty := ⟨by simp, by simp, List.nodup_nil, by simp, by simp⟩
  start := ⟨by simp, rfl⟩
  closed listed := (payoutsListed_concat.mp listed).1
  accepts := by
    intro payouts table payout listed kept
    simp only [Succeeds, auditPayout_eq_ok known, payoutsListed_concat, kept.ids, ← kept.total,
      ← checkedAdd_isSome]
    constructor
    · rintro ⟨_, id, recipient, fresh, found, total, added, rfl⟩
      exact ⟨listed, id, recipient, fresh, found, total, added⟩
    · rintro ⟨_, id, recipient, fresh, found, total, added⟩
      exact ⟨_, id, recipient, fresh, found, total, added, rfl⟩
  keeps := by
    intro payouts table payout next kept ran
    obtain ⟨_, _, _, _, total, added, rfl⟩ := (auditPayout_eq_ok known).mp ran
    refine ⟨?_, ?_⟩
    · intro id
      simp [kept.ids, or_comm]
    · rw [checkedAdd_eq_some.mp added, kept.total, amountSum_concat]

/-- No more is paid than was burned. -/
theorem PayoutsListed.le (listed : PayoutsListed burns payouts) :
    100 * amountSum AuditedPayout.amountUsdtMicro payouts ≤
      amountSum AuditedBurn.amountUsddBase burns := by
  have scaled : 100 * amountSum AuditedPayout.amountUsdtMicro payouts =
      (payouts.map fun payout => 100 * payout.amountUsdtMicro.toNat).sum := by
    rw [amountSum, List.sum_map_mul_left]
  rw [scaled]
  refine sum_le_of_keys AuditedPayout.burnId AuditedBurn.burnId _ _ listed.distinct ?_
  intro payout member
  obtain ⟨burn, present, same, exact, _⟩ := listed.matched payout member
  exact ⟨burn, present, same, exact.ge⟩

end Payouts

section Snapshots

/-- A snapshot conserves value, where the minted and burned supply are these micro-USDT. -/
structure AuditSnapshot.Conserves (snapshot : AuditSnapshot) (minted burned : UInt64) : Prop where
  minted_eq : snapshot.totalMintedUsddBase.toNat = 100 * minted.toNat
  burned_eq : snapshot.totalBurnedUsddBase.toNat = 100 * burned.toNat
  burned_le : burned.toNat ≤ minted.toNat
  paid_le : snapshot.totalPaidUsdtMicro.toNat ≤ snapshot.totalDepositedUsdtMicro.toNat
  deposits : minted.toNat + snapshot.depositsUnmintedUsdtMicro.toNat =
    snapshot.totalDepositedUsdtMicro.toNat
  burns : snapshot.totalPaidUsdtMicro.toNat + snapshot.burnsUnpaidUsdtMicro.toNat = burned.toNat
  recorded : snapshot.totalDepositedUsdtMicro.toNat =
    snapshot.recordedBackingUsdtMicro.toNat + snapshot.totalPaidUsdtMicro.toNat
  reserve : snapshot.recordedBackingUsdtMicro.toNat ≤ snapshot.actualVaultUsdtMicro.toNat

/-- The report on a snapshot that conserves value. -/
def AuditSnapshot.exactReport (snapshot : AuditSnapshot) : AuditReport where
  expectedBackingUsdtMicro := snapshot.recordedBackingUsdtMicro.toNat
  recordedBackingUsdtMicro := snapshot.recordedBackingUsdtMicro.toNat
  physicalSurplusUsdtMicro :=
    snapshot.actualVaultUsdtMicro.toNat - snapshot.recordedBackingUsdtMicro.toNat
  circulatingUsddBase := snapshot.totalMintedUsddBase.toNat - snapshot.totalBurnedUsddBase.toNat

/-- The partitions determine the backing: the two checks of the conservation identity that follow
them never fail. -/
theorem expected_backing {minted burned deposited paid unminted unpaid : Nat}
    (burnedLe : burned ≤ minted) (deposits : minted + unminted = deposited)
    (burns : paid + unpaid = burned) (bound : deposited < 2 ^ 64) :
    ((checkedSub128 minted burned).bind fun value => (checkedAdd128 value unminted).bind fun value =>
      checkedAdd128 value unpaid) = some (deposited - paid) := by
  have pending : minted - burned + unminted < 2 ^ 128 := by omega
  have whole : minted - burned + unminted + unpaid = deposited - paid := by omega
  rw [checkedSub128, if_pos burnedLe, Option.bind_some, checkedAdd128, if_pos pending,
    Option.bind_some, checkedAdd128, whole, if_pos (by omega)]

/-- The verification as a case distinction on numbers. That the expected backing exists and that it
equals the backing of the vault are no cases of it. -/
def verifyOutcome (actual recorded deposited paid minted burned unminted unpaid : Nat)
    (report : AuditReport) : Except AuditError AuditReport :=
  if ¬100 ∣ minted then .error (.nonConvertibleSupply "minted USDD")
  else if ¬100 ∣ burned then .error (.nonConvertibleSupply "burned USDD")
  else if minted / 100 < burned / 100 then .error .burnExceedsMint
  else if deposited < paid then .error .paidExceedsDeposited
  else if minted / 100 + unminted ≠ deposited then
    .error (.depositMintPartitionMismatch deposited (minted / 100 + unminted))
  else if paid + unpaid ≠ burned / 100 then
    .error (.burnPayoutPartitionMismatch (burned / 100) (paid + unpaid))
  else if deposited - paid ≠ recorded then
    .error (.recordedBackingMismatch (deposited - paid) recorded)
  else if actual < deposited - paid then
    .error (.physicalReserveShortfall (deposited - paid) actual)
  else .ok report

section Outcomes

variable {actual recorded deposited paid minted burned unminted unpaid : Nat}
  {report found : AuditReport}

/-- The outcome is the report exactly where value is conserved. -/
theorem verifyOutcome_eq_ok :
    verifyOutcome actual recorded deposited paid minted burned unminted unpaid report =
        .ok found ↔
      (100 ∣ minted ∧ 100 ∣ burned ∧ burned / 100 ≤ minted / 100 ∧ paid ≤ deposited ∧
        deposited = minted / 100 + unminted ∧ burned / 100 = paid + unpaid ∧
        recorded = deposited - paid ∧ deposited - paid ≤ actual) ∧ found = report := by
  unfold verifyOutcome
  split_ifs with minted burned burnedMore paidMore deposits burns unrecorded short
  case neg =>
    -- every check passed
    rw [Except.ok.injEq, eq_comm]
    refine (and_iff_right ?_).symm
    refine ⟨minted, burned, ?_, ?_, ?_, ?_, ?_, ?_⟩ <;> omega
  all_goals exact iff_of_false (by simp) fun both => by omega

/-- A mismatch of the recorded backing is one with the vault's own balance of payments. -/
theorem verifyOutcome_mismatch {expected other : Nat}
    (failed : verifyOutcome actual recorded deposited paid minted burned unminted unpaid report =
      .error (.recordedBackingMismatch expected other)) :
    paid ≤ deposited ∧ expected = deposited - paid ∧ other = recorded ∧ expected ≠ other := by
  unfold verifyOutcome at failed
  split_ifs at failed with minted burned burnedMore paidMore deposits burns unrecorded short
  all_goals cases failed
  exact ⟨Nat.not_lt.mp paidMore, rfl, rfl, unrecorded⟩

theorem verifyOutcome_no_underflow :
    verifyOutcome actual recorded deposited paid minted burned unminted unpaid report ≠
      .error .conservationUnderflow := by
  unfold verifyOutcome
  split_ifs <;> simp

/-- Where the supplies convert and the partitions add up, three causes of failure are left. -/
theorem verifyOutcome_of_partitions (mintedConverts : 100 ∣ minted) (burnedConverts : 100 ∣ burned)
    (deposits : minted / 100 + unminted = deposited) (burns : paid + unpaid = burned / 100) :
    verifyOutcome actual recorded deposited paid minted burned unminted unpaid report =
      if minted < burned then .error .burnExceedsMint
      else if deposited - paid ≠ recorded then
        .error (.recordedBackingMismatch (deposited - paid) recorded)
      else if actual < deposited - paid then
        .error (.physicalReserveShortfall (deposited - paid) actual)
      else .ok report := by
  have supply : minted / 100 < burned / 100 ↔ minted < burned := by omega
  rw [verifyOutcome, if_neg (not_not.mpr mintedConverts), if_neg (not_not.mpr burnedConverts)]
  simp only [supply]
  by_cases burnedMore : minted < burned
  · rw [if_pos burnedMore, if_pos burnedMore]
  · have paidLe : ¬deposited < paid := by omega
    rw [if_neg burnedMore, if_neg burnedMore, if_neg paidLe, if_neg (not_not.mpr deposits),
      if_neg (not_not.mpr burns)]

end Outcomes

/-- The verification of a snapshot has one of these outcomes. -/
theorem AuditSnapshot.verify_eq (snapshot : AuditSnapshot) :
    snapshot.verify = verifyOutcome snapshot.actualVaultUsdtMicro.toNat
      snapshot.recordedBackingUsdtMicro.toNat snapshot.totalDepositedUsdtMicro.toNat
      snapshot.totalPaidUsdtMicro.toNat snapshot.totalMintedUsddBase.toNat
      snapshot.totalBurnedUsddBase.toNat snapshot.depositsUnmintedUsdtMicro.toNat
      snapshot.burnsUnpaidUsdtMicro.toNat snapshot.exactReport := by
  unfold verify verifyOutcome
  by_cases mintedConverts : 100 ∣ snapshot.totalMintedUsddBase.toNat
  case neg =>
    rw [usddBaseToUsdtMicro_of_not_dvd mintedConverts, if_pos mintedConverts]
    rfl
  by_cases burnedConverts : 100 ∣ snapshot.totalBurnedUsddBase.toNat
  case neg =>
    obtain ⟨mintedMicro, converted⟩ := usddBaseToUsdtMicro_of_dvd mintedConverts
    rw [converted, usddBaseToUsdtMicro_of_not_dvd burnedConverts,
      if_neg (not_not.mpr mintedConverts), if_pos burnedConverts]
    rfl
  obtain ⟨mintedMicro, mintedConverted⟩ := usddBaseToUsdtMicro_of_dvd mintedConverts
  obtain ⟨burnedMicro, burnedConverted⟩ := usddBaseToUsdtMicro_of_dvd burnedConverts
  have mintedExact := usddBaseToUsdtMicro_eq_some.mp mintedConverted
  have burnedExact := usddBaseToUsdtMicro_eq_some.mp burnedConverted
  have mintedEq : snapshot.totalMintedUsddBase.toNat / 100 = mintedMicro.toNat := by omega
  have burnedEq : snapshot.totalBurnedUsddBase.toNat / 100 = burnedMicro.toNat := by omega
  rw [mintedConverted, burnedConverted, if_neg (not_not.mpr mintedConverts),
    if_neg (not_not.mpr burnedConverts), mintedEq, burnedEq]
  simp only [okOr_bind, Option.elim_some, rejectIf_bind, gt_iff_lt, UInt64.lt_iff_toNat_lt]
  by_cases burnedLe : mintedMicro.toNat < burnedMicro.toNat
  · rw [if_pos burnedLe, if_pos burnedLe]
  by_cases paidLe : snapshot.totalDepositedUsdtMicro.toNat < snapshot.totalPaidUsdtMicro.toNat
  · rw [if_neg burnedLe, if_pos paidLe, if_neg burnedLe, if_pos paidLe]
  have backing : (snapshot.totalDepositedUsdtMicro - snapshot.totalPaidUsdtMicro).toNat =
      snapshot.totalDepositedUsdtMicro.toNat - snapshot.totalPaidUsdtMicro.toNat :=
    UInt64.toNat_sub_of_le _ _ (UInt64.le_iff_toNat_le.mpr (Nat.not_lt.mp paidLe))
  rw [if_neg burnedLe, if_neg paidLe, if_neg burnedLe, if_neg paidLe, backing]
  by_cases deposits : mintedMicro.toNat + snapshot.depositsUnmintedUsdtMicro.toNat =
    snapshot.totalDepositedUsdtMicro.toNat
  case neg => rw [if_pos deposits, if_pos deposits]
  by_cases burns : snapshot.totalPaidUsdtMicro.toNat + snapshot.burnsUnpaidUsdtMicro.toNat =
    burnedMicro.toNat
  case neg =>
    rw [if_neg (not_not.mpr deposits), if_pos burns, if_neg (not_not.mpr deposits), if_pos burns]
  rw [if_neg (not_not.mpr deposits), if_neg (not_not.mpr burns), if_neg (not_not.mpr deposits),
    if_neg (not_not.mpr burns),
    expected_backing (Nat.not_lt.mp burnedLe) deposits burns (UInt64.toNat_lt _), Option.elim_some,
    if_neg (not_not.mpr rfl)]
  by_cases recorded : snapshot.totalDepositedUsdtMicro.toNat - snapshot.totalPaidUsdtMicro.toNat =
    snapshot.recordedBackingUsdtMicro.toNat
  case neg => rw [if_pos recorded, if_pos recorded]
  rw [if_neg (not_not.mpr recorded), if_neg (not_not.mpr recorded), recorded]
  refine if_congr Iff.rfl rfl ?_
  have circulating : (mintedMicro.toNat - burnedMicro.toNat) * usddUnitsPerUsdtMicro.toNat =
      snapshot.totalMintedUsddBase.toNat - snapshot.totalBurnedUsddBase.toNat := by
    change (mintedMicro.toNat - burnedMicro.toNat) * 100 = _
    omega
  rw [circulating]
  rfl

/-- A snapshot that conserves value is verified. -/
theorem AuditSnapshot.Conserves.verified {snapshot : AuditSnapshot} {minted burned : UInt64}
    (conserves : snapshot.Conserves minted burned) :
    snapshot.verify = .ok snapshot.exactReport := by
  obtain ⟨mintedEq, burnedEq, burnedLe, paidLe, deposits, burns, recorded, reserve⟩ := conserves
  rw [snapshot.verify_eq]
  refine verifyOutcome_eq_ok.mpr ⟨⟨⟨_, mintedEq⟩, ⟨_, burnedEq⟩, ?_, paidLe, ?_, ?_, ?_, ?_⟩, rfl⟩
  all_goals omega

end Snapshots

section Reconstruction

variable {actual recorded : UInt64} {deposits : List AuditedDeposit} {mints : List AuditedMint}
  {burns : List AuditedBurn} {payouts : List AuditedPayout}

/-- Lists that the loops accept and whose totals conserve value, with the two balances. -/
structure Conserved (actual recorded : UInt64) (deposits : List AuditedDeposit)
    (mints : List AuditedMint) (burns : List AuditedBurn) (payouts : List AuditedPayout) :
    Prop where
  depositsListed : DepositsListed deposits
  mintsListed : MintsListed deposits mints
  burnsListed : BurnsListed burns
  payoutsListed : PayoutsListed burns payouts
  burned_le : amountSum AuditedBurn.amountUsddBase burns ≤
    amountSum AuditedMint.amountUsddBase mints
  backed : recorded.toNat + amountSum AuditedPayout.amountUsdtMicro payouts =
    amountSum AuditedDeposit.amountUsdtMicro deposits
  reserve : recorded.toNat ≤ actual.toNat

/-- What a report says of lists that conserve value. -/
structure ExactReport (actual recorded : UInt64) (mints : List AuditedMint)
    (burns : List AuditedBurn) (report : AuditReport) : Prop where
  expected : report.expectedBackingUsdtMicro = recorded.toNat
  backed : report.recordedBackingUsdtMicro = recorded.toNat
  surplus : report.physicalSurplusUsdtMicro = actual.toNat - recorded.toNat
  circulating : report.circulatingUsddBase = amountSum AuditedMint.amountUsddBase mints -
    amountSum AuditedBurn.amountUsddBase burns

/-- A snapshot holds the two balances and the exact sums of the lists. -/
structure AuditSnapshot.Of (snapshot : AuditSnapshot) (actual recorded : UInt64)
    (deposits : List AuditedDeposit) (mints : List AuditedMint) (burns : List AuditedBurn)
    (payouts : List AuditedPayout) : Prop where
  actual_eq : snapshot.actualVaultUsdtMicro = actual
  recorded_eq : snapshot.recordedBackingUsdtMicro = recorded
  deposited : snapshot.totalDepositedUsdtMicro.toNat =
    amountSum AuditedDeposit.amountUsdtMicro deposits
  paid : snapshot.totalPaidUsdtMicro.toNat = amountSum AuditedPayout.amountUsdtMicro payouts
  minted : snapshot.totalMintedUsddBase.toNat = amountSum AuditedMint.amountUsddBase mints
  burned : snapshot.totalBurnedUsddBase.toNat = amountSum AuditedBurn.amountUsddBase burns
  unminted : snapshot.totalMintedUsddBase.toNat / 100 +
    snapshot.depositsUnmintedUsdtMicro.toNat = snapshot.totalDepositedUsdtMicro.toNat
  unpaid : snapshot.totalPaidUsdtMicro.toNat + snapshot.burnsUnpaidUsdtMicro.toNat =
    snapshot.totalBurnedUsddBase.toNat / 100

/-- Once the loops accepted the lists, their totals convert and leave nothing negative, and the
audit ends with the outcome of the three checks that remain. -/
theorem reconstructAuditSnapshot_of_listed (depositsListed : DepositsListed deposits)
    (mintsListed : MintsListed deposits mints) (burnsListed : BurnsListed burns)
    (payoutsListed : PayoutsListed burns payouts) :
    ∃ snapshot : AuditSnapshot,
      snapshot.Of actual recorded deposits mints burns payouts ∧
      reconstructAuditSnapshot actual recorded deposits mints burns payouts =
        if amountSum AuditedMint.amountUsddBase mints <
            amountSum AuditedBurn.amountUsddBase burns then .error .burnExceedsMint
        else if amountSum AuditedDeposit.amountUsdtMicro deposits -
            amountSum AuditedPayout.amountUsdtMicro payouts ≠ recorded.toNat then
          .error (.recordedBackingMismatch (amountSum AuditedDeposit.amountUsdtMicro deposits -
            amountSum AuditedPayout.amountUsdtMicro payouts) recorded.toNat)
        else if actual.toNat < amountSum AuditedDeposit.amountUsdtMicro deposits -
            amountSum AuditedPayout.amountUsdtMicro payouts then
          .error (.physicalReserveShortfall (amountSum AuditedDeposit.amountUsdtMicro deposits -
            amountSum AuditedPayout.amountUsdtMicro payouts) actual.toNat)
        else .ok (snapshot, snapshot.exactReport) := by
  obtain ⟨deposited, depositsRan⟩ := (depositLoop.succeeds deposits).mpr depositsListed
  have depositTable := depositLoop.holds depositsRan
  obtain ⟨totalMinted, mintsRan⟩ := ((mintLoop depositTable).succeeds mints).mpr mintsListed
  have mintedSum := (mintLoop depositTable).holds mintsRan
  obtain ⟨burned, burnsRan⟩ := (burnLoop.succeeds burns).mpr burnsListed
  have burnTable := burnLoop.holds burnsRan
  obtain ⟨paid, payoutsRan⟩ := ((payoutLoop burnTable).succeeds payouts).mpr payoutsListed
  have payoutTable := (payoutLoop burnTable).holds payoutsRan
  have mintedLe := mintsListed.le
  have paidLe := payoutsListed.le
  have mintedConverts : 100 ∣ totalMinted.toNat := by
    rw [mintedSum, mintsListed.sum]
    exact Nat.dvd_mul_right _ _
  have burnedConverts : 100 ∣ burned.total.toNat := burnTable.total ▸ burnsListed.divides
  obtain ⟨mintedMicro, mintedFound⟩ := usddBaseToUsdtMicro_of_dvd mintedConverts
  obtain ⟨burnedMicro, burnedFound⟩ := usddBaseToUsdtMicro_of_dvd burnedConverts
  have mintedEq := usddBaseToUsdtMicro_eq_some.mp mintedFound
  have burnedEq := usddBaseToUsdtMicro_eq_some.mp burnedFound
  have depositedSum := depositTable.total
  have burnedSum := burnTable.total
  have paidSum := payoutTable.total
  obtain ⟨unminted, unmintedFound, unmintedEq⟩ :=
    checkedSub_of_le (show mintedMicro.toNat ≤ deposited.total.toNat by omega)
  obtain ⟨unpaid, unpaidFound, unpaidEq⟩ :=
    checkedSub_of_le (show paid.total.toNat ≤ burnedMicro.toNat by omega)
  have mintPartition : totalMinted.toNat / 100 + unminted.toNat = deposited.total.toNat := by omega
  have burnPartition : paid.total.toNat + unpaid.toNat = burned.total.toNat / 100 := by omega
  let snapshot : AuditSnapshot := ⟨actual, recorded, deposited.total, paid.total, totalMinted,
    burned.total, unminted, unpaid⟩
  refine ⟨snapshot, ⟨rfl, rfl, depositedSum, paidSum, mintedSum, burnedSum, mintPartition,
    burnPartition⟩, ?_⟩
  have outcome : snapshot.verify = _ := snapshot.verify_eq.trans
    (verifyOutcome_of_partitions mintedConverts burnedConverts mintPartition burnPartition)
  rw [← depositedSum, ← paidSum, ← mintedSum, ← burnedSum, reconstructAuditSnapshot, depositsRan]
  change (foldIndexed (auditMint deposited) 0 0 mints >>= _) = _
  rw [mintsRan]
  change (foldIndexed auditBurn 0 ⟨fun _ => none, 0⟩ burns >>= _) = _
  rw [burnsRan]
  change (foldIndexed (auditPayout burned) 0 ⟨[], 0⟩ payouts >>= _) = _
  rw [payoutsRan]
  change (okOr (usddBaseToUsdtMicro totalMinted) _ >>= _) = _
  rw [mintedFound, okOr_bind, Option.elim_some, burnedFound, okOr_bind, Option.elim_some,
    unmintedFound, okOr_bind, Option.elim_some, unpaidFound, okOr_bind, Option.elim_some]
  change (snapshot.verify >>= fun report => pure (snapshot, report)) = _
  rw [outcome]
  change ((if totalMinted.toNat < burned.total.toNat then _ else _) >>= _) = _
  split_ifs <;> rfl

/-- An audit that returns passed its four loops. -/
theorem listed_of_audited {result : AuditSnapshot × AuditReport}
    (audited : reconstructAuditSnapshot actual recorded deposits mints burns payouts =
      .ok result) :
    DepositsListed deposits ∧ MintsListed deposits mints ∧ BurnsListed burns ∧
      PayoutsListed burns payouts := by
  simp only [reconstructAuditSnapshot] at audited
  simp only [bind_eq_ok] at audited
  obtain ⟨deposited, depositsRan, totalMinted, mintsRan, burned, burnsRan, paid, payoutsRan, _⟩ :=
    audited
  have depositTable := depositLoop.holds depositsRan
  have burnTable := burnLoop.holds burnsRan
  exact ⟨(depositLoop.succeeds deposits).mp ⟨deposited, depositsRan⟩,
    ((mintLoop depositTable).succeeds mints).mp ⟨totalMinted, mintsRan⟩,
    (burnLoop.succeeds burns).mp ⟨burned, burnsRan⟩,
    ((payoutLoop burnTable).succeeds payouts).mp ⟨paid, payoutsRan⟩⟩

/-- Lists that conserve value are audited without an error. -/
theorem Conserved.audited (conserved : Conserved actual recorded deposits mints burns payouts) :
    ∃ snapshot report,
      reconstructAuditSnapshot actual recorded deposits mints burns payouts =
        .ok (snapshot, report) ∧ ExactReport actual recorded mints burns report := by
  obtain ⟨snapshot, totals, outcome⟩ := @reconstructAuditSnapshot_of_listed actual recorded _ _ _ _
    conserved.depositsListed conserved.mintsListed conserved.burnsListed conserved.payoutsListed
  have burnedLe := conserved.burned_le
  have backed := conserved.backed
  have reserve := conserved.reserve
  rw [if_neg (by omega), if_neg (by omega), if_neg (by omega)] at outcome
  refine ⟨snapshot, snapshot.exactReport, outcome, ?_, ?_, ?_, ?_⟩
  · exact congrArg UInt64.toNat totals.recorded_eq
  · exact congrArg UInt64.toNat totals.recorded_eq
  · rw [← totals.actual_eq, ← totals.recorded_eq]
    rfl
  · rw [← totals.minted, ← totals.burned]
    rfl

/-- An audit that returns accepted the burns. -/
theorem burnsListed_of_audited {result : AuditSnapshot × AuditReport}
    (audited : reconstructAuditSnapshot actual recorded deposits mints burns payouts =
      .ok result) : BurnsListed burns := by
  exact (listed_of_audited audited).2.2.1

end Reconstruction

end Usdd.Core

import Usdd.Foundation.TimedSwaps
import Usdd.Simplicity.InventoryHtlc
import Usdd.Verif.HtlcRuns
/-!
# Swapping inventory against USDT

One swap is two escrows that never see each other: an output on the Elements side that a Simplicity
program guards, and a contract on the Ethereum side. They share a hash and a deadline. The holder of
the preimage funds the contract, the counterparty locks inventory against it, and the holder's claim
of the inventory hands the counterparty the preimage for the contract.

A run interleaves spends of the output, calls of the contract (by anyone, failing or re-entering)
and time. It refines a swap over two ledgers with deadlines, so the rule that each party follows
there protects it here.
-/
namespace Usdd.Verif

open Usdd.Foundation Usdd.Foundation.Reentrant Usdd.Foundation.TimedSwaps Usdd.Core
  Usdd.Contracts Usdd.Simplicity

/-- The output that holds the inventory. -/
inductive Inventory where
  | absent
  | locked
  | claimed (preimage : Hash32)
  | refunded

/-- What became of the inventory. -/
def Inventory.lock : Inventory → Lock
  | .absent => .absent
  | .locked => .held
  | .claimed _ => .claimed
  | .refunded => .refunded

/-- What became of the escrowed USDT. -/
def escrowLock : HtlcState → Lock
  | .unfunded => .absent
  | .funded => .held
  | .claimed => .claimed
  | .refunded => .refunded

/-- Both sides of a swap at a time. -/
structure SwapState (World : Type) where
  now : Nat
  published : Option Nat
  claimedAt : Option Nat
  inventory : Inventory
  world : World
  escrow : HtlcStorage

/-- A swap without its ledgers. -/
def SwapState.abstract {World : Type} (state : SwapState World) : State :=
  ⟨state.now, state.published, state.claimedAt, state.inventory.lock,
    escrowLock state.escrow.state⟩

/-- The message of a call. -/
def messageOf : HtlcCall → Message
  | .fund message => message
  | .claim message _ => message
  | .refund message => message

/-- What happens on either side. -/
inductive SwapAction (World : Type) where
  | wait (later : Nat)
  | publish
  | lock
  | spend (spend : Spend) (witness : ClaimOrRefund) (medianTime : Nat)
  | drift (world : World)
  | call (call : HtlcCall)

/-- A swap: a program and a contract that were made for each other, the code around the contract,
the verification of signatures, and what is assumed of clocks and parties. -/
structure Swap (World : Type) where
  program : InventoryHtlc
  htlc : Htlc
  view : BalanceView World
  env : Environment World TokenRequest CallResult
  verify : Hash32 → Hash32 → Signature → Bool
  skew : Nat
  reaction : Nat

section Model

variable [Hashing] {World : Type} (swap : Swap World)

namespace Swap

omit [Hashing] in
/-- The terms of a swap. -/
def terms : Terms :=
  ⟨swap.program.elementsRefundTimestamp.toNat, swap.htlc.refundTimestamp.toNat, swap.skew,
    swap.reaction⟩

/-- A step of a swap. A preimage that either side accepts has been published. -/
inductive Step : SwapState World → SwapAction World → SwapState World → Prop
  | wait {state : SwapState World} {later : Nat} :
    state.now ≤ later → Step state (.wait later) { state with now := later }
  | publish {state : SwapState World} :
    state.published = none → Step state .publish { state with published := some state.now }
  | lock {state : SwapState World} :
    state.inventory = .absent → Step state .lock { state with inventory := .locked }
  | claim {state : SwapState World} {spend : Spend} {preimage : Hash32} {signature : Signature}
    {medianTime : Nat} :
    state.inventory = .locked → Dated swap.terms state.now medianTime → spend.Mature medianTime →
    InventoryHtlc.main swap.verify swap.program spend (.left preimage signature) = some () →
    state.published.isSome →
    Step state (.spend spend (.left preimage signature) medianTime)
      { state with inventory := .claimed preimage, claimedAt := some state.now }
  | refund {state : SwapState World} {spend : Spend} {signature : Signature} {medianTime : Nat} :
    state.inventory = .locked → Dated swap.terms state.now medianTime → spend.Mature medianTime →
    InventoryHtlc.main swap.verify swap.program spend (.right signature) = some () →
    Step state (.spend spend (.right signature) medianTime) { state with inventory := .refunded }
  | drift {state : SwapState World} {world : World} :
    swap.env.drifts state.world world → Step state (.drift world) { state with world := world }
  | call {state : SwapState World} {call : HtlcCall} {final : Final World HtlcStorage HtlcError Unit} :
    Dated swap.terms state.now (messageOf call).timestamp.toNat →
    Finishes swap.env (Htlc.contract swap.view swap.htlc)
      (Htlc.contract swap.view swap.htlc call state.world state.escrow) final →
    (∀ message secret, call = .claim message secret →
      Hashing.sha256 (encode secret) = swap.htlc.secretHash → state.published.isSome) →
    Step state (.call call)
      { state with world := final.worldAfter state.world,
                   escrow := final.storageAfter state.escrow }

omit [Hashing] in
/-- A rule is about time, the publication and the lock. -/
def followed (rule : Rule) (state : SwapState World) : SwapAction World → Prop
  | .wait later => rule state.abstract (.wait later)
  | .publish => rule state.abstract .publish
  | .lock => rule state.abstract .lockFirst
  | _ => True

/-- The states of the runs of a swap in which a rule is followed. -/
inductive Reached (rule : Rule) (start : Nat) (first : World) : SwapState World → Prop
  | start : Reached rule start first ⟨start, none, none, .absent, first, .fresh⟩
  | step {state next : SwapState World} {action : SwapAction World} :
    Reached rule start first state → followed rule state action → swap.Step state action next →
    Reached rule start first next

end Swap

end Model

section Refinement

variable [Hashing] {World : Type} {swap : Swap World} {rule : Rule} {start : Nat} {first : World}
  {state next : SwapState World} {action : SwapAction World}

/-- A rule leaves the ledgers alone. -/
structure PartyRule (rule : Rule) : Prop where
  lockSecond : ∀ state, rule state .lockSecond
  claimFirst : ∀ state, rule state .claimFirst
  refundFirst : ∀ state date, rule state (.refundFirst date)
  claimSecond : ∀ state date, rule state (.claimSecond date)
  refundSecond : ∀ state date, rule state (.refundSecond date)

/-- A returned call of the escrow is a move of its ledger. -/
theorem escrow_moves {call : HtlcCall} {world : World} {storage : HtlcStorage}
    (dated : Dated swap.terms state.now (messageOf call).timestamp.toNat)
    (returned : Returns swap.env (Htlc.contract swap.view swap.htlc)
      (Htlc.contract swap.view swap.htlc call) state.world state.escrow () world storage)
    (known : ∀ message secret, call = .claim message secret →
      Hashing.sha256 (encode secret) = swap.htlc.secretHash → state.published.isSome) :
    ∃ action, TimedSwaps.Step swap.terms state.abstract action
        { state with world := world, escrow := storage : SwapState World }.abstract ∧
      ∀ rule, PartyRule rule → rule state.abstract action := by
  cases call with
  | fund message =>
    obtain ⟨⟨-, before, -, rfl⟩, -⟩ := Htlc.returns_fund returned
    have absent : state.abstract.second = .absent := congrArg escrowLock before
    exact ⟨.lockSecond, .lockSecond absent, fun rule party => party.lockSecond _⟩
  | claim message secret =>
    obtain ⟨⟨-, before, -, rfl⟩, early, right⟩ := Htlc.returns_claim returned
    have held : state.abstract.second = .held := congrArg escrowLock before
    have open_ := known message secret rfl right
    exact ⟨.claimSecond _, .claimSecond held open_ dated early,
      fun rule party => party.claimSecond _ _⟩
  | refund message =>
    obtain ⟨⟨-, before, -, rfl⟩, late⟩ := Htlc.returns_refund returned
    have held : state.abstract.second = .held := congrArg escrowLock before
    exact ⟨.refundSecond _, .refundSecond held dated late,
      fun rule party => party.refundSecond _ _⟩

/-- A step of a swap is at most one step of its two ledgers. -/
theorem Swap.Step.refines (timestamped : 0 < swap.program.elementsRefundTimestamp.toNat)
    (party : PartyRule rule) (taken : swap.Step state action next)
    (followed : Swap.followed rule state action) :
    next.abstract = state.abstract ∨ ∃ move, rule state.abstract move ∧
      TimedSwaps.Step swap.terms state.abstract move next.abstract := by
  cases taken with
  | wait ordered => exact Or.inr ⟨_, followed, .wait ordered⟩
  | publish fresh => exact Or.inr ⟨_, followed, .publish fresh⟩
  | lock absent => exact Or.inr ⟨_, followed, .lockFirst (congrArg Inventory.lock absent)⟩
  | claim locked dated mature accepted published =>
    have held : state.abstract.first = .held := congrArg Inventory.lock locked
    exact Or.inr ⟨_, party.claimFirst _, .claimFirst held published⟩
  | refund locked dated mature accepted =>
    have held : state.abstract.first = .held := congrArg Inventory.lock locked
    obtain ⟨late, -⟩ := InventoryHtlc.main_right_dated timestamped accepted mature
    exact Or.inr ⟨_, party.refundFirst _ _, .refundFirst held dated late⟩
  | drift drifted => exact Or.inl rfl
  | @call call final dated done known =>
    cases final with
    | reverted error => exact Or.inl rfl
    | returned value world storage =>
      obtain ⟨move, moved, allowed⟩ := escrow_moves dated done known
      exact Or.inr ⟨move, allowed rule party, moved⟩

/-- A run of a swap is a run of its two ledgers. -/
theorem Swap.Reached.refines (timestamped : 0 < swap.program.elementsRefundTimestamp.toNat)
    (party : PartyRule rule) (reached : swap.Reached rule start first state) :
    TimedSwaps.Reached swap.terms rule start state.abstract := by
  induction reached with
  | start => exact .start
  | step _ followed taken ih =>
    rcases taken.refines timestamped party followed with same | ⟨move, allowed, moved⟩
    · rw [same]
      exact ih
    · exact .step ih allowed moved

/-- A run that follows a rule follows every weaker one. -/
theorem Swap.Reached.mono {weaker : Rule} (reached : swap.Reached rule start first state)
    (implied : ∀ state action, rule state action → weaker state action) :
    swap.Reached weaker start first state := by
  induction reached with
  | start => exact .start
  | @step state next action _ followed taken ih =>
    refine .step ih ?_ taken
    cases action with
    | wait later => exact implied _ _ followed
    | publish => exact implied _ _ followed
    | lock => exact implied _ _ followed
    | spend spend witness medianTime => trivial
    | drift world => trivial
    | call call => trivial

/-- The contract's side of a run is a run of the contract. -/
theorem Swap.Reached.escrow_run (reached : swap.Reached rule start first state) :
    ∃ log, Run swap.env (Htlc.contract swap.view swap.htlc) first .fresh log state.world
      state.escrow := by
  induction reached with
  | start => exact ⟨[], .start _ _⟩
  | step _ _ taken ih =>
    obtain ⟨log, run⟩ := ih
    cases taken with
    | wait => exact ⟨log, run⟩
    | publish => exact ⟨log, run⟩
    | lock => exact ⟨log, run⟩
    | claim => exact ⟨log, run⟩
    | refund => exact ⟨log, run⟩
    | drift drifted => exact ⟨log, .drift run drifted⟩
    | call dated done known => exact ⟨_, .call _ run done⟩

/-- Between calls the lock of the contract is free. -/
theorem Swap.Reached.escrow_free (reached : swap.Reached rule start first state) :
    state.escrow.reentrancyLock = 1 := by
  obtain ⟨log, run⟩ := reached.escrow_run
  refine run.invariant (I := fun _ storage => storage.reentrancyLock = 1) ?_ ?_ rfl
  · intro log call world storage done world' storage' free returned
    cases call with
    | fund message =>
      rw [(Htlc.returns_fund returned).1.next]
    | claim message secret =>
      rw [(Htlc.returns_claim returned).1.next]
    | refund message =>
      rw [(Htlc.returns_refund returned).1.next]
  · intro log call storage error free
    exact free

/-- A claimed inventory names a preimage of the hash. -/
theorem Swap.Reached.preimage_right (reached : swap.Reached rule start first state)
    {preimage : Hash32} (claimed : state.inventory = .claimed preimage) :
    Hashing.sha256 (encode preimage) = swap.program.secretHash := by
  induction reached with
  | start => cases claimed
  | step _ _ taken ih =>
    cases taken with
    | wait => exact ih claimed
    | publish => exact ih claimed
    | lock => cases claimed
    | claim locked dated mature accepted =>
      obtain ⟨rfl⟩ := claimed
      exact (InventoryHtlc.main_left.mp accepted).1
    | refund => cases claimed
    | drift => exact ih claimed
    | call => exact ih claimed

end Refinement

section Parties

variable [Hashing] {World : Type} {swap : Swap World} {start : Nat} {first : World}
  {state : SwapState World}

omit [Hashing] in
theorem holderRule_party (terms : Terms) : PartyRule (holderRule terms) :=
  ⟨fun _ => trivial, fun _ => trivial, fun _ _ => trivial, fun _ _ => trivial, fun _ _ => trivial⟩

omit [Hashing] in
theorem counterpartyRule_party (terms : Terms) : PartyRule (counterpartyRule terms) :=
  ⟨fun _ => trivial, fun _ => trivial, fun _ _ => trivial, fun _ _ => trivial, fun _ _ => trivial⟩

omit [Hashing] in
theorem bothRules_party (terms : Terms) : PartyRule (bothRules terms) :=
  ⟨fun _ => ⟨trivial, trivial⟩, fun _ => ⟨trivial, trivial⟩, fun _ _ => ⟨trivial, trivial⟩,
    fun _ _ => ⟨trivial, trivial⟩, fun _ _ => ⟨trivial, trivial⟩⟩

/-- Both sides are made for one swap: the renderer and the constructor accepted their terms, which
have one hash and one early deadline, and the token leaves the contract's balance alone. -/
structure Swap.Agreed (swap : Swap World) : Prop where
  rendered : ∃ secretHash claimant refund elementsRefund externalRefund,
    render secretHash claimant refund elementsRefund externalRefund = .ok swap.program
  constructed : ∃ codeLength self blockTimestamp usdt funder claimRecipient refundRecipient amount
      secretHash elementsRefundTimestamp refundTimestamp,
    Htlc.construct codeLength self blockTimestamp usdt funder claimRecipient refundRecipient amount
      secretHash elementsRefundTimestamp refundTimestamp = .ok swap.htlc
  secretHash : swap.program.secretHash = swap.htlc.secretHash
  deadline : swap.program.elementsRefundTimestamp = swap.htlc.elementsRefundTimestamp
  keeps : KeepsEscrow swap.view swap.htlc swap.env

omit [Hashing] in
theorem Swap.Agreed.timestamped (agreed : swap.Agreed) :
    locktimeTimestampThreshold ≤ swap.program.elementsRefundTimestamp.toNat := by
  obtain ⟨_, _, _, _, _, rendered⟩ := agreed.rendered
  have deadlines := render_deadlines rendered
  unfold locktimeTimestampThreshold
  omega

omit [Hashing] in
theorem Swap.Agreed.positive (agreed : swap.Agreed) :
    0 < swap.program.elementsRefundTimestamp.toNat :=
  Nat.lt_of_lt_of_le (by decide) agreed.timestamped

omit [Hashing] in
/-- A day between the deadlines separates them, unless clocks and reactions use half of it up. -/
theorem Swap.Agreed.separated (agreed : swap.Agreed)
    (spare : 2 * (swap.skew + swap.reaction) + 1 < 86400) : swap.terms.Separated := by
  obtain ⟨_, _, _, _, _, _, _, _, _, _, _, constructed⟩ := agreed.constructed
  have gap := (Htlc.construct_ok constructed).gap
  rw [← agreed.deadline] at gap
  unfold Terms.Separated
  change swap.program.elementsRefundTimestamp.toNat + 2 * (swap.skew + swap.reaction) + 1 <
    swap.htlc.refundTimestamp.toNat
  omega

/-- Only the token stands between a preimage and the escrowed USDT, at any date a block may have
now. -/
def ClaimOpen (swap : Swap World) (state : SwapState World) (preimage : Hash32) : Prop :=
  ∀ message : Message, Dated swap.terms state.now message.timestamp.toNat → ∀ error,
    Reverts swap.env (Htlc.contract swap.view swap.htlc)
      (Htlc.contract swap.view swap.htlc (.claim message preimage)) state.world state.escrow
      error →
    ∃ kept, Reverts swap.env (Htlc.contract swap.view swap.htlc)
      (pushExact swap.view HtlcError.token swap.htlc.self swap.htlc.usdt swap.htlc.claimRecipient
        swap.htlc.amount) state.world kept error

/-- The counterparty loses nothing: claimed inventory has been paid for, or it still can be with
the preimage that the claim revealed; and unclaimed inventory can be taken back after its
deadline. -/
structure CounterpartyProtected (swap : Swap World) (state : SwapState World) : Prop where
  paid : ∀ preimage, state.inventory = .claimed preimage → state.escrow.state = .claimed ∨
    state.escrow.state = .funded ∧ ClaimOpen swap state preimage ∧
      ∃ since, state.claimedAt = some since ∧ state.now ≤ since + swap.reaction
  returned : state.escrow.state = .refunded →
    state.inventory = .absent ∨ state.inventory = .refunded
  returnable : ∀ medianTime sigAllHash signature,
    swap.program.elementsRefundTimestamp.toNat < medianTime →
    swap.verify swap.program.refundXonlyPubkey sigAllHash signature = true →
    ∃ spend : Spend, spend.sigAllHash = sigAllHash ∧ spend.Mature medianTime ∧
      InventoryHtlc.main swap.verify swap.program spend (.right signature) = some ()

/-- The holder loses nothing: claimed USDT has been paid for with inventory, or the inventory is
still there, and at no date a block may have now can it be taken back. -/
structure HolderProtected (swap : Swap World) (state : SwapState World) : Prop where
  paid : state.escrow.state = .claimed → (∃ preimage, state.inventory = .claimed preimage) ∨
    state.inventory = .locked ∧
      ∀ medianTime spend signature, Dated swap.terms state.now medianTime →
        spend.Mature medianTime →
        InventoryHtlc.main swap.verify swap.program spend (.right signature) ≠ some ()
  returned : state.inventory = .refunded → state.escrow.state ≠ .claimed

omit [Hashing] in
theorem lock_eq_claimed {inventory : Inventory} (claimed : inventory.lock = .claimed) :
    ∃ preimage, inventory = .claimed preimage := by
  cases inventory with
  | absent => cases claimed
  | locked => cases claimed
  | claimed preimage => exact ⟨preimage, rfl⟩
  | refunded => cases claimed

omit [Hashing] in
theorem lock_eq_held {inventory : Inventory} (held : inventory.lock = .held) :
    inventory = .locked := by
  cases inventory with
  | absent => cases held
  | locked => rfl
  | claimed preimage => cases held
  | refunded => cases held

omit [Hashing] in
theorem escrowLock_inj {left right : HtlcState} (same : escrowLock left = escrowLock right) :
    left = right := by
  cases left <;> cases right <;> first | rfl | cases same

/-- A revealed preimage opens a funded contract before its deadline. -/
theorem Swap.Reached.claimOpen {rule : Rule} (agreed : swap.Agreed)
    (reached : swap.Reached rule start first state) {preimage : Hash32}
    (claimed : state.inventory = .claimed preimage) (funded : state.escrow.state = .funded)
    (early : ∀ date, Dated swap.terms state.now date → date < swap.htlc.refundTimestamp.toNat) :
    ClaimOpen swap state preimage := by
  intro message dated error failed
  obtain ⟨log, run⟩ := reached.escrow_run
  have right : Hashing.sha256 (encode preimage) = swap.htlc.secretHash := by
    rw [← agreed.secretHash]
    exact reached.preimage_right claimed
  have solvent := (HtlcInvariant.run agreed.keeps run).solvent funded
  exact Htlc.reverts_claim reached.escrow_free funded (early _ dated) right solvent failed

/-- Whatever the holder, the token's callers and other parties do, a counterparty that follows its
rule does not lose its inventory without the USDT. -/
theorem swap_counterparty_protected (agreed : swap.Agreed)
    (spare : 2 * (swap.skew + swap.reaction) + 1 < 86400)
    (reached : swap.Reached (counterpartyRule swap.terms) start first state) :
    CounterpartyProtected swap state := by
  have separated := agreed.separated spare
  have ledgers := reached.refines agreed.positive (counterpartyRule_party _)
  constructor
  · intro preimage claimed
    have first : state.abstract.first = .claimed := congrArg Inventory.lock claimed
    rcases ledgers.first_claimed separated first with second | ⟨held, soon, early⟩
    · have paid : state.escrow.state = .claimed := escrowLock_inj second
      exact Or.inl paid
    · have funded : state.escrow.state = .funded := escrowLock_inj held
      exact Or.inr ⟨funded, reached.claimOpen agreed claimed funded early, soon⟩
  · intro refunded
    have covered := (ledgers.counterpartySafe separated).covered
    have second : state.abstract.second = .refunded := congrArg escrowLock refunded
    rw [second] at covered
    cases inventory : state.inventory with
    | absent => exact Or.inl rfl
    | locked =>
      rcases covered (Or.inl (congrArg Inventory.lock inventory)) with wrong | wrong <;> cases wrong
    | claimed preimage =>
      rcases covered (Or.inr (congrArg Inventory.lock inventory)) with wrong | wrong <;> cases wrong
    | refunded => exact Or.inr rfl
  · intro medianTime sigAllHash signature later signed
    exact ⟨_, rfl, InventoryHtlc.main_right_accepts agreed.timestamped later signed⟩

/-- Whatever the counterparty and others do, a holder that follows its rule does not lose its USDT
without the inventory. -/
theorem swap_holder_protected (agreed : swap.Agreed)
    (reached : swap.Reached (holderRule swap.terms) start first state) :
    HolderProtected swap state := by
  have ledgers := reached.refines agreed.positive (holderRule_party _)
  have paid : state.escrow.state = .claimed → _ := fun claimed =>
    ledgers.second_claimed (congrArg escrowLock claimed)
  constructor
  · intro claimed
    rcases paid claimed with taken | ⟨held, since, _, soon, early⟩
    · exact Or.inl (lock_eq_claimed taken)
    · refine Or.inr ⟨lock_eq_held held, fun medianTime spend signature dated mature accepted => ?_⟩
      -- a refund would be dated after the deadline, which no clock has reached
      obtain ⟨late, -⟩ := InventoryHtlc.main_right_dated agreed.positive accepted mature
      have close : medianTime ≤ state.now + swap.skew := dated.2
      change state.now ≤ since + swap.reaction at soon
      change since + swap.reaction + swap.skew ≤ swap.program.elementsRefundTimestamp.toNat at early
      omega
  · intro refunded claimed
    rcases paid claimed with taken | ⟨held, _⟩
    · rw [SwapState.abstract, refunded] at taken
      cases taken
    · rw [SwapState.abstract, refunded] at held
      cases held

/-- Where both parties follow their rules, a swap that is over is over on both sides alike: both
assets changed hands, or neither did. -/
theorem swap_atomic (agreed : swap.Agreed) (spare : 2 * (swap.skew + swap.reaction) + 1 < 86400)
    (reached : swap.Reached (bothRules swap.terms) start first state)
    (settled : state.inventory.lock ≠ .held ∧ state.escrow.state ≠ .funded) :
    state.inventory.lock = .claimed ∧ state.escrow.state = .claimed ∨
      (state.inventory = .absent ∨ state.inventory = .refunded) ∧
        (state.escrow.state = .unfunded ∨ state.escrow.state = .refunded) := by
  obtain ⟨unlocked, unfunded⟩ := settled
  have ledgers := reached.refines agreed.positive (bothRules_party _)
  have closed : state.abstract.second ≠ .held := by
    intro held
    have funded : state.escrow.state = .funded := escrowLock_inj held
    exact unfunded funded
  have paid : state.inventory.lock = .claimed ↔ escrowLock state.escrow.state = .claimed :=
    ledgers.atomic (agreed.separated spare) unlocked closed
  by_cases done : state.escrow.state = .claimed
  · exact Or.inl ⟨paid.mpr (congrArg escrowLock done), done⟩
  · refine Or.inr ⟨?_, ?_⟩
    · cases inventory : state.inventory with
      | absent => exact Or.inl rfl
      | locked => exact absurd (congrArg Inventory.lock inventory) unlocked
      | claimed preimage =>
        have taken : state.escrow.state = .claimed :=
          escrowLock_inj (paid.mp (congrArg Inventory.lock inventory))
        exact absurd taken done
      | refunded => exact Or.inr rfl
    · cases escrow : state.escrow.state with
      | unfunded => exact Or.inl rfl
      | funded => exact absurd escrow unfunded
      | claimed => exact absurd escrow done
      | refunded => exact Or.inr rfl

end Parties

section Sample

/-- A signature of the claimant over the sample transaction. -/
def sampleClaimantSignature : Signature :=
  .ofNat 64 0x33d0d7999be4ddc4d9ccca90b0c57cc75524ce8712fa48669f07ef9508bf09d46d449ae058041f84a291aa8ff50cddd71d4d2656c720c854f6911373385e7d2f

/-- The transaction that the claimant signed. -/
def sampleSpend : Spend := ⟨.ofNat 32 9, 0, true⟩

/-- The program of a swap of inventory for five micro-USDT. -/
def sampleProgram : InventoryHtlc where
  secretHash := sampleHtlc.secretHash
  claimantXonlyPubkey :=
    .ofNat 32 0x79be667ef9dcbbac55a06295ce870b07029bfcdb2dce28d959f2815b16f81798
  refundXonlyPubkey := .ofNat 32 0xc6047f9441ed7d6d3045406e95c07cd85c778e4b8cef3ca7abac09b95c709ee5
  elementsRefundTimestamp := 2000000000

/-- A swap whose clocks are ten minutes off, between parties that react within an hour. -/
def sampleExchange : Swap Holdings where
  program := sampleProgram
  htlc := { sampleHtlc with elementsRefundTimestamp := 2000000000, refundTimestamp := 2000086400 }
  view := holdingsView
  env := quietToken
  verify := fun pubkey message signature =>
    pubkey == sampleProgram.claimantXonlyPubkey && message == .ofNat 32 9 &&
      signature == sampleClaimantSignature
  skew := 600
  reaction := 3600

/-- The balances before the swap: the funder holds nine micro-USDT. -/
def exchangeHoldings : Holdings := fun account => if account = .ofNat 20 0xf1 then 9 else 0

/-- How a call of the sample contract ends. -/
def exchangeCall [Hashing] (call : HtlcCall) (world : Holdings) (storage : HtlcStorage) :
    Final Holdings HtlcStorage HtlcError Unit :=
  (Htlc.contract holdingsView sampleExchange.htlc call world storage).runWith
    (plainToken sampleExchange.htlc.self)

/-- The funding of the sample contract. -/
def exchangeFunded [Hashing] : Final Holdings HtlcStorage HtlcError Unit :=
  exchangeCall (.fund ⟨.ofNat 20 1, 1999900000⟩) exchangeHoldings .fresh

/-- The sample swap after the holder claimed the inventory. -/
def exchangeClaimed [Hashing] : SwapState Holdings where
  now := 1999901000
  published := some 1999901000
  claimedAt := some 1999901000
  inventory := .claimed sampleSecret
  world := exchangeFunded.worldAfter exchangeHoldings
  escrow := exchangeFunded.storageAfter .fresh

/-- The sample swap after the counterparty claimed the USDT too. -/
def exchangeSettled [Hashing] : SwapState Holdings :=
  let final := exchangeCall (.claim ⟨.ofNat 20 2, 1999901000⟩ sampleSecret) exchangeClaimed.world
    exchangeClaimed.escrow
  { exchangeClaimed with
    world := final.worldAfter exchangeClaimed.world
    escrow := final.storageAfter exchangeClaimed.escrow }

theorem sampleExchange_agreed : letI := sha256Hashing
    sampleExchange.Agreed := by
  let := sha256Hashing
  constructor
  · refine ⟨"48428bdb7ddd829410d6bbb924fdeb3a3d7e88c2577bffae073b990c6f061d08".toList,
      "0x79BE667EF9DCBBAC55A06295CE870B07029BFCDB2DCE28D959F2815B16F81798".toList,
      "c6047f9441ed7d6d3045406e95c07cd85c778e4b8cef3ca7abac09b95c709ee5".toList, 2000000000,
      2000086400, ?_⟩
    decide +kernel
  · exact ⟨fun _ => 1, .ofNat 20 0xe5, 1999800000, .ofNat 20 0xa1, .ofNat 20 0xf1, .ofNat 20 0xc1,
      .ofNat 20 0xd1, 5, sampleHtlc.secretHash, 2000000000, 2000086400, by rfl⟩
  · rfl
  · rfl
  · rintro before after rfl held reported
    exact ⟨held, reported, Nat.le_refl _⟩

/-- The sample swap reaches both states with both rules followed. -/
theorem sampleExchange_reached : letI := sha256Hashing
    sampleExchange.Reached (bothRules sampleExchange.terms) 1999900000 exchangeHoldings
        exchangeClaimed ∧
      sampleExchange.Reached (bothRules sampleExchange.terms) 1999900000 exchangeHoldings
        exchangeSettled := by
  let := sha256Hashing
  have finishes : ∀ call world storage, Finishes sampleExchange.env
      (Htlc.contract holdingsView sampleExchange.htlc)
      (Htlc.contract holdingsView sampleExchange.htlc call world storage)
      (exchangeCall call world storage) := fun call world storage =>
    finishes_runWith (fun _ _ => trivial) (fun _ _ => trivial) _
  have held : escrowLock exchangeClaimed.escrow.state = .held := by
    decide +kernel
  have funded : sampleExchange.Step ⟨1999900000, none, none, .absent, exchangeHoldings, .fresh⟩
      (.call (.fund ⟨.ofNat 20 1, 1999900000⟩))
      ⟨1999900000, none, none, .absent, exchangeClaimed.world, exchangeClaimed.escrow⟩ := by
    refine .call ⟨by decide, by decide⟩ (finishes _ _ _) ?_
    intro message secret wrong
    cases wrong
  have claimed : sampleExchange.Step ⟨1999901000, some 1999901000, none, .locked,
        exchangeClaimed.world, exchangeClaimed.escrow⟩
      (.spend sampleSpend (.left sampleSecret sampleClaimantSignature) 1999901000)
      exchangeClaimed := by
    refine .claim rfl ⟨by decide, by decide⟩ ?_ ?_ rfl
    · decide
    · decide +kernel
  have settled : sampleExchange.Step exchangeClaimed
      (.call (.claim ⟨.ofNat 20 2, 1999901000⟩ sampleSecret)) exchangeSettled := by
    refine .call ⟨by decide, by decide⟩ (finishes _ _ _) ?_
    intro message secret _ _
    rfl
  have first : sampleExchange.Reached (bothRules sampleExchange.terms) 1999900000
      exchangeHoldings ⟨1999900000, none, none, .locked, exchangeClaimed.world,
        exchangeClaimed.escrow⟩ := by
    refine .step (.step .start ?_ funded) ?_ (.lock rfl)
    · trivial
    · exact ⟨trivial, held, by decide⟩
  have second : sampleExchange.Reached (bothRules sampleExchange.terms) 1999900000
      exchangeHoldings ⟨1999901000, none, none, .locked, exchangeClaimed.world,
        exchangeClaimed.escrow⟩ := by
    refine .step first ?_ (.wait (by decide))
    exact ⟨(fun _ published => nomatch published), fun _ => by decide, fun _ at_ => nomatch at_⟩
  have third : sampleExchange.Reached (bothRules sampleExchange.terms) 1999900000
      exchangeHoldings exchangeClaimed := by
    refine .step (.step second ?_ (.publish rfl)) ?_ claimed
    · exact ⟨⟨rfl, by decide⟩, trivial⟩
    · trivial
  refine ⟨third, .step third ?_ settled⟩
  trivial

/-- After the holder's claim the counterparty can still be paid. -/
theorem swap_counterparty_protected_claimed : letI := sha256Hashing
    CounterpartyProtected sampleExchange exchangeClaimed ∧
      exchangeClaimed.escrow.state = .funded := by
  let := sha256Hashing
  refine ⟨swap_counterparty_protected sampleExchange_agreed (by decide)
    (sampleExchange_reached.1.mono fun _ _ both => both.2), ?_⟩
  decide +kernel

/-- After both claims the holder has the inventory. -/
theorem swap_holder_protected_settled : letI := sha256Hashing
    HolderProtected sampleExchange exchangeSettled ∧ exchangeSettled.escrow.state = .claimed := by
  let := sha256Hashing
  refine ⟨swap_holder_protected sampleExchange_agreed
    (sampleExchange_reached.2.mono fun _ _ both => both.1), ?_⟩
  decide +kernel

/-- After both claims the swap is over. -/
theorem swap_atomic_settled : letI := sha256Hashing
    exchangeSettled.inventory.lock = .claimed ∧ exchangeSettled.escrow.state = .claimed ∨
      (exchangeSettled.inventory = .absent ∨ exchangeSettled.inventory = .refunded) ∧
        (exchangeSettled.escrow.state = .unfunded ∨ exchangeSettled.escrow.state = .refunded) := by
  let := sha256Hashing
  have finished : exchangeSettled.escrow.state ≠ .funded := by decide +kernel
  exact swap_atomic sampleExchange_agreed (by decide) sampleExchange_reached.2 ⟨by decide, finished⟩

end Sample

end Usdd.Verif

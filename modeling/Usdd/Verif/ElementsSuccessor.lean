import Usdd.TypeScript.ElementsState
import Usdd.Verif.VaultRuns
/-!
# One successor rule in three languages

The vault keeps its finalized state in machine words, the crate keeps the chainwork as bytes and
the client keeps everything as integers and byte arrays. On every state a vault can reach the
three rules accept the same successors, the vault's activation threshold apart, and such a state
is valid for the crate.
-/
namespace Usdd.Verif

open Usdd.Foundation Usdd.Foundation.Reentrant Usdd.Core Usdd.Contracts Usdd.Spec

/-- The crate's value of a vault state: the chainwork as 32 big-endian bytes. -/
def toCore (state : ElementsBridgeState) : SolidityElementsBridgeState where
  sequence := state.sequence
  burnCount := state.burnCount
  elementsTipHash := state.elementsTipHash
  elementsConsensusStateDigest := state.elementsConsensusStateDigest
  cumulativeBurnRoot := state.cumulativeBurnRoot
  finalizedBitcoinBlockHash := state.finalizedBitcoinBlockHash
  bitcoinHeight := state.bitcoinHeight
  elementsHeight := state.elementsHeight
  bitcoinMedianTimePast := state.bitcoinMedianTimePast
  bitcoinChainwork := .ofNat 32 state.bitcoinChainwork.toNat

@[simp]
theorem toCore_work (state : ElementsBridgeState) :
    (toCore state).bitcoinChainwork.toNat = state.bitcoinChainwork.toNat :=
  FixedBytes.toNat_ofNat state.bitcoinChainwork.isLt

@[simp]
theorem toCore_zero : toCore .zero = .zero := rfl

/-- The vault packs a state into the bytes the crate packs. -/
theorem packed_toCore (state : ElementsBridgeState) : state.packed = (toCore state).packedContents :=
  rfl

/-- Distinct vault states have distinct values. -/
theorem toCore_inj {left right : ElementsBridgeState} (same : toCore left = toCore right) :
    left = right := by
  have work := congrArg (fun state => state.bitcoinChainwork.toNat) same
  simp only [toCore_work, BitVec.toNat_inj] at work
  simp only [toCore, SolidityElementsBridgeState.mk.injEq] at same
  obtain ⟨sequence, count, tip, digest, root, block, bitcoin, elements, median, _⟩ := same
  exact ElementsBridgeState.ext sequence count tip digest root block bitcoin elements median work

section Agreement

variable [Hashing] (emptyRoot : emptyBurnNode 64 = emptyBurnRoot)
include emptyRoot

/-- The rules of vault and crate are one rule. -/
theorem follows_toCore {current next : ElementsBridgeState} :
    current.Follows next ↔ (toCore current).Follows (toCore next) := by
  constructor
  · intro follows
    have work := follows.work
    refine ⟨⟨follows.tip_ne, follows.digest_ne, follows.root_ne, follows.block_ne, ?_, ?_⟩,
      follows.sequence, follows.count_le, follows.growth_le, follows.root, follows.digest,
      follows.bitcoinHeight, follows.elementsHeight, follows.medianTime, by simpa using work⟩
    · intro none
      rw [← toCore_work next, none, FixedBytes.toNat_zero] at work
      exact Nat.not_lt_zero _ work
    · rw [emptyRoot]
      exact follows.empty
  · intro follows
    have valid := follows.canonical
    have empty := valid.empty
    rw [emptyRoot] at empty
    exact ⟨follows.sequence, follows.count_le, follows.growth_le, empty, follows.root,
      follows.digest, valid.tip, valid.digest, valid.root, valid.block, follows.bitcoinHeight,
      follows.elementsHeight, follows.medianTime, by simpa using follows.work⟩

/-- The finalized state of a vault is the zero state or a canonical one. -/
theorem VaultInvariant.finalized_canonical {vault : Vault} {log : List VaultEntry}
    {storage : VaultStorage} (invariant : VaultInvariant vault log storage) :
    toCore storage.finalizedState = .zero ∨ (toCore storage.finalizedState).Canonical := by
  have chain := invariant.sound.chain
  rw [invariant.recorded.finalized, VaultHistory.current]
  rcases List.eq_nil_or_concat (VaultHistory.ofLog log).states with none | ⟨states, last, some⟩
  · rw [none]
    exact Or.inl rfl
  · rw [some, List.concat_eq_append, ← List.cons_append] at chain
    obtain ⟨_, _, link⟩ := List.isChain_append.mp chain
    have follows := link _ (List.getLast?_eq_some_getLast (List.cons_ne_nil _ _)) last rfl
    rw [some, List.concat_eq_append, List.getLast?_concat]
    exact Or.inr ((follows_toCore emptyRoot).mp follows).canonical

/-- On every reachable state of a vault, crate, client and vault accept the same successors,
except that an inactive vault also wants the activation chainwork; and the crate accepts the
state. -/
theorem elements_successor_agreement {World : Type} {view : VaultView World} {vault : Vault}
    {env : Environment World TokenRequest CallResult} {first last : World}
    {log : List VaultEntry} {storage : VaultStorage}
    (run : Run env (vaultContract view vault) first .fresh log last storage) :
    (toCore storage.finalizedState).validate = .ok () ∧
    ∀ next : ElementsBridgeState,
      ((toCore storage.finalizedState).validateSuccessor (toCore next) = .ok () ↔
        TypeScript.validateElementsStateSuccessor (TypeScript.ofCore (toCore storage.finalizedState))
          (TypeScript.ofCore (toCore next)) = .ok ()) ∧
      (validateNextState vault storage next = .ok () ↔
        (toCore storage.finalizedState).validateSuccessor (toCore next) = .ok () ∧
          (storage.bridgeStateHash = .zero →
            vault.minimumActivationChainwork ≤ next.bitcoinChainwork)) := by
  have valid := (VaultInvariant.fresh.run run).finalized_canonical emptyRoot
  have root : (emptyBurnNode 64).bytes = TypeScript.emptyBurnRoot := by
    rw [emptyRoot]
    rfl
  refine ⟨SolidityElementsBridgeState.validate_eq_ok.mpr valid, fun next => ⟨?_, ?_⟩⟩
  · exact (TypeScript.validateElementsStateSuccessor_ofCore root).symm
  · rw [validateNextState_eq_ok, SolidityElementsBridgeState.validateSuccessor_eq_ok,
      follows_toCore emptyRoot, Vault.ActivatedBy]
    simp only [valid, true_and, BitVec.le_def]

end Agreement

/-- The constant of the vault and the client is the root of the empty tree. -/
theorem emptyBurnNode_nonzeroSha256 : @emptyBurnNode nonzeroSha256Hashing 64 = emptyBurnRoot := by
  decide +kernel

/-- A first state of a vault, with no burns. -/
def sampleState : ElementsBridgeState where
  sequence := 1
  burnCount := 0
  elementsTipHash := .ofNat 32 1
  elementsConsensusStateDigest := .ofNat 32 2
  cumulativeBurnRoot := emptyBurnRoot
  finalizedBitcoinBlockHash := .ofNat 32 3
  bitcoinHeight := 800000
  elementsHeight := 3000000
  bitcoinMedianTimePast := 1700000000
  bitcoinChainwork := 1000

/-- A vault that accepted one state agrees with the others about the next. -/
theorem elements_successor_agreement_sample :
    letI := nonzeroSha256Hashing
    let played := playVault (fun _ => true) [.advanceElementsState .zero sampleState []]
      sampleHoldings .fresh
    played.2.2.finalizedState = sampleState ∧
      (toCore played.2.2.finalizedState).validate = .ok () :=
  letI := nonzeroSha256Hashing
  ⟨by decide +kernel,
    (elements_successor_agreement emptyBurnNode_nonzeroSha256 (run_playVault _ _ _ _)).1⟩

end Usdd.Verif

import Usdd.EthereumInbound.VaultWitness
import Usdd.ProofCore.TypedPayload
/-!
# Laws of the vault's storage witness

The checks that the decoder makes while it reads and those of the whole witness are one
condition, so the witness has one encoding, and its limits bound the length of that.
-/
namespace Usdd.EthereumInbound

open Usdd.Foundation Usdd.Core Usdd.ProofCore

/-- A trie node is neither empty nor too long. -/
structure NodeFits (node : List UInt8) : Prop where
  nonempty : node ≠ []
  length_le : node.length ≤ 4096

/-- A branch has between one and 65 nodes that fit. -/
structure NodesFit (nodes : List (List UInt8)) : Prop where
  nonempty : nodes ≠ []
  count_le : nodes.length ≤ 65
  each : ∀ node ∈ nodes, NodeFits node

/-- The bytes of the nodes of a branch. -/
def nodeBytes (nodes : List (List UInt8)) : Nat := (nodes.map List.length).sum

/-- The bytes of the nodes of the deposits' branches. -/
def depositBytes (deposits : List DepositStorageProof) : Nat :=
  (deposits.map fun deposit => nodeBytes deposit.proofNodes).sum

/-- What a witness within its limits satisfies. -/
structure VaultStorageWitness.Limits (witness : VaultStorageWitness) : Prop where
  count_le : witness.deposits.length ≤ 64
  account : NodesFit witness.account.proofNodes
  each : ∀ deposit ∈ witness.deposits, NodesFit deposit.proofNodes
  total_le : nodeBytes witness.account.proofNodes + depositBytes witness.deposits ≤ 4194304

theorem nodeBytes_le {nodes : List (List UInt8)} (fits : ∀ node ∈ nodes, NodeFits node) :
    nodeBytes nodes ≤ 4096 * nodes.length := by
  induction nodes with
  | nil => exact Nat.zero_le _
  | cons node nodes ih =>
    have rest := ih fun later member => fits later (List.mem_cons_of_mem _ member)
    have head := (fits node List.mem_cons_self).length_le
    simp only [nodeBytes, List.map_cons, List.sum_cons, List.length_cons] at rest ⊢
    omega

section Limits

theorem sumNodes_eq_ok {nodes : List (List UInt8)} {start total : Nat}
    (small : start + 4096 * nodes.length < 2 ^ 64) :
    sumNodes start nodes = .ok total ↔
      (∀ node ∈ nodes, NodeFits node) ∧ total = start + nodeBytes nodes := by
  induction nodes generalizing start with
  | nil =>
    simp only [sumNodes, pure_eq_ok, nodeBytes]
    simp [eq_comm]
  | cons node nodes ih =>
    simp only [List.length_cons] at small
    simp only [sumNodes]
    simp only [↓then_eq_ok, bind_eq_ok, rejectIf_eq_ok, okOr_eq_ok, not_or,
      Sp1ProofAnnex.checkedAddUsize_eq_some, List.forall_mem_cons]
    simp only [maxMptNodeBytes, gt_iff_lt, Nat.not_lt, nodeBytes, List.map_cons, List.sum_cons]
    constructor
    · rintro ⟨⟨nonempty, length⟩, _, ⟨-, rfl⟩, summed⟩
      obtain ⟨rest, rfl⟩ := (ih (by omega)).mp summed
      exact ⟨⟨⟨nonempty, length⟩, rest⟩, by rw [nodeBytes, Nat.add_assoc]⟩
    · rintro ⟨⟨fits, rest⟩, rfl⟩
      have length := fits.length_le
      refine ⟨⟨fits.nonempty, length⟩, _, ⟨by omega, rfl⟩, (ih (by omega)).mpr ⟨rest, ?_⟩⟩
      rw [nodeBytes, Nat.add_assoc]

/-- The nodes of a branch pass their checks exactly when they fit, and are summed exactly. -/
theorem validateNodes_eq_ok {nodes : List (List UInt8)} {total : Nat} :
    validateNodes nodes = .ok total ↔ NodesFit nodes ∧ total = nodeBytes nodes := by
  simp only [validateNodes]
  simp only [↓then_eq_ok, rejectIf_eq_ok, not_or]
  simp only [maxMptProofNodes, gt_iff_lt, Nat.not_lt]
  constructor
  · rintro ⟨⟨nonempty, count⟩, summed⟩
    obtain ⟨each, rfl⟩ := (sumNodes_eq_ok (by omega)).mp summed
    exact ⟨⟨nonempty, count, each⟩, Nat.zero_add _⟩
  · rintro ⟨fits, rfl⟩
    have count := fits.count_le
    exact ⟨⟨fits.nonempty, count⟩,
      (sumNodes_eq_ok (by omega)).mpr ⟨fits.each, (Nat.zero_add _).symm⟩⟩

theorem addDeposits_eq_ok {deposits : List DepositStorageProof} {total : Nat}
    (within : total ≤ 4194304) :
    VaultStorageWitness.addDeposits total deposits = .ok () ↔
      (∀ deposit ∈ deposits, NodesFit deposit.proofNodes) ∧
        total + depositBytes deposits ≤ 4194304 := by
  induction deposits generalizing total with
  | nil =>
    simp only [VaultStorageWitness.addDeposits, pure_eq_ok, depositBytes]
    simpa using within
  | cons deposit deposits ih =>
    simp only [VaultStorageWitness.addDeposits]
    simp only [↓then_eq_ok, bind_eq_ok, rejectIf_eq_ok, okOr_eq_ok, validateNodes_eq_ok,
      Sp1ProofAnnex.checkedAddUsize_eq_some, List.forall_mem_cons]
    simp only [maxMptWitnessBytes, gt_iff_lt, Nat.not_lt, depositBytes, List.map_cons,
      List.sum_cons]
    constructor
    · rintro ⟨_, ⟨fits, rfl⟩, _, ⟨-, rfl⟩, bound, added⟩
      obtain ⟨rest, sum⟩ := (ih (by omega)).mp added
      rw [depositBytes] at sum
      exact ⟨⟨fits, rest⟩, by omega⟩
    · rintro ⟨⟨fits, rest⟩, sum⟩
      refine ⟨_, ⟨fits, rfl⟩, _, ⟨by omega, rfl⟩, by omega, (ih (by omega)).mpr ⟨rest, ?_⟩⟩
      rw [depositBytes]
      omega

/-- The limits of a witness, in numbers. -/
theorem VaultStorageWitness.validateLimits_eq_ok {witness : VaultStorageWitness} :
    witness.validateLimits = .ok () ↔ witness.Limits := by
  simp only [validateLimits]
  simp only [↓then_eq_ok, bind_eq_ok, rejectIf_eq_ok, validateNodes_eq_ok]
  simp only [maxMintBatchSize, gt_iff_lt, Nat.not_lt]
  constructor
  · rintro ⟨count, _, ⟨account, rfl⟩, added⟩
    have bytes := nodeBytes_le account.each
    have nodes := account.count_le
    obtain ⟨each, total⟩ := (addDeposits_eq_ok (by omega)).mp added
    exact ⟨count, account, each, total⟩
  · intro limits
    have total := limits.total_le
    exact ⟨limits.count_le, _, ⟨limits.account, rfl⟩,
      (addDeposits_eq_ok (by omega)).mpr ⟨limits.each, total⟩⟩

theorem VaultStorageWitness.validate_eq_ok {witness : VaultStorageWitness} :
    witness.validate = .ok () ↔ witness.Limits := by
  rw [validate, mapError_eq_ok, validateLimits_eq_ok]

end Limits

section Decoding

/-- The bytes of a node after its length, and the total after it. -/
theorem reads_nodeBytes {total length : Nat} (small : length < 2 ^ 16) :
    Reads (do
        let total ← StateT.lift (okOr (checkedAddUsize total length) DecodeError.lengthOverflow)
        Decoder.check (rejectIf (total > maxMptWitnessBytes)
          (.invalidValue "MPT witness exceeds byte limit"))
        let node ← Decoder.take length
        return (node, total) : Decoder (List UInt8 × Nat))
      (fun found => found.1) fun found => found.1.length = length ∧ found.2 = total + length ∧
        found.2 ≤ maxMptWitnessBytes := by
  have limit : maxMptWitnessBytes = 4194304 := rfl
  intro input found rest
  obtain ⟨node, last⟩ := found
  constructor
  · intro read
    obtain ⟨sum, _, added, read⟩ := Reader.bind_eq_ok.mp read
    obtain ⟨summed, rfl⟩ := Reader.lift_eq_ok.mp added
    obtain ⟨-, rfl⟩ := Sp1ProofAnnex.checkedAddUsize_eq_some.mp ((okOr_eq_ok _ _ _).mp summed)
    obtain ⟨_, _, checked, read⟩ := Reader.bind_eq_ok.mp read
    obtain ⟨bound, rfl⟩ := Reader.check_eq_ok.mp checked
    obtain ⟨bytes, _, taken, done⟩ := Reader.bind_eq_ok.mp read
    obtain ⟨exact, rfl⟩ := (reads_take _ _ _ _).mp taken
    obtain ⟨made, rfl⟩ := Reader.pure_eq_ok.mp done
    obtain ⟨rfl, rfl⟩ := Prod.mk.inj made
    exact ⟨⟨exact, rfl, Nat.not_lt.mp ((rejectIf_eq_ok _ _ _).mp bound)⟩, rfl⟩
  · rintro ⟨⟨exact, sum, bound⟩, rfl⟩
    simp only at exact sum bound
    subst exact sum
    have added : checkedAddUsize total node.length = some (total + node.length) :=
      Sp1ProofAnnex.checkedAddUsize_eq_some.mpr ⟨by omega, rfl⟩
    refine Reader.bind_eq_ok.mpr ⟨_, _, Reader.lift_eq_ok.mpr
      ⟨(okOr_eq_ok _ _ _).mpr added, rfl⟩, ?_⟩
    refine Reader.bind_eq_ok.mpr ⟨(), _, Reader.check_eq_ok.mpr
      ⟨(rejectIf_eq_ok _ _ _).mpr (Nat.not_lt.mpr bound), rfl⟩, ?_⟩
    exact Reader.bind_eq_ok.mpr ⟨node, rest, (reads_take _ _ _ _).mpr ⟨rfl, rfl⟩,
      Reader.pure_eq_ok.mpr ⟨rfl, rfl⟩⟩

/-- The length of a node passes its check exactly when the node fits. -/
theorem nodeLength_eq_ok {node : List UInt8} {length : UInt16} {error : DecodeError}
    (same : node.length = length.toNat) :
    rejectIf (length.toNat = 0 ∨ length.toNat > maxMptNodeBytes) error = .ok () ↔
      NodeFits node := by
  rw [rejectIf_eq_ok, not_or, ← same, List.length_eq_zero_iff, gt_iff_lt, Nat.not_lt]
  constructor
  · rintro ⟨nonempty, bound⟩
    exact ⟨nonempty, bound⟩
  · intro fits
    exact ⟨fits.nonempty, fits.length_le⟩

/-- A node is read where it fits and keeps the total within the limit. -/
theorem counts_decodeNode :
    Counts decodeNode encodeNode NodeFits List.length maxMptWitnessBytes := by
  intro total within
  have lengths : ∀ {node : List UInt8}, NodeFits node →
      node.length = (UInt16.ofNat node.length).toNat := by
    intro node fits
    have bound := fits.length_le
    rw [UInt16.toNat_ofNat_of_lt' (by change _ < 65536; omega)]
  change Reads _ (fun found : List UInt8 × Nat =>
    [encode (UInt16.ofNat found.1.length), found.1].flatten) _
  refine .plain (f := fun found : List UInt8 × Nat => UInt16.ofNat found.1.length) reads_u16
    fun length => ?_
  refine .checked ?_ fun passed => ?_
  · rintro found ⟨⟨fits, -⟩, rfl⟩
    exact (nodeLength_eq_ok (lengths fits)).mpr fits
  · refine (reads_nodeBytes length.toNat_lt).congr (fun found => ?_) fun _ _ => by simp
    constructor
    · rintro ⟨same, sum, bound⟩
      refine ⟨⟨(nodeLength_eq_ok same).mp passed, ?_, bound⟩, ?_⟩
      · rw [sum, same]
      · rw [same, UInt16.ofNat_toNat]
    · rintro ⟨⟨fits, sum, bound⟩, rfl⟩
      exact ⟨lengths fits, by rw [sum, ← lengths fits], bound⟩

/-- A branch is read where it fits and keeps the total within the limit. -/
theorem counts_decodeNodes :
    Counts decodeNodes encodeNodes NodesFit nodeBytes maxMptWitnessBytes := by
  intro total within
  have counts : ∀ {nodes : List (List UInt8)}, NodesFit nodes →
      nodes.length = (UInt8.ofNat nodes.length).toNat := by
    intro nodes fits
    have bound := fits.count_le
    rw [UInt8.toNat_ofNat_of_lt' (by change _ < 256; omega)]
  change Reads _ (fun found : List (List UInt8) × Nat =>
    [encode (UInt8.ofNat found.1.length), (found.1.map encodeNode).flatten].flatten) _
  refine .plain (f := fun found : List (List UInt8) × Nat => UInt8.ofNat found.1.length) reads_u8
    fun count => ?_
  refine .checked ?_ fun passed => ?_
  · rintro found ⟨⟨fits, -⟩, rfl⟩
    rw [rejectIf_eq_ok, not_or, ← UInt8.toNat_inj, ← counts fits]
    have bound := fits.count_le
    exact ⟨fun empty => fits.nonempty (List.length_eq_zero_iff.mp empty), Nat.not_lt.mpr bound⟩
  · refine (counts_decodeNode.running count.toNat total within).congr (fun found => ?_)
      fun _ _ => by simp
    rw [rejectIf_eq_ok, not_or, ← UInt8.toNat_inj, gt_iff_lt, Nat.not_lt] at passed
    constructor
    · rintro ⟨⟨same, each⟩, sum, bound⟩
      rw [← same] at passed
      refine ⟨⟨⟨?_, passed.2, each⟩, sum, bound⟩, ?_⟩
      · rintro empty
        exact passed.1 (by rw [empty]; rfl)
      · rw [same, UInt8.ofNat_toNat]
    · rintro ⟨⟨fits, sum, bound⟩, rfl⟩
      exact ⟨⟨counts fits, fits.each⟩, sum, bound⟩

theorem counts_decodeDeposit :
    Counts decodeDeposit (fun deposit => encodeNodes deposit.proofNodes)
      (fun deposit => NodesFit deposit.proofNodes) (fun deposit => nodeBytes deposit.proofNodes)
      maxMptWitnessBytes :=
  counts_decodeNodes.map (f := DepositStorageProof.mk) (fun _ => rfl) fun _ => rfl

theorem reads_decodeVaultWitnessHeader :
    Reads decodeVaultWitnessHeader (fun _ => encodeHeader tagVaultStorageWitness)
      fun _ => True :=
  .header reads_u16 reads_u16 (fun _ => rejectIf_ne_eq_ok) fun _ => rejectIf_ne_eq_ok

theorem depositCount {witness : VaultStorageWitness} (limits : witness.Limits) :
    witness.deposits.length = (UInt8.ofNat witness.deposits.length).toNat ∧
      witness.deposits.length ≤ maxMintBatchSize := by
  have bound := limits.count_le
  rw [UInt8.toNat_ofNat_of_lt' (by change _ < 256; omega)]
  exact ⟨rfl, bound⟩

/-- The streaming limits accept exactly the witnesses within the limits of the whole. -/
theorem reads_decodeVaultWitnessStreamed :
    Reads decodeVaultWitnessStreamed encode VaultStorageWitness.Limits := by
  refine .constant reads_decodeVaultWitnessHeader ?_
  refine .plain reads_u64 fun _ => .plain (reads_fixed 32) fun _ => ?_
  refine .plain (reads_fixed 32) fun _ => .plain (reads_fixed 32) fun _ => ?_
  refine .field (f := fun witness : VaultStorageWitness =>
    (witness.account.proofNodes, nodeBytes witness.account.proofNodes))
    (counts_decodeNodes 0 (Nat.zero_le _)) ?_ fun found fits => ?_
  · rintro witness ⟨⟨⟨⟨limits, -⟩, -⟩, -⟩, -⟩
    have total := limits.total_le
    refine ⟨limits.account, (Nat.zero_add _).symm, ?_⟩
    change nodeBytes witness.account.proofNodes ≤ 4194304
    omega
  obtain ⟨nodes, total⟩ := found
  refine .plain (f := fun witness : VaultStorageWitness =>
    UInt8.ofNat witness.deposits.length) reads_u8 fun count => ?_
  refine .checked ?_ fun passed => ?_
  · rintro witness ⟨⟨⟨⟨⟨⟨limits, -⟩, -⟩, -⟩, -⟩, -⟩, rfl⟩
    have count := depositCount limits
    rw [rejectIf_eq_ok, ← count.1]
    exact Nat.not_lt.mpr count.2
  have small : count.toNat ≤ maxMintBatchSize := Nat.not_lt.mp ((rejectIf_eq_ok ..).mp passed)
  refine .field (f := fun witness : VaultStorageWitness =>
    (witness.deposits, total + depositBytes witness.deposits))
    (counts_decodeDeposit.running count.toNat total fits.2.2) ?_ fun found fits' => ?_
  · rintro witness ⟨⟨⟨⟨⟨⟨limits, -⟩, -⟩, -⟩, -⟩, first⟩, rfl⟩
    obtain ⟨rfl, rfl⟩ := Prod.mk.inj first
    exact ⟨⟨(depositCount limits).1, limits.each⟩, rfl, limits.total_le⟩
  · obtain ⟨deposits, last⟩ := found
    obtain ⟨⟨length, each⟩, sum, bound⟩ := fits'
    obtain ⟨account, first, -⟩ := fits
    simp only at account first sum length each bound
    have counted : UInt8.ofNat deposits.length = count := by rw [length, UInt8.ofNat_toNat]
    refine .pure (fun witness => ?_) fun _ _ => rfl
    obtain ⟨⟨nonce, balance, storage, code, branch⟩, proofs⟩ := witness
    simp only [VaultStorageWitness.mk.injEq, VaultAccountWitness.mk.injEq, Prod.mk.injEq]
    constructor
    · rintro ⟨⟨⟨⟨⟨⟨⟨-, rfl⟩, rfl⟩, rfl⟩, rfl⟩, rfl, -⟩, -⟩, rfl, -⟩
      exact ⟨⟨rfl, rfl, rfl, rfl, rfl⟩, rfl⟩
    · rintro ⟨⟨rfl, rfl, rfl, rfl, rfl⟩, rfl⟩
      have limits : VaultStorageWitness.Limits
          ⟨⟨nonce, balance, storage, code, branch⟩, proofs⟩ := by
        refine ⟨length ▸ small, account, each, ?_⟩
        have total : last = nodeBytes branch + depositBytes proofs := by
          rw [sum, first, Nat.zero_add, depositBytes]
        change nodeBytes branch + depositBytes proofs ≤ 4194304
        exact total ▸ bound
      exact ⟨⟨⟨⟨⟨⟨⟨limits, rfl⟩, rfl⟩, rfl⟩, rfl⟩, rfl, by omega⟩, counted⟩, rfl, sum.symm⟩

/-- The decoder validates what it streamed. -/
theorem decodeFrom_vaultWitness :
    (CanonicalDecode.decodeFrom : Decoder VaultStorageWitness) = (do
      let witness ← decodeVaultWitnessStreamed
      Decoder.validated VaultStorageWitness.validate witness) := by
  simp only [decodeVaultWitnessStreamed, bind_assoc, pure_bind]
  rfl

instance : CanonicalRecord VaultStorageWitness where
  DecodeValid witness := witness.validate = .ok ()
  reads := by
    rw [decodeFrom_vaultWitness]
    intro input witness rest
    simp only [Decoder.validated, Reader.bind_eq_ok, Reader.pure_eq_ok,
      reads_decodeVaultWitnessStreamed _ _ _]
    constructor
    · rintro ⟨_, _, ⟨limits, rfl⟩, _, _, checked, rfl, rfl⟩
      exact ⟨VaultStorageWitness.validate_eq_ok.mpr limits, (Reader.check_eq_ok.mp checked).2 ▸ rfl⟩
    · rintro ⟨valid, rfl⟩
      exact ⟨witness, rest, ⟨VaultStorageWitness.validate_eq_ok.mp valid, rfl⟩, (), rest,
        Reader.check_eq_ok.mpr ⟨valid, rfl⟩, rfl, rfl⟩

end Decoding

section Panics

theorem expectU8_of_lt {count : Nat} (fits : count < 2 ^ 8) (message : String) :
    expectU8 count message = .ok (UInt8.ofNat count) := if_pos fits

theorem expectU16_of_lt {length : Nat} (fits : length < 2 ^ 16) (message : String) :
    expectU16 length message = .ok (UInt16.ofNat length) := if_pos fits

/-- A loop whose every step returns a value returns them all. -/
theorem mapM_ok {α β ε : Type} {step : α → Except ε β} {value : α → β} {items : List α}
    (each : ∀ item ∈ items, step item = .ok (value item)) :
    items.mapM step = .ok (items.map value) := by
  induction items with
  | nil => rfl
  | cons item items ih =>
    obtain ⟨here, rest⟩ := List.forall_mem_cons.mp each
    rw [List.mapM_cons, here, ih rest]
    rfl

/-- Nodes that fit are written without a panic. -/
theorem encodeNodesOrPanic_of_fit {nodes : List (List UInt8)} (fits : NodesFit nodes) :
    encodeNodesOrPanic nodes = .ok (encodeNodes nodes) := by
  have count := fits.count_le
  have written : nodes.mapM (fun node => do
      let length ← expectU16 node.length "MPT proof node length fits u16"
      return [encode length, node].flatten) = .ok (nodes.map encodeNode) := by
    apply mapM_ok
    intro node listed
    have length := (fits.each node listed).length_le
    rw [expectU16_of_lt (by omega)]
    rfl
  rw [encodeNodesOrPanic, expectU8_of_lt (by omega), written]
  rfl

/-- A witness within its limits is written without a panic. -/
theorem encodeVaultWitnessOrPanic_of_limits {witness : VaultStorageWitness}
    (limits : witness.Limits) : encodeVaultWitnessOrPanic witness = .ok (encode witness) := by
  have count := limits.count_le
  have deposits : witness.deposits.mapM (fun deposit => encodeNodesOrPanic deposit.proofNodes) =
      .ok (witness.deposits.map fun deposit => encodeNodes deposit.proofNodes) := by
    apply mapM_ok
    intro deposit listed
    exact encodeNodesOrPanic_of_fit (limits.each deposit listed)
  rw [encodeVaultWitnessOrPanic, encodeNodesOrPanic_of_fit limits.account,
    expectU8_of_lt (by omega), deposits]
  rfl

end Panics

section Lengths

theorem encodeNodes_length (nodes : List (List UInt8)) :
    (encodeNodes nodes).length = 1 + 2 * nodes.length + nodeBytes nodes := by
  have each : ((nodes.map encodeNode).flatten).length = 2 * nodes.length + nodeBytes nodes := by
    induction nodes with
    | nil => rfl
    | cons node nodes ih =>
      simp only [List.map_cons, List.flatten_cons, List.length_append, ih, nodeBytes,
        List.sum_cons, List.length_cons, encodeNode, List.flatten_nil, List.append_nil,
        encode_u16_length]
      omega
  simp only [encodeNodes, List.flatten_cons, List.flatten_nil, List.append_nil,
    List.length_append, each, encodeCount, encode_u8_length]
  omega

theorem encodeDeposits_length_le {deposits : List DepositStorageProof}
    (fits : ∀ deposit ∈ deposits, NodesFit deposit.proofNodes) :
    ((deposits.map fun deposit => encodeNodes deposit.proofNodes).flatten).length ≤
      131 * deposits.length + depositBytes deposits := by
  induction deposits with
  | nil => exact Nat.zero_le _
  | cons deposit deposits ih =>
    have rest := ih fun later member => fits later (List.mem_cons_of_mem _ member)
    have count := (fits deposit List.mem_cons_self).count_le
    simp only [List.map_cons, List.flatten_cons, List.length_append, encodeNodes_length,
      depositBytes, List.sum_cons, List.length_cons] at rest ⊢
    omega

/-- A witness within its limits is at most 8624 bytes longer than its nodes may be. -/
theorem encode_vaultWitness_length_le {witness : VaultStorageWitness} (limits : witness.Limits) :
    (encode witness).length ≤ 4194304 + 8624 := by
  have account := limits.account.count_le
  have count := limits.count_le
  have total := limits.total_le
  have deposits := encodeDeposits_length_le limits.each
  have length : (encode witness).length = 109 + (encodeNodes witness.account.proofNodes).length +
      ((witness.deposits.map fun deposit => encodeNodes deposit.proofNodes).flatten).length := by
    change [encodeHeader tagVaultStorageWitness, encode witness.account.nonce,
      encode witness.account.balanceBe, encode witness.account.storageRoot,
      encode witness.account.codeHash, encodeNodes witness.account.proofNodes,
      encodeCount witness.deposits.length,
      (witness.deposits.map fun deposit => encodeNodes deposit.proofNodes).flatten].flatten.length
        = _
    simp [encodeCount]
    omega
  rw [encodeNodes_length] at length
  omega

end Lengths

end Usdd.EthereumInbound

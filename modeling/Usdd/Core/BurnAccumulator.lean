import Mathlib.Data.Nat.Bitwise
import Usdd.Foundation.SparseTree
import Usdd.Core.Encoding
/-!
# The burn accumulator

Burn leaves are appended at consecutive positions of a tree of depth 64 whose other leaves are
empty. A proof is the list of siblings from the leaf up. The accumulator computes roots and
proofs layer by layer from the leaves it holds; both are shown to be the root and the branch of
the complete tree, and the fold of a proof is a climb in that tree.
-/
namespace Usdd.Core

open Usdd.Foundation Usdd.Foundation.SparseTree

/-- `burn_accumulator::BURN_ACCUMULATOR_DEPTH`. -/
def burnAccumulatorDepth : Nat := 64

/-- `burn_accumulator::BurnAccumulatorError`. -/
inductive BurnAccumulatorError where
  | wrongDepth (height : Nat)
  | tooManyLeaves
  | indexOutOfRange
deriving DecidableEq

/-- The preimage of `burn_accumulator_node`. -/
def burnNodePreimage (left right : Hash32) : List UInt8 :=
  [[1], encode left, encode right].flatten

/-- `burn_accumulator::burn_accumulator_node`. -/
def burnAccumulatorNode [Hashing] (left right : Hash32) : Hash32 :=
  hashBytes (burnNodePreimage left right)

/-- `EMPTY[height]`: the value of the loop of `burn_accumulator_empty` after `height` rounds. -/
def emptyBurnNode [Hashing] (height : Nat) : Hash32 :=
  emptyAt burnAccumulatorNode (hashBytes [0]) height

/-- `burn_accumulator::burn_accumulator_empty`. -/
def burnAccumulatorEmpty [Hashing] (height : Nat) : Except BurnAccumulatorError Hash32 := do
  rejectIf (height > burnAccumulatorDepth) (.wrongDepth height)
  return emptyBurnNode height

/-- `burn_accumulator::BurnProof`: siblings, bottom first. -/
structure BurnProof where
  siblings : Vector Hash32 64
deriving DecidableEq

namespace BurnProof

/-- The sibling at a level; levels past the depth have none. -/
def sibling (proof : BurnProof) (level : Nat) : Hash32 := proof.siblings[level]?.getD .zero

/-- The loop of `BurnProof::compute_root`, from a level on. -/
def foldSiblings [Hashing] (index : UInt64) : Nat → Hash32 → List Hash32 → Hash32
  | _, node, [] => node
  | level, node, sibling :: rest =>
    foldSiblings index (level + 1)
      (if (index >>> UInt64.ofNat level) &&& 1 = 0 then burnAccumulatorNode node sibling
        else burnAccumulatorNode sibling node) rest

/-- `BurnProof::compute_root`. -/
def computeRoot [Hashing] (proof : BurnProof) (leaf : Hash32) (index : UInt64) : Hash32 :=
  foldSiblings index 0 leaf proof.siblings.toList

/-- `BurnProof::verify`. -/
def verify [Hashing] (proof : BurnProof) (root leaf : Hash32) (index : UInt64) : Bool :=
  proof.computeRoot leaf index == root

end BurnProof

/-- `burn_accumulator::BurnAccumulator`. -/
structure BurnAccumulator where
  leaves : List Hash32
deriving DecidableEq

/-- The layer at a height in `root_for_leaves`; each round pairs neighbours, a last odd node
with the empty node of its height. -/
def burnLayer [Hashing] (leaves : List Hash32) : Nat → List Hash32
  | 0 => leaves
  | height + 1 => pairUp burnAccumulatorNode (emptyBurnNode height) (burnLayer leaves height)

/-- `burn_accumulator::root_for_leaves`. -/
def rootForLeaves [Hashing] (leaves : List Hash32) : Hash32 :=
  if leaves = [] then emptyBurnNode burnAccumulatorDepth
  else (burnLayer leaves burnAccumulatorDepth).headD .zero

namespace BurnAccumulator

/-- `BurnAccumulator::from_leaves`. -/
def fromLeaves (leaves : List Hash32) : Except BurnAccumulatorError BurnAccumulator := do
  rejectIf (2 ^ 64 ≤ leaves.length) .tooManyLeaves
  return ⟨leaves⟩

/-- `BurnAccumulator::burn_count`. -/
def burnCount (accumulator : BurnAccumulator) : UInt64 := UInt64.ofNat accumulator.leaves.length

/-- `BurnAccumulator::append`, with the index it returns. -/
def append (accumulator : BurnAccumulator) (leaf : Hash32) :
    Except BurnAccumulatorError (UInt64 × BurnAccumulator) := do
  rejectIf (2 ^ 64 ≤ accumulator.leaves.length) .tooManyLeaves
  return (UInt64.ofNat accumulator.leaves.length, ⟨accumulator.leaves ++ [leaf]⟩)

/-- `BurnAccumulator::root`. -/
def root [Hashing] (accumulator : BurnAccumulator) : Hash32 := rootForLeaves accumulator.leaves

/-- The layer that follows in `BurnAccumulator::proof`: a single node is paired in place. -/
def nextLayer [Hashing] (height : Nat) (layer : List Hash32) : List Hash32 :=
  if layer.length > 1 then pairUp burnAccumulatorNode (emptyBurnNode height) layer
  else layer.set 0 (burnAccumulatorNode (layer.headD .zero) (emptyBurnNode height))

/-- The loop of `BurnAccumulator::proof`: the siblings still to collect from a height on. -/
def collectSiblings [Hashing] : Nat → Nat → Nat → List Hash32 → List Hash32
  | 0, _, _, _ => []
  | remaining + 1, height, position, layer =>
    layer[position ^^^ 1]?.getD (emptyBurnNode height) ::
      collectSiblings remaining (height + 1) (position / 2) (nextLayer height layer)

theorem collectSiblings_length [Hashing] (remaining height position : Nat) (layer : List Hash32) :
    (collectSiblings remaining height position layer).length = remaining := by
  induction remaining generalizing height position layer with
  | zero => rfl
  | succ remaining ih => rw [collectSiblings, List.length_cons, ih]

/-- `BurnAccumulator::proof`. -/
def proof [Hashing] (accumulator : BurnAccumulator) (index : UInt64) :
    Except BurnAccumulatorError BurnProof := do
  rejectIf (index.toNat ≥ accumulator.leaves.length) .indexOutOfRange
  return ⟨⟨(collectSiblings 64 0 index.toNat accumulator.leaves).toArray, by
    simp [collectSiblings_length]⟩⟩

end BurnAccumulator

/-- Bit `level` of an index, as the source tests it. -/
theorem index_bit (index : UInt64) {level : Nat} (small : level < 64) :
    (index >>> UInt64.ofNat level) &&& 1 = 0 ↔ index.toNat / 2 ^ level % 2 = 0 := by
  have shift : (UInt64.ofNat level).toNat % 64 = level := by
    rw [UInt64.toNat_ofNat']
    omega
  rw [← UInt64.toNat_inj, UInt64.toNat_and, UInt64.toNat_shiftRight, shift,
    Nat.shiftRight_eq_div_pow, show (1 : UInt64).toNat = 1 from rfl, Nat.and_one_is_mod]
  rfl

/-- Flipping the lowest bit of a position gives its sibling. -/
theorem xor_one_eq_sibling (position : Nat) : position ^^^ 1 = sibling position := by
  rcases Nat.even_or_odd position with even | odd
  · rw [sibling, if_pos (Nat.even_iff.mp even), Nat.xor_one_of_even even]
  · rw [sibling, if_neg (by rw [Nat.odd_iff.mp odd]; decide), Nat.xor_one_of_odd odd]

section Laws

variable [Hashing]

/-- The leaf assignment of a list of burn leaves. -/
def burnLeaves (leaves : List Hash32) : Nat → Hash32 := leavesOf (hashBytes [0]) leaves

theorem burnAccumulatorEmpty_eq_ok {height : Nat} (small : height ≤ 64) :
    burnAccumulatorEmpty height = .ok (emptyBurnNode height) := by
  have within : ¬height > burnAccumulatorDepth := Nat.not_lt.mpr small
  simp only [burnAccumulatorEmpty, rejectIf, within, ↓reduceIte]
  rfl

/-- Folding the siblings that remain continues a climb. -/
theorem foldSiblings_eq_climb (index : UInt64) (leaf : Hash32) (branch : Nat → Hash32)
    (siblings : List Hash32) (level : Nat) (small : level + siblings.length ≤ 64)
    (agree : ∀ offset (inside : offset < siblings.length),
      siblings[offset] = branch (level + offset)) :
    BurnProof.foldSiblings index level
        (climb burnAccumulatorNode leaf index.toNat branch level) siblings =
      climb burnAccumulatorNode leaf index.toNat branch (level + siblings.length) := by
  induction siblings generalizing level with
  | nil => rfl
  | cons sibling rest ih =>
    have head : sibling = branch level := agree 0 (by simp)
    have tail : ∀ offset (inside : offset < rest.length),
        rest[offset] = branch (level + 1 + offset) := by
      intro offset inside
      have shifted := agree (offset + 1) (by simpa using inside)
      rw [List.getElem_cons_succ] at shifted
      rw [shifted, Nat.add_assoc, Nat.add_comm 1 offset]
    have step : (if (index >>> UInt64.ofNat level) &&& 1 = 0 then
          burnAccumulatorNode (climb burnAccumulatorNode leaf index.toNat branch level) sibling
        else burnAccumulatorNode sibling (climb burnAccumulatorNode leaf index.toNat branch level)) =
        climb burnAccumulatorNode leaf index.toNat branch (level + 1) := by
      simp only [List.length_cons] at small
      simp only [climb, orderedPair, index_bit index (by omega : level < 64), head]
      split <;> rfl
    simp only [List.length_cons] at small
    rw [BurnProof.foldSiblings, step, ih (level + 1) (by omega) tail, List.length_cons]
    congr 1
    omega

/-- The fold of a proof is the climb along its siblings. -/
theorem BurnProof.computeRoot_eq_climb (proof : BurnProof) (leaf : Hash32) (index : UInt64) :
    proof.computeRoot leaf index =
      climb burnAccumulatorNode leaf index.toNat proof.sibling 64 := by
  have folded := foldSiblings_eq_climb index leaf proof.sibling proof.siblings.toList 0
    (by simp) (by
      intro offset inside
      have bound : offset < 64 := by simpa using inside
      simp [BurnProof.sibling, bound])
  rw [Vector.length_toList, Nat.zero_add] at folded
  exact folded

theorem BurnProof.verify_eq_true (proof : BurnProof) (root leaf : Hash32) (index : UInt64) :
    proof.verify root leaf index = true ↔
      climb burnAccumulatorNode leaf index.toNat proof.sibling 64 = root := by
  rw [BurnProof.verify, beq_iff_eq, BurnProof.computeRoot_eq_climb]

/-- Every layer holds the occupied nodes of its height. -/
theorem isLayer_burnLayer (leaves : List Hash32) (height : Nat) :
    IsLayer burnAccumulatorNode (hashBytes [0]) (burnLeaves leaves) height
      (burnLayer leaves height) := by
  induction height with
  | zero => exact isLayer_leaves _ _ _
  | succ height ih => exact isLayer_pairUp _ ih

theorem burnLayer_ne_nil {leaves : List Hash32} (nonempty : leaves ≠ []) (height : Nat) :
    burnLayer leaves height ≠ [] := by
  induction height with
  | zero => exact nonempty
  | succ height ih =>
    rw [← List.length_pos_iff] at ih ⊢
    rw [burnLayer, pairUp_length]
    omega

/-- The accumulator's root is the root of the complete tree over its leaves. -/
theorem rootForLeaves_eq (leaves : List Hash32) :
    rootForLeaves leaves = nodeAt burnAccumulatorNode (burnLeaves leaves) 64 0 := by
  unfold rootForLeaves
  split
  · rename_i empty
    subst empty
    exact (nodeAt_empty _ (fun position (_ : 0 ≤ position) => rfl) 64 0 (Nat.zero_le _)).symm
  · rename_i nonempty
    have top := isLayer_burnLayer leaves 64 0
    have inhabited := burnLayer_ne_nil nonempty 64
    cases layer : burnLayer leaves 64 with
    | nil => exact (inhabited layer).elim
    | cons node rest =>
      rw [layer] at top
      simpa [burnAccumulatorDepth, layer] using top

/-- The layer that follows while a proof is collected is the tree's next layer. -/
theorem isLayer_nextLayer {leaf : Nat → Hash32} {height : Nat} {layer : List Hash32}
    (isLayer : IsLayer burnAccumulatorNode (hashBytes [0]) leaf height layer)
    (nonempty : layer ≠ []) :
    IsLayer burnAccumulatorNode (hashBytes [0]) leaf (height + 1)
      (BurnAccumulator.nextLayer height layer) := by
  have paired : BurnAccumulator.nextLayer height layer =
      pairUp burnAccumulatorNode (emptyBurnNode height) layer := by
    unfold BurnAccumulator.nextLayer
    match layer, nonempty with
    | [_], _ => simp [pairUp]
    | _ :: _ :: _, _ => simp
  rw [paired]
  exact isLayer_pairUp _ isLayer

/-- The siblings collected from a layer are the branch of the tree from its height on. -/
theorem collectSiblings_getElem {leaf : Nat → Hash32} {layer : List Hash32} (index height : Nat)
    (remaining : Nat)
    (isLayer : IsLayer burnAccumulatorNode (hashBytes [0]) leaf height layer)
    (nonempty : layer ≠ []) (offset : Nat)
    (inside : offset < (BurnAccumulator.collectSiblings remaining height
      (index / 2 ^ height) layer).length) :
    (BurnAccumulator.collectSiblings remaining height (index / 2 ^ height) layer)[offset] =
      branchOf burnAccumulatorNode leaf index (height + offset) := by
  induction remaining generalizing height layer offset with
  | zero => simp [BurnAccumulator.collectSiblings] at inside
  | succ remaining ih =>
    cases offset with
    | zero =>
      have read := isLayer (sibling (index / 2 ^ height))
      rw [← xor_one_eq_sibling] at read
      simp only [BurnAccumulator.collectSiblings, List.getElem_cons_zero, branchOf, Nat.add_zero]
      rw [← xor_one_eq_sibling]
      exact read
    | succ offset =>
      have grown : BurnAccumulator.nextLayer height layer ≠ [] := by
        unfold BurnAccumulator.nextLayer
        split
        · rw [← List.length_pos_iff, pairUp_length]
          omega
        · simpa using nonempty
      have halves : index / 2 ^ height / 2 = index / 2 ^ (height + 1) := by
        rw [Nat.pow_succ, Nat.div_div_eq_div_mul]
      have inside' : offset < (BurnAccumulator.collectSiblings remaining (height + 1)
          (index / 2 ^ (height + 1)) (BurnAccumulator.nextLayer height layer)).length := by
        rw [BurnAccumulator.collectSiblings_length] at inside ⊢
        omega
      have later := ih (height + 1) (isLayer_nextLayer isLayer nonempty) grown offset inside'
      simp only [BurnAccumulator.collectSiblings, halves, List.getElem_cons_succ]
      rw [later, Nat.add_assoc, Nat.add_comm 1 offset]

/-- A proof exists for exactly the appended positions, and its siblings are the tree's. -/
theorem BurnAccumulator.proof_eq_ok {accumulator : BurnAccumulator} {index : UInt64}
    (inside : index.toNat < accumulator.leaves.length) :
    ∃ proof, accumulator.proof index = .ok proof ∧ ∀ level < 64,
      proof.sibling level =
        branchOf burnAccumulatorNode (burnLeaves accumulator.leaves) index.toNat level := by
  have accepted : ¬index.toNat ≥ accumulator.leaves.length := Nat.not_le.mpr inside
  refine ⟨_, by simp only [BurnAccumulator.proof, rejectIf, accepted, ↓reduceIte]; rfl, ?_⟩
  intro level small
  have nonempty : accumulator.leaves ≠ [] := List.length_pos_iff.mp (Nat.zero_lt_of_lt inside)
  have collected := collectSiblings_getElem index.toNat 0 64
    (isLayer_leaves burnAccumulatorNode (hashBytes [0]) accumulator.leaves) nonempty level
    (by rw [BurnAccumulator.collectSiblings_length]; exact small)
  simp only [Nat.pow_zero, Nat.div_one, Nat.zero_add] at collected
  rw [burnLeaves, ← collected]
  simp [BurnProof.sibling, small]

/-- The accumulator's own proofs verify against its root. -/
theorem BurnAccumulator.proof_verifies {accumulator : BurnAccumulator} {index : UInt64}
    {proof : BurnProof} (collected : accumulator.proof index = .ok proof) :
    ∃ inside : index.toNat < accumulator.leaves.length,
      proof.verify accumulator.root accumulator.leaves[index.toNat] index = true := by
  have inside : index.toNat < accumulator.leaves.length := by
    by_contra outside
    rw [BurnAccumulator.proof, rejectIf, if_pos (Nat.not_lt.mp outside)] at collected
    cases collected
  refine ⟨inside, ?_⟩
  obtain ⟨found, same, siblings⟩ := BurnAccumulator.proof_eq_ok inside
  obtain rfl := Except.ok.inj (collected.symm.trans same)
  rw [BurnProof.verify_eq_true, climb_congr _ siblings, BurnAccumulator.root, rootForLeaves_eq]
  have start : accumulator.leaves[index.toNat] =
      burnLeaves accumulator.leaves index.toNat := (leavesOf_getElem inside).symm
  rw [start, climb_branchOf, Nat.div_eq_of_lt index.toNat_lt]

end Laws

end Usdd.Core

import Usdd.Cli.Commands
import Usdd.Core.CodecLaws
import Usdd.Core.GateLaws
import Usdd.Verif.BurnProofs
/-!
# Commands that read what commands print

What a command prints, the command that takes it reads: an amount that is converted comes back, and
a proof of a burn that is printed is valid for the leaf it was made for. Under a printed root no
other leaf is valid at a position, however the words of the command are spelt.
-/
namespace Usdd.Verif

open Usdd.Foundation Usdd.Foundation.SparseTree Usdd.Core Usdd.Cli

section Texts

/-- A number that is printed is read back. -/
theorem parseU64_decimal (word : UInt64) : parseU64 (decimal word.toNat) = some word := by
  have bound := word.toNat_lt
  have digits : ∀ digit ∈ decimal word.toNat, digit.isDigit = true := by
    intro digit member
    exact Nat.isDigit_of_mem_toDigits (by decide) (by decide) member
  have nonempty : decimal word.toNat ≠ [] := Nat.toDigits_ne_nil
  have unsigned : (decimal word.toNat).head? ≠ some '+' := by
    intro signed
    have member := List.mem_of_head? signed
    have wrong := digits '+' member
    cases wrong
  have value : (decimal word.toNat).foldl
      (fun value digit => 10 * value + (digit.toNat - 48)) 0 = word.toNat := by
    have whole := @Nat.ofDigitChars_ten_toDigits word.toNat
    rw [Nat.ofDigitChars_eq_foldl] at whole
    exact whole
  unfold parseU64
  rw [if_neg unsigned]
  have shape : ((decimal word.toNat).isEmpty || !(decimal word.toNat).all Char.isDigit) = false := by
    simp only [Bool.or_eq_false_iff, List.isEmpty_eq_false_iff, Bool.not_eq_false',
      List.all_eq_true]
    exact ⟨nonempty, digits⟩
  simp only [shape, value, Bool.false_eq_true, ↓reduceIte]
  rw [if_pos bound, UInt64.ofNat_toNat]

/-- A record is read from a text that spells its bytes. -/
theorem decodeRecord_eq_ok {α : Type} [CanonicalEncode α] [CanonicalDecode α] [CanonicalRecord α]
    {encoded : List Char} {name : String} {value : α} :
    decodeRecord α encoded name = .ok value ↔
      CanonicalRecord.DecodeValid value ∧ Spells encoded (encode value) := by
  simp only [decodeRecord, bind_eq_ok, mapError_eq_ok, decodeHex_eq_ok, decodeExact_eq_ok]
  constructor
  · rintro ⟨bytes, spelt, valid, rfl⟩
    exact ⟨valid, spelt⟩
  · rintro ⟨valid, spelt⟩
    exact ⟨_, spelt, valid, rfl⟩

/-- A text spells one value only. -/
theorem spells_unique {width : Nat} {text : List Char} {left right : FixedBytes width}
    (first : Spells text left.bytes) (second : Spells text right.bytes) : left = right := by
  have one := fixedFromStr_eq_ok.mpr first
  have other := fixedFromStr_eq_ok.mpr second
  rw [one] at other
  exact Except.ok.inj other

/-- Words that spell hashes. -/
def SpellHashes (texts : List (List Char)) (hashes : List Hash32) : Prop :=
  List.Forall₂ (fun text (hash : Hash32) => Spells text hash.bytes) texts hashes

theorem parseHashes_eq_ok {texts : List (List Char)} {name : String} {hashes : List Hash32} :
    parseHashes texts name = .ok hashes ↔ SpellHashes texts hashes := by
  rw [parseHashes, mapM_eq_ok]
  simp only [mapError_eq_ok, hashFromStr, fixedFromStr_eq_ok]
  exact Iff.rfl

/-- Words spell one list of hashes only. -/
theorem SpellHashes.unique {texts : List (List Char)} {left right : List Hash32}
    (first : SpellHashes texts left) (second : SpellHashes texts right) : left = right := by
  have one : parseHashes texts "hash" = .ok left := parseHashes_eq_ok.mpr first
  have other : parseHashes texts "hash" = .ok right := parseHashes_eq_ok.mpr second
  rw [one] at other
  exact Except.ok.inj other

end Texts

section Amounts

/-- An amount that one command converts, the other converts back. -/
theorem amount_commands_inverse (text printed : List Char) :
    (amountUsdtToUsdd text = .ok printed → ∃ amount, parseU64 text = some amount ∧
      amountUsddToUsdt printed = .ok (decimal amount.toNat)) ∧
    (amountUsddToUsdt text = .ok printed → ∃ amount, parseU64 text = some amount ∧
      amountUsdtToUsdd printed = .ok (decimal amount.toNat)) := by
  simp only [amountUsdtToUsdd, amountUsddToUsdt, readU64, bind_eq_ok, okOr_eq_ok, pure_eq_ok]
  constructor
  · rintro ⟨amount, amountRead, base, converted, rfl⟩
    have exact := usdtMicroToUsddBase_eq_some.mp converted
    have back : usddBaseToUsdtMicro base = some amount := by
      rw [usddBaseToUsdtMicro_eq_some]
      omega
    exact ⟨amount, amountRead, base, parseU64_decimal base, amount, back, rfl⟩
  · rintro ⟨base, baseRead, amount, converted, rfl⟩
    have exact := usddBaseToUsdtMicro_eq_some.mp converted
    have back : usdtMicroToUsddBase amount = some base := by
      rw [usdtMicroToUsddBase_eq_some]
      omega
    exact ⟨base, baseRead, amount, parseU64_decimal amount, base, back, rfl⟩

end Amounts

section BurnTree

variable [Hashing]

/-- The answer of `verify` is positive exactly where its words spell a proof that verifies. -/
theorem burnTreeVerify_eq_valid {root leaf index proof : List Char} :
    burnTreeVerify root leaf index proof = .ok "VALID".toList ↔
      ∃ (rootHash leafHash : Hash32) (position : UInt64) (branch : BurnProof),
        Spells root rootHash.bytes ∧ Spells leaf leafHash.bytes ∧
        parseU64 index = some position ∧ Spells proof (encode branch) ∧
        branch.verify rootHash leafHash position = true := by
  have positive : ∀ valid, verdict valid = "VALID".toList ↔ valid = true := by decide
  simp only [burnTreeVerify, readU64, bind_eq_ok, mapError_eq_ok, hashFromStr, fixedFromStr_eq_ok,
    okOr_eq_ok, decodeRecord_eq_ok, pure_eq_ok, positive]
  constructor
  · rintro ⟨rootHash, rootSpelt, leafHash, leafSpelt, position, read, branch, ⟨_, spelt⟩, verified⟩
    exact ⟨rootHash, leafHash, position, branch, rootSpelt, leafSpelt, read, spelt, verified⟩
  · rintro ⟨rootHash, leafHash, position, branch, rootSpelt, leafSpelt, read, spelt, verified⟩
    exact ⟨rootHash, rootSpelt, leafHash, leafSpelt, position, read, branch, ⟨trivial, spelt⟩,
      verified⟩

/-- A proof is printed for the words of a list of leaves and a position of it. -/
theorem burnTreeProve_eq_ok {index output : List Char} {texts : List (List Char)} :
    burnTreeProve index texts = .ok output ↔
      ∃ (position : UInt64) (leaves : List Hash32) (proof : BurnProof),
        parseU64 index = some position ∧ SpellHashes texts leaves ∧ leaves.length < 2 ^ 64 ∧
        BurnAccumulator.proof ⟨leaves⟩ position = .ok proof ∧
        output = provedText (rootForLeaves leaves) (encode proof) := by
  simp only [burnTreeProve, readU64, bind_eq_ok, mapError_eq_ok, okOr_eq_ok, parseHashes_eq_ok,
    fromLeaves_eq_ok, pure_eq_ok]
  constructor
  · rintro ⟨position, read, leaves, spelt, _, ⟨fits, rfl⟩, proof, made, rfl⟩
    exact ⟨position, leaves, proof, read, spelt, fits, made, rfl⟩
  · rintro ⟨position, leaves, proof, read, spelt, fits, made, rfl⟩
    exact ⟨position, read, leaves, spelt, _, ⟨fits, rfl⟩, proof, made, rfl⟩

/-- What the commands on a tree of burns say of a list of leaves. -/
structure BurnTreeCommands (texts : List (List Char)) (leaves : List Hash32) : Prop where
  /-- The root is that of the complete tree. -/
  root : burnTreeRoot texts = .ok (hashToHex (rootForLeaves leaves))
  /-- A proof is printed for exactly the positions of the list. -/
  proved : ∀ index position, parseU64 index = some position →
    (Succeeds (burnTreeProve index texts) ↔ position.toNat < leaves.length)
  /-- A proof that is printed is valid for the leaf at its position, in every spelling. -/
  valid : ∀ index position output, parseU64 index = some position →
    burnTreeProve index texts = .ok output →
      ∃ (inside : position.toNat < leaves.length) (proof : BurnProof),
        output = provedText (rootForLeaves leaves) (encode proof) ∧
        ∀ rootText leafText proofText, Spells rootText (rootForLeaves leaves).bytes →
          Spells leafText leaves[position.toNat].bytes → Spells proofText (encode proof) →
          burnTreeVerify rootText leafText index proofText = .ok "VALID".toList
  /-- Under the root, only the leaf of a position is valid there. -/
  bound : ∀ rootText leafText index proofText, Spells rootText (rootForLeaves leaves).bytes →
    burnTreeVerify rootText leafText index proofText = .ok "VALID".toList →
      ∃ (leaf : Hash32) (position : UInt64) (proof : BurnProof), Spells leafText leaf.bytes ∧
        parseU64 index = some position ∧ Spells proofText (encode proof) ∧
        (NodeInjectiveOn (foldedPairs proof leaf position ∪ completePairs leaves) →
          leaf = burnLeaves leaves position.toNat)

/-- A proof that verifies under the root of a list is of the leaf at its position, unless it
collides. -/
theorem verified_leaf {leaves : List Hash32} {leaf : Hash32} {position : UInt64}
    {proof : BurnProof} (verified : proof.verify (rootForLeaves leaves) leaf position = true)
    (injective : NodeInjectiveOn (foldedPairs proof leaf position ∪ completePairs leaves)) :
    leaf = burnLeaves leaves position.toNat := by
  rw [BurnProof.verify_eq_true, rootForLeaves_eq] at verified
  have top : position.toNat / 2 ^ 64 = 0 := Nat.div_eq_of_lt position.toNat_lt
  rw [← top] at verified
  have folded : ∀ level < 64, climbPair burnAccumulatorNode leaf position.toNat proof.sibling level ∈
      foldedPairs proof leaf position ∪ completePairs leaves :=
    fun level small => .inl ⟨level, small, rfl⟩
  have stored : ∀ level < 64, treePair burnAccumulatorNode (burnLeaves leaves) position.toNat level ∈
      foldedPairs proof leaf position ∪ completePairs leaves :=
    fun level small => .inr (treePair_mem_hashedIn _ _ position.toNat_lt small)
  exact (climb_binding burnAccumulatorNode injective folded stored verified).1

/-- The commands on a tree of burns agree with one another. -/
theorem burn_tree_commands (texts : List (List Char)) (leaves : List Hash32)
    (spelt : SpellHashes texts leaves) (fits : leaves.length < 2 ^ 64) :
    BurnTreeCommands texts leaves := by
  constructor
  · simp only [burnTreeRoot, bind_eq_ok, mapError_eq_ok, parseHashes_eq_ok, fromLeaves_eq_ok,
      pure_eq_ok]
    exact ⟨leaves, spelt, ⟨leaves⟩, ⟨fits, rfl⟩, rfl⟩
  · intro index position read
    constructor
    · rintro ⟨output, printed⟩
      obtain ⟨position', leaves', proof, read', spelt', _, made, _⟩ := burnTreeProve_eq_ok.mp printed
      have samePosition : position = position' := Option.some.inj (read.symm.trans read')
      have sameLeaves := spelt.unique spelt'
      rw [samePosition, sameLeaves]
      exact (BurnAccumulator.proof_verifies made).1
    · intro inside
      obtain ⟨proof, made, _⟩ := @BurnAccumulator.proof_eq_ok _ ⟨leaves⟩ position inside
      exact ⟨_, burnTreeProve_eq_ok.mpr ⟨position, leaves, proof, read, spelt, fits, made, rfl⟩⟩
  · intro index position output read printed
    obtain ⟨position', leaves', proof, read', spelt', _, made, rfl⟩ := burnTreeProve_eq_ok.mp printed
    obtain rfl : position = position' := Option.some.inj (read.symm.trans read')
    obtain rfl := spelt.unique spelt'
    obtain ⟨inside, verified⟩ := BurnAccumulator.proof_verifies made
    refine ⟨inside, proof, rfl, ?_⟩
    intro rootText leafText proofText rootSpelt leafSpelt proofSpelt
    exact burnTreeVerify_eq_valid.mpr
      ⟨_, _, position, proof, rootSpelt, leafSpelt, read, proofSpelt, verified⟩
  · intro rootText leafText index proofText rootSpelt accepted
    obtain ⟨root, leaf, position, proof, rootSpelt', leafSpelt, read, proofSpelt, verified⟩ :=
      burnTreeVerify_eq_valid.mp accepted
    rw [spells_unique rootSpelt' rootSpelt] at verified
    exact ⟨leaf, position, proof, leafSpelt, read, proofSpelt, verified_leaf verified⟩

omit [Hashing] in
/-- The commands on a tree of one leaf. -/
theorem burn_tree_commands_sample : letI := sha256Hashing
    BurnTreeCommands [List.replicate 64 '1'] [.ofNat 32 (0x11 * (256 ^ 32 - 1) / 255)] :=
  let := sha256Hashing
  burn_tree_commands _ _ (.cons (show parseHex _ = some _ by decide +kernel) .nil) (by decide)

end BurnTree

end Usdd.Verif

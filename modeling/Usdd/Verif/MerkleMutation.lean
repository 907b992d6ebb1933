import Usdd.BitcoinBmm.Blocks
import Mathlib.Data.Nat.Log
/-!
# Merkle trees that read as unmutated

A level of a Bitcoin Merkle tree pairs its hashes and, where one is left over, pairs it with
itself. A list that spells out such a pair has the root of the shorter list, and it is reported:
the pair it spells out has equal halves. Where the pairs hashed do not collide nothing else can
confuse two lists of one depth.
-/
namespace Usdd.Verif

open Usdd.Foundation Usdd.Core Usdd.BitcoinBmm

variable [Hashing]

/-- The hash of a pair of a level. -/
def pairHash (pair : BlockHash × BlockHash) : BlockHash :=
  doubleSha256 (pair.1.bytes ++ pair.2.bytes)

/-- The pairs that are hashed from one level to the next. -/
def levelPairs : List BlockHash → List (BlockHash × BlockHash)
  | left :: right :: rest => (left, right) :: levelPairs rest
  | [last] => [(last, last)]
  | [] => []

/-- A pair that is hashed on the way from a list to its root. -/
inductive HashedPair : List BlockHash → BlockHash × BlockHash → Prop
  | here {hashes : List BlockHash} {pair : BlockHash × BlockHash} :
    2 ≤ hashes.length → pair ∈ levelPairs hashes → HashedPair hashes pair
  | above {hashes : List BlockHash} {pair : BlockHash × BlockHash} :
    2 ≤ hashes.length → HashedPair (nextLevel hashes) pair → HashedPair hashes pair

/-- Double SHA-256 does not collide on the pairs that two trees hash. -/
def PairsApart (left right : List BlockHash) : Prop :=
  Set.InjOn pairHash { pair | HashedPair left pair ∨ HashedPair right pair }

section Levels

theorem nextLevel_eq : ∀ hashes : List BlockHash,
    nextLevel hashes = (levelPairs hashes).map pairHash
  | [] => rfl
  | [last] => rfl
  | left :: right :: rest => by
    rw [nextLevel, levelPairs, List.map_cons, nextLevel_eq rest]
    rfl

theorem nextLevel_length : ∀ hashes : List BlockHash,
    (nextLevel hashes).length = (hashes.length + 1) / 2
  | [] => by simp [nextLevel]
  | [last] => by simp [nextLevel]
  | left :: right :: rest => by
    have tail := nextLevel_length rest
    simp only [nextLevel, List.length_cons, tail]
    omega

/-- A level of an even number of hashes is independent of what follows. -/
theorem nextLevel_append : ∀ {hashes : List BlockHash} (later : List BlockHash),
    hashes.length % 2 = 0 → nextLevel (hashes ++ later) = nextLevel hashes ++ nextLevel later
  | [], later, _ => rfl
  | [last], later, even => by simp at even
  | left :: right :: rest, later, even => by
    have tail : rest.length % 2 = 0 := by
      simp only [List.length_cons] at even
      omega
    simp only [List.cons_append, nextLevel]
    rw [nextLevel_append later tail]

theorem nextLevel_drop : ∀ (hashes : List BlockHash) (count : Nat),
    nextLevel (hashes.drop (2 * count)) = (nextLevel hashes).drop count
  | hashes, 0 => rfl
  | [], count + 1 => by simp [nextLevel]
  | [last], count + 1 => by
    have past : [last].length ≤ 2 * (count + 1) := by
      simp only [List.length_singleton]
      omega
    rw [List.drop_eq_nil_of_le past]
    simp [nextLevel]
  | left :: right :: rest, count + 1 => by
    rw [show 2 * (count + 1) = 2 * count + 1 + 1 by omega, List.drop_succ_cons,
      List.drop_succ_cons, nextLevel, List.drop_succ_cons]
    exact nextLevel_drop rest count

/-- The flag only rises, and the root does not depend on it. -/
theorem merkleLevels_flag (count : Nat) (hashes : List BlockHash) (mutated : Bool) :
    merkleLevels count hashes mutated = ((merkleLevels count hashes false).1,
      mutated || (merkleLevels count hashes false).2) := by
  induction count generalizing hashes mutated with
  | zero => simp [merkleLevels]
  | succ count ih =>
    cases hashes with
    | nil => simp [merkleLevels]
    | cons first hashes =>
      cases hashes with
      | nil => simp [merkleLevels]
      | cons second rest =>
        simp only [merkleLevels]
        rw [ih, ih _ (false || _)]
        simp [Bool.or_assoc]

/-- More levels than hashes are never used. -/
theorem merkleLevels_count {count : Nat} {hashes : List BlockHash} (mutated : Bool)
    (enough : hashes.length ≤ count) :
    merkleLevels count hashes mutated = merkleLevels hashes.length hashes mutated := by
  induction count using Nat.strong_induction_on generalizing hashes mutated with
  | _ count ih =>
    cases hashes with
    | nil => cases count <;> rfl
    | cons first hashes =>
      cases hashes with
      | nil =>
        cases count with
        | zero => simp at enough
        | succ count => rfl
      | cons second rest =>
        cases count with
        | zero => simp at enough
        | succ count =>
          have shorter := nextLevel_length (first :: second :: rest)
          simp only [List.length_cons] at enough shorter
          simp only [List.length_cons, merkleLevels]
          rw [ih count (by omega) _ (by omega), ih (rest.length + 1) (by omega) _ (by omega)]

/-- The reduction of a list of at least two hashes: one level, then the rest. -/
theorem merkleRootAndMutation_step {hashes : List BlockHash} (several : 2 ≤ hashes.length) :
    merkleRootAndMutation hashes = ((merkleRootAndMutation (nextLevel hashes)).1,
      hasEqualPair hashes || (merkleRootAndMutation (nextLevel hashes)).2) := by
  cases hashes with
  | nil => simp at several
  | cons first hashes =>
    cases hashes with
    | nil => simp at several
    | cons second rest =>
      have shorter := nextLevel_length (first :: second :: rest)
      simp only [List.length_cons] at shorter
      unfold merkleRootAndMutation
      simp only [List.length_cons, merkleLevels]
      rw [merkleLevels_flag, merkleLevels_count _ (by omega)]
      rfl

end Levels

section Distinct

omit [Hashing] in
/-- The pairs of an unmutated level determine it. -/
theorem levelPairs_inj : ∀ {left right : List BlockHash},
    hasEqualPair left = false → hasEqualPair right = false →
    levelPairs left = levelPairs right → left = right
  | [], [], _, _, _ => rfl
  | [], [_], _, _, same => by simp [levelPairs] at same
  | [], _ :: _ :: _, _, _, same => by simp [levelPairs] at same
  | [_], [], _, _, same => by simp [levelPairs] at same
  | [one], [other], _, _, same => by
    simp only [levelPairs, List.cons.injEq, Prod.mk.injEq] at same
    rw [same.1.1]
  | [_], one :: other :: _, _, unequal, same => by
    simp only [levelPairs, List.cons.injEq, Prod.mk.injEq] at same
    simp [hasEqualPair, ← same.1.1, ← same.1.2] at unequal
  | _ :: _ :: _, [], _, _, same => by simp [levelPairs] at same
  | one :: other :: _, [_], unequal, _, same => by
    simp only [levelPairs, List.cons.injEq, Prod.mk.injEq] at same
    simp [hasEqualPair, same.1.1, same.1.2] at unequal
  | _ :: _ :: left, _ :: _ :: right, leftUnequal, rightUnequal, same => by
    simp only [levelPairs, List.cons.injEq, Prod.mk.injEq] at same
    simp only [hasEqualPair, Bool.or_eq_false_iff] at leftUnequal rightUnequal
    rw [same.1.1, same.1.2, levelPairs_inj leftUnequal.2 rightUnequal.2 same.2]

omit [Hashing] in
/-- A function that is injective on the elements of two lists tells the lists apart. -/
theorem map_injOn {α β : Type} {f : α → β} {inside : Set α} (injective : inside.InjOn f) :
    ∀ {left right : List α}, (∀ item ∈ left, item ∈ inside) → (∀ item ∈ right, item ∈ inside) →
      left.map f = right.map f → left = right
  | [], [], _, _, _ => rfl
  | [], _ :: _, _, _, same => by simp at same
  | _ :: _, [], _, _, same => by simp at same
  | one :: left, other :: right, leftInside, rightInside, same => by
    simp only [List.map_cons, List.cons.injEq] at same
    simp only [List.forall_mem_cons] at leftInside rightInside
    have head := injective leftInside.1 rightInside.1 same.1
    rw [head, map_injOn injective leftInside.2 rightInside.2 same.2]

/-- Where their pairs do not collide, equal next levels come from equal pairs. -/
theorem PairsApart.level {left right : List BlockHash} (apart : PairsApart left right)
    (leftSeveral : 2 ≤ left.length) (rightSeveral : 2 ≤ right.length)
    (same : nextLevel left = nextLevel right) : levelPairs left = levelPairs right := by
  rw [nextLevel_eq, nextLevel_eq] at same
  refine map_injOn apart ?_ ?_ same
  · intro pair member
    exact Or.inl (.here leftSeveral member)
  · intro pair member
    exact Or.inr (.here rightSeveral member)

theorem PairsApart.above {left right : List BlockHash} (apart : PairsApart left right)
    (leftSeveral : 2 ≤ left.length) (rightSeveral : 2 ≤ right.length) :
    PairsApart (nextLevel left) (nextLevel right) := by
  refine Set.InjOn.mono ?_ apart
  rintro pair (hashed | hashed)
  · exact Or.inl (.above leftSeveral hashed)
  · exact Or.inr (.above rightSeveral hashed)

omit [Hashing] in
/-- A tree with a level above its leaves has at least two of them. -/
theorem several_of_clog {hashes : List BlockHash} {depth : Nat}
    (levels : Nat.clog 2 hashes.length = depth + 1) : 2 ≤ hashes.length := by
  by_contra few
  rw [Nat.clog_of_right_le_one (by omega)] at levels
  omega

theorem clog_nextLevel {hashes : List BlockHash} {depth : Nat}
    (levels : Nat.clog 2 hashes.length = depth + 1) :
    Nat.clog 2 (nextLevel hashes).length = depth := by
  have several := several_of_clog levels
  rw [Nat.clog_of_two_le (by decide) several] at levels
  rw [nextLevel_length]
  have halves : (hashes.length + 2 - 1) / 2 = (hashes.length + 1) / 2 := rfl
  rw [halves] at levels
  omega

/-- Two unmutated lists of one depth with one root are the same list. The induction is on the
depth: the levels above are equal, so the pairs are, and an unmutated level has no pair that
could stand for a hash left over. -/
theorem root_determines {depth : Nat} {left right : List BlockHash} (leftNonempty : left ≠ [])
    (rightNonempty : right ≠ []) (leftLevels : Nat.clog 2 left.length = depth)
    (rightLevels : Nat.clog 2 right.length = depth) (apart : PairsApart left right)
    (leftUnmutated : (merkleRootAndMutation left).2 = false)
    (rightUnmutated : (merkleRootAndMutation right).2 = false)
    (root : (merkleRootAndMutation left).1 = (merkleRootAndMutation right).1) : left = right := by
  induction depth generalizing left right with
  | zero =>
    have single : ∀ {hashes : List BlockHash}, hashes ≠ [] → Nat.clog 2 hashes.length = 0 →
        ∃ hash, hashes = [hash] := by
      intro hashes nonempty levels
      have few : hashes.length ≤ 1 := by
        by_contra several
        have positive := Nat.clog_pos (show 1 < 2 by decide) (show 2 ≤ hashes.length by omega)
        omega
      have some := List.length_pos_iff.mpr nonempty
      exact List.length_eq_one_iff.mp (by omega)
    obtain ⟨one, rfl⟩ := single leftNonempty leftLevels
    obtain ⟨other, rfl⟩ := single rightNonempty rightLevels
    have same : one = other := root
    rw [same]
  | succ depth ih =>
    have leftSeveral := several_of_clog leftLevels
    have rightSeveral := several_of_clog rightLevels
    rw [merkleRootAndMutation_step leftSeveral, Bool.or_eq_false_iff] at leftUnmutated
    rw [merkleRootAndMutation_step rightSeveral, Bool.or_eq_false_iff] at rightUnmutated
    rw [merkleRootAndMutation_step leftSeveral, merkleRootAndMutation_step rightSeveral] at root
    have nonempty : ∀ {hashes : List BlockHash}, 2 ≤ hashes.length → nextLevel hashes ≠ [] := by
      intro hashes several empty
      have length := nextLevel_length hashes
      rw [empty, List.length_nil] at length
      omega
    have above : nextLevel left = nextLevel right := ih (nonempty leftSeveral)
      (nonempty rightSeveral) (clog_nextLevel leftLevels) (clog_nextLevel rightLevels)
      (apart.above leftSeveral rightSeveral) leftUnmutated.2 rightUnmutated.2 root
    have pairs := apart.level leftSeveral rightSeveral above
    exact levelPairs_inj leftUnmutated.1 rightUnmutated.1 pairs

end Distinct

section Extension

/-- Spelling out the pair of a hash left over changes nothing above the level. -/
theorem nextLevel_spelled : ∀ {hashes : List BlockHash} (last : BlockHash),
    hashes.length % 2 = 1 → hashes.getLast? = some last →
    nextLevel (hashes ++ [last]) = nextLevel hashes ∧ hasEqualPair (hashes ++ [last]) = true
  | [], _, odd, _ => by simp at odd
  | [only], last, _, found => by
    simp only [List.getLast?_singleton, Option.some.injEq] at found
    subst found
    simp [nextLevel, hasEqualPair]
  | left :: right :: rest, last, odd, found => by
    have tailOdd : rest.length % 2 = 1 := by
      simp only [List.length_cons] at odd
      omega
    have tailNonempty : rest ≠ [] := by
      rintro rfl
      simp at tailOdd
    have tailFound : rest.getLast? = some last := by
      rw [← found, List.getLast?_cons_cons]
      cases rest with
      | nil => exact absurd rfl tailNonempty
      | cons first rest => rw [List.getLast?_cons_cons]
    obtain ⟨level, reported⟩ := nextLevel_spelled last tailOdd tailFound
    simp only [List.cons_append, nextLevel, hasEqualPair]
    exact ⟨by rw [level], by rw [reported, Bool.or_true]⟩

/-- A list whose last block is repeated at its own width has the same root and is reported. The
induction is on the level at which the block is a single hash left over. -/
theorem extension_reported {hashes : List BlockHash} {level : Nat}
    (divides : 2 ^ level ∣ hashes.length) (largest : ¬2 ^ (level + 1) ∣ hashes.length)
    (short : ∀ width, hashes.length ≠ 2 ^ width) :
    merkleRootAndMutation (hashes ++ hashes.drop (hashes.length - 2 ^ level)) =
      ((merkleRootAndMutation hashes).1, true) := by
  induction level generalizing hashes with
  | zero =>
    have odd : hashes.length % 2 = 1 := by
      rw [Nat.zero_add, Nat.pow_one, Nat.dvd_iff_mod_eq_zero] at largest
      omega
    have several : 2 ≤ hashes.length := by
      have single := short 0
      omega
    have nonempty : hashes ≠ [] := List.length_pos_iff.mp (by omega)
    have found := List.getLast?_eq_some_getLast nonempty
    have block : hashes.drop (hashes.length - 2 ^ 0) = [hashes.getLast nonempty] := by
      rw [Nat.pow_zero, List.drop_length_sub_one nonempty]
    obtain ⟨same, reported⟩ := nextLevel_spelled _ odd found
    rw [block, merkleRootAndMutation_step (by rw [List.length_append]; omega),
      merkleRootAndMutation_step several, same, reported, Bool.true_or]
  | succ level ih =>
    obtain ⟨half, whole⟩ : 2 ∣ hashes.length :=
      Nat.dvd_trans ⟨2 ^ level, by rw [Nat.pow_succ']⟩ divides
    have up : (nextLevel hashes).length = half := by
      rw [nextLevel_length]
      omega
    have positive : half ≠ 0 := by
      intro none
      rw [whole, none] at largest
      exact largest (dvd_zero _)
    have halfDivides : 2 ^ level ∣ half := by
      rw [whole, Nat.pow_succ'] at divides
      exact Nat.dvd_of_mul_dvd_mul_left (by decide) divides
    have halfLargest : ¬2 ^ (level + 1) ∣ half := by
      intro more
      rw [whole, @Nat.pow_succ' 2 (level + 1)] at largest
      exact largest (Nat.mul_dvd_mul_left 2 more)
    have halfShort : ∀ width, half ≠ 2 ^ width := by
      intro width power
      exact short (width + 1) (by rw [whole, power, Nat.pow_succ'])
    have block : nextLevel (hashes.drop (hashes.length - 2 ^ (level + 1))) =
        (nextLevel hashes).drop ((nextLevel hashes).length - 2 ^ level) := by
      rw [up, ← nextLevel_drop, whole, Nat.pow_succ', Nat.mul_sub]
    have several : 2 ≤ hashes.length := by omega
    rw [merkleRootAndMutation_step (by rw [List.length_append]; omega),
      merkleRootAndMutation_step several, nextLevel_append _ (by omega), block,
      ih (up ▸ halfDivides) (up ▸ halfLargest) (up ▸ halfShort), Bool.or_true]

end Extension

/-- Unmutated lists of one depth are determined by their root, and the extension of a list by its
last block keeps the root and is reported. -/
theorem merkle_trees_unconfused :
    (∀ left right : List BlockHash, left ≠ [] → right ≠ [] →
      Nat.clog 2 left.length = Nat.clog 2 right.length → PairsApart left right →
      (merkleRootAndMutation left).2 = false → (merkleRootAndMutation right).2 = false →
      (merkleRootAndMutation left).1 = (merkleRootAndMutation right).1 → left = right) ∧
    ∀ (hashes : List BlockHash) (level : Nat), 2 ^ level ∣ hashes.length →
      ¬2 ^ (level + 1) ∣ hashes.length → (∀ width, hashes.length ≠ 2 ^ width) →
      merkleRootAndMutation (hashes ++ hashes.drop (hashes.length - 2 ^ level)) =
        ((merkleRootAndMutation hashes).1, true) := by
  constructor
  · intro left right leftNonempty rightNonempty depth apart leftUnmutated rightUnmutated root
    exact root_determines leftNonempty rightNonempty depth rfl apart leftUnmutated
      rightUnmutated root
  · intro hashes level divides largest short
    exact extension_reported divides largest short

section Sample

/-- Three hashes: the last one is left over. -/
def threeLeaves : List BlockHash :=
  [FixedBytes.ofNat 32 1, FixedBytes.ofNat 32 2, FixedBytes.ofNat 32 3]

/-- The pairs that the tree over three hashes hashes. -/
def threeLeafPairs [Hashing] : List (BlockHash × BlockHash) :=
  levelPairs threeLeaves ++ levelPairs (nextLevel threeLeaves)

theorem threeLeaf_hashedPair {pair : BlockHash × BlockHash}
    (hashed : HashedPair threeLeaves pair) : pair ∈ threeLeafPairs := by
  cases hashed with
  | here _ member => exact List.mem_append_left _ member
  | above _ higher =>
    cases higher with
    | here _ member => exact List.mem_append_right _ member
    | above _ top =>
      cases top with
      | here several _ => simp [nextLevel, threeLeaves] at several
      | above several _ => simp [nextLevel, threeLeaves] at several

theorem threeLeaf_pairsApart
    (distinct : (threeLeafPairs.map pairHash).Nodup) : PairsApart threeLeaves threeLeaves := by
  intro one oneHashed other otherHashed same
  have oneListed := threeLeaf_hashedPair (or_self_iff.mp oneHashed)
  have otherListed := threeLeaf_hashedPair (or_self_iff.mp otherHashed)
  exact List.inj_on_of_nodup_map distinct oneListed otherListed same

theorem merkle_trees_unconfused_three :
    letI := sha256Hashing
    (threeLeaves = threeLeaves) ∧
      merkleRootAndMutation (threeLeaves ++ threeLeaves.drop 2) =
        ((merkleRootAndMutation threeLeaves).1, true) := by
  let hashing := sha256Hashing
  have apart : PairsApart threeLeaves threeLeaves := threeLeaf_pairsApart (by decide +kernel)
  have unmutated : (merkleRootAndMutation threeLeaves).2 = false := by decide +kernel
  have short : ∀ width, threeLeaves.length ≠ 2 ^ width := by
    intro width
    rcases width with - | - | width
    · decide
    · decide
    · have small : 2 ^ (width + 2) = 4 * 2 ^ width := by
        rw [Nat.pow_add, Nat.mul_comm]
      rw [small]
      change 3 ≠ 4 * 2 ^ width
      omega
  obtain ⟨determined, extended⟩ := merkle_trees_unconfused
  exact ⟨determined _ _ (by decide) (by decide) rfl apart unmutated unmutated rfl,
    extended threeLeaves 0 (by decide) (by decide) short⟩

end Sample

end Usdd.Verif

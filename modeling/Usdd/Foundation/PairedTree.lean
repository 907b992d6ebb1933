import Mathlib.Data.Nat.Log
import Usdd.Foundation.SparseTree
/-!
# Hash trees that repeat their last node

A tree over any number of leaves in which the last node of an odd layer is paired with itself.
It is a complete tree in which every position past the end repeats an earlier one, so what holds
of complete trees holds of it: the siblings collected layer by layer are its branches, and a
climb that reaches its root has used them.
-/
namespace Usdd.Foundation.PairedTree

open SparseTree

variable {H : Type*} (node : H → H → H)

section Folds

/-- Fold siblings from a value up; the lowest bit of the index says on which side it stands. -/
def foldUp : Nat → H → List H → H
  | _, value, [] => value
  | index, value, other :: rest =>
    foldUp (index / 2) (if index % 2 = 0 then node value other else node other value) rest

/-- A fold is a climb along its siblings. -/
theorem foldUp_eq_climb (filler : H) (index : Nat) (value : H) (siblings : List H) :
    foldUp node index value siblings =
      climb node value index (fun level => siblings[level]?.getD filler) siblings.length := by
  induction siblings generalizing index value with
  | nil => rfl
  | cons other rest ih =>
    have first : climb node value index (fun level => (other :: rest)[level]?.getD filler) 1 =
        if index % 2 = 0 then node value other else node other value := by
      simp only [climb, orderedPair, Nat.pow_zero, Nat.div_one, List.getElem?_cons_zero,
        Option.getD_some]
      split <;> rfl
    rw [List.length_cons, Nat.add_comm, climb_add, first, foldUp, ih]
    simp only [Nat.pow_one, Nat.add_comm 1, List.getElem?_cons_succ]

end Folds

section Layers

/-- Hash a layer pairwise; a last odd node is paired with itself. -/
def pairSelf : List H → List H
  | [] => []
  | [last] => [node last last]
  | left :: right :: rest => node left right :: pairSelf rest

@[simp]
theorem pairSelf_length (layer : List H) :
    (pairSelf node layer).length = (layer.length + 1) / 2 := by
  induction layer using pairSelf.induct with
  | case1 => simp [pairSelf]
  | case2 last => simp [pairSelf]
  | case3 left right rest ih =>
    simp only [pairSelf, List.length_cons, ih]
    omega

/-- Pairing reads two neighbours, where a missing right one is the left one. -/
theorem pairSelf_getElem? (layer : List H) (position : Nat) :
    (pairSelf node layer)[position]? = layer[2 * position]?.map fun left =>
      node left (layer[2 * position + 1]?.getD left) := by
  induction layer using pairSelf.induct generalizing position with
  | case1 => simp [pairSelf]
  | case2 last =>
    cases position with
    | zero => simp [pairSelf]
    | succ position => simp [pairSelf, Nat.mul_succ]
  | case3 left right rest ih =>
    cases position with
    | zero => simp [pairSelf]
    | succ position => simpa [pairSelf, Nat.mul_succ] using ih position

theorem pairSelf_ne_nil {layer : List H} (nonempty : layer ≠ []) : pairSelf node layer ≠ [] := by
  rw [← List.length_pos_iff] at nonempty ⊢
  rw [pairSelf_length]
  omega

/-- The position of a list that a position of the complete tree of a depth repeats. -/
def sourceOf : Nat → Nat → Nat → Nat
  | 0, count, index => min index (count - 1)
  | depth + 1, count, index =>
    min (2 * sourceOf depth ((count + 1) / 2) (index / 2) + index % 2) (count - 1)

theorem sourceOf_lt {count : Nat} (positive : 0 < count) (depth index : Nat) :
    sourceOf depth count index < count := by
  cases depth with
  | zero =>
    rw [sourceOf]
    omega
  | succ depth =>
    rw [sourceOf]
    omega

/-- A position within the list repeats itself. -/
theorem sourceOf_self {depth count index : Nat} (inside : index < count) :
    sourceOf depth count index = index := by
  induction depth generalizing count index with
  | zero =>
    rw [sourceOf]
    omega
  | succ depth ih =>
    rw [sourceOf, ih (by omega)]
    omega

/-- The leaves of the complete tree of a depth over a list, repeated past its end. -/
def repeated (filler : H) (leaves : List H) (depth position : Nat) : H :=
  leaves[sourceOf depth leaves.length position]?.getD filler

theorem repeated_eq (filler : H) {leaves : List H} {depth position : Nat}
    (inside : sourceOf depth leaves.length position < leaves.length) :
    repeated filler leaves depth position = leaves[sourceOf depth leaves.length position] := by
  rw [repeated, List.getElem?_eq_getElem inside, Option.getD_some]

theorem repeated_self (filler : H) {leaves : List H} (depth : Nat) {position : Nat}
    (inside : position < leaves.length) :
    repeated filler leaves depth position = leaves[position] := by
  rw [repeated, sourceOf_self inside, List.getElem?_eq_getElem inside, Option.getD_some]

/-- The tree above the leaves is the tree over the next layer. -/
theorem repeated_parent (filler : H) {leaves : List H} (nonempty : leaves ≠ []) (depth : Nat) :
    nodeAt node (repeated filler leaves (depth + 1)) 1 =
      repeated filler (pairSelf node leaves) depth := by
  funext position
  have positive := List.length_pos_iff.mpr nonempty
  let source := sourceOf depth ((leaves.length + 1) / 2) position
  have inside : source < (leaves.length + 1) / 2 := sourceOf_lt (by omega) depth position
  have left : sourceOf (depth + 1) leaves.length (2 * position) = 2 * source := by
    rw [sourceOf, show 2 * position / 2 = position by omega]
    omega
  have right : sourceOf (depth + 1) leaves.length (2 * position + 1) =
      min (2 * source + 1) (leaves.length - 1) := by
    rw [sourceOf, show (2 * position + 1) / 2 = position by omega]
    omega
  have stored : 2 * source < leaves.length := by omega
  simp only [nodeAt]
  unfold repeated
  rw [left, right, pairSelf_length, pairSelf_getElem?, List.getElem?_eq_getElem stored]
  simp only [Option.map_some, Option.getD_some]
  by_cases both : 2 * source + 1 < leaves.length
  · rw [Nat.min_eq_left (by omega), List.getElem?_eq_getElem both]
    rfl
  · have last : min (2 * source + 1) (leaves.length - 1) = 2 * source := by omega
    rw [last, List.getElem?_eq_getElem stored, List.getElem?_eq_none (by omega)]
    rfl

/-- The only node of the last layer is the root of the complete tree. -/
theorem nodeAt_repeated (filler : H) {leaves : List H} {root : H} {depth : Nat}
    (last : (pairSelf node)^[depth] leaves = [root]) :
    nodeAt node (repeated filler leaves depth) depth 0 = root := by
  induction depth generalizing leaves with
  | zero =>
    obtain rfl : leaves = [root] := last
    rfl
  | succ depth ih =>
    have nonempty : leaves ≠ [] := by
      intro empty
      rw [empty, Function.iterate_fixed rfl] at last
      cases last
    rw [Function.iterate_succ_apply] at last
    rw [Nat.add_comm, ← nodeAt_add, Nat.add_comm, repeated_parent node filler nonempty, ih last]

/-- As many layers as the length has binary digits lead to a single node. -/
theorem iterate_pairSelf_length {leaves : List H} (nonempty : leaves ≠ []) {depth : Nat}
    (enough : leaves.length ≤ 2 ^ depth) : ((pairSelf node)^[depth] leaves).length = 1 := by
  induction depth generalizing leaves with
  | zero =>
    have positive := List.length_pos_iff.mpr nonempty
    rw [Nat.pow_zero] at enough
    exact Nat.le_antisymm enough positive
  | succ depth ih =>
    rw [Function.iterate_succ_apply]
    refine ih (pairSelf_ne_nil node nonempty) ?_
    rw [Nat.pow_succ] at enough
    rw [pairSelf_length]
    omega

/-- The number of layers above a list of a length. -/
def depthOf (count : Nat) : Nat := Nat.clog 2 count

theorem depthOf_of_le_one {count : Nat} (small : count ≤ 1) : depthOf count = 0 :=
  Nat.clog_of_right_le_one small 2

theorem depthOf_of_one_lt {count : Nat} (large : 1 < count) :
    depthOf count = depthOf ((count + 1) / 2) + 1 :=
  Nat.clog_of_one_lt Nat.one_lt_two large

theorem le_two_pow_depthOf (count : Nat) : count ≤ 2 ^ depthOf count :=
  Nat.le_pow_clog Nat.one_lt_two count

theorem depthOf_le {count depth : Nat} (fits : count ≤ 2 ^ depth) : depthOf count ≤ depth :=
  Nat.clog_le_of_le_pow fits

theorem depthOf_le_self (count : Nat) : depthOf count ≤ count :=
  depthOf_le (Nat.le_of_lt count.lt_two_pow_self)

/-- The position of a layer whose node stands beside a node of the layer. -/
def besideSelf (count position : Nat) : Nat :=
  if position % 2 = 0 then min (position + 1) (count - 1) else position - 1

/-- The siblings of a position, layer by layer. -/
def siblingsOf (filler : H) : Nat → List H → Nat → List H
  | 0, _, _ => []
  | depth + 1, layer, position =>
    layer[besideSelf layer.length position]?.getD filler ::
      siblingsOf filler depth (pairSelf node layer) (position / 2)

@[simp]
theorem siblingsOf_length (filler : H) (depth : Nat) (layer : List H) (position : Nat) :
    (siblingsOf node filler depth layer position).length = depth := by
  induction depth generalizing layer position with
  | zero => rfl
  | succ depth ih => rw [siblingsOf, List.length_cons, ih]

/-- What stands beside a position of the list is what the complete tree has beside it. -/
theorem sourceOf_sibling (depth : Nat) {count position : Nat} (inside : position < count) :
    sourceOf (depth + 1) count (sibling position) = besideSelf count position := by
  rw [sourceOf, sibling, besideSelf]
  have parent : position / 2 < (count + 1) / 2 := by omega
  split
  · next even =>
    rw [show (position + 1) / 2 = position / 2 by omega, sourceOf_self parent]
    omega
  · next odd =>
    rw [show (position - 1) / 2 = position / 2 by omega, sourceOf_self parent]
    omega

/-- The siblings of a position are its branch in the complete tree. -/
theorem siblingsOf_getElem? (filler : H) {depth position level : Nat} {leaves : List H}
    (inside : position < leaves.length) (small : level < depth) :
    (siblingsOf node filler depth leaves position)[level]?.getD filler =
      branchOf node (repeated filler leaves depth) position level := by
  induction depth generalizing leaves position level with
  | zero => omega
  | succ depth ih =>
    have nonempty : leaves ≠ [] := List.length_pos_iff.mp (Nat.zero_lt_of_lt inside)
    cases level with
    | zero =>
      have beside := sourceOf_sibling depth inside
      simp only [siblingsOf, List.getElem?_cons_zero, Option.getD_some, branchOf, nodeAt,
        Nat.pow_zero, Nat.div_one, repeated, beside]
    | succ level =>
      have parent : position / 2 < (pairSelf node leaves).length := by
        rw [pairSelf_length]
        omega
      have above := ih parent (Nat.lt_of_succ_lt_succ small)
      have branch := branchOf_add node (repeated filler leaves (depth + 1)) position 1 level
      rw [Nat.add_comm 1 level, repeated_parent node filler nonempty, Nat.pow_one, ← above] at branch
      rw [siblingsOf, List.getElem?_cons_succ]
      exact branch

end Layers

end Usdd.Foundation.PairedTree

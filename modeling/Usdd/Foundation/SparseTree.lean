import Mathlib.Tactic
import Mathlib.Data.Set.Function
/-!
# Complete binary hash trees with mostly empty leaves

A tree of fixed depth over an arbitrary node function. Positions are natural numbers and a
leaf assignment is total, so a tree holding a prefix of leaves is the assignment that is empty
past the prefix. A climb folds a branch of siblings from a leaf to the root. The climb along
the tree's own siblings computes the tree's nodes, replacing a leaf changes only the nodes
above it, and where the node function is injective on the pairs that two computations hash, a
climb that reaches a node of the tree has used the tree's own leaf and siblings.
-/
namespace Usdd.Foundation.SparseTree

variable {H : Type*} (node : H → H → H)

/-- The node at a height and position of the complete tree over a leaf assignment. -/
def nodeAt (leaf : Nat → H) : Nat → Nat → H
  | 0, position => leaf position
  | height + 1, position =>
    node (nodeAt leaf height (2 * position)) (nodeAt leaf height (2 * position + 1))

/-- The position sharing a parent with the given one. -/
def sibling (position : Nat) : Nat :=
  if position % 2 = 0 then position + 1 else position - 1

/-- The siblings met on the way from a leaf to the root. -/
def branchOf (leaf : Nat → H) (index level : Nat) : H :=
  nodeAt node leaf level (sibling (index / 2 ^ level))

/-- The ordered children hashed at one level of a climb, given the value climbed so far. -/
def orderedPair (index level : Nat) (value other : H) : H × H :=
  if index / 2 ^ level % 2 = 0 then (value, other) else (other, value)

/-- The value reached after climbing a number of levels from a leaf value. -/
def climb (start : H) (index : Nat) (branch : Nat → H) : Nat → H
  | 0 => start
  | level + 1 =>
    let pair := orderedPair index level (climb start index branch level) (branch level)
    node pair.1 pair.2

/-- The children hashed by a climb at one level. -/
def climbPair (start : H) (index : Nat) (branch : Nat → H) (level : Nat) : H × H :=
  orderedPair index level (climb node start index branch level) (branch level)

/-- The children of the tree's node above an index at one level. -/
def treePair (leaf : Nat → H) (index level : Nat) : H × H :=
  climbPair node (leaf index) index (branchOf node leaf index) level

/-- The root of a tree all of whose leaves are one value. -/
def emptyAt (empty : H) : Nat → H
  | 0 => empty
  | height + 1 => node (emptyAt empty height) (emptyAt empty height)

theorem climb_succ (start : H) (index : Nat) (branch : Nat → H) (level : Nat) :
    climb node start index branch (level + 1) =
      node (climbPair node start index branch level).1
        (climbPair node start index branch level).2 := rfl

/-- A parent is the hash of a child and its sibling, in position order. -/
theorem nodeAt_parent (leaf : Nat → H) (height position : Nat) :
    nodeAt node leaf (height + 1) (position / 2) =
      if position % 2 = 0 then
        node (nodeAt node leaf height position) (nodeAt node leaf height (sibling position))
      else node (nodeAt node leaf height (sibling position)) (nodeAt node leaf height position) := by
  rcases Nat.mod_two_eq_zero_or_one position with even | odd
  · have left : 2 * (position / 2) = position := by omega
    simp only [nodeAt, sibling, even, left, ↓reduceIte]
  · have left : 2 * (position / 2) = position - 1 := by omega
    have right : 2 * (position / 2) + 1 = position := by omega
    simp only [nodeAt, sibling, odd, left, one_ne_zero, ↓reduceIte]
    rw [show position - 1 + 1 = position by omega]

/-- Climbing one level along a tree's own branch reaches the parent. -/
theorem node_orderedPair (leaf : Nat → H) (index level : Nat) :
    node (orderedPair index level (nodeAt node leaf level (index / 2 ^ level))
        (branchOf node leaf index level)).1
      (orderedPair index level (nodeAt node leaf level (index / 2 ^ level))
        (branchOf node leaf index level)).2 =
      nodeAt node leaf (level + 1) (index / 2 ^ (level + 1)) := by
  rw [Nat.pow_succ, ← Nat.div_div_eq_div_mul, nodeAt_parent, orderedPair, branchOf]
  split <;> rfl

/-- The climb along a tree's own siblings computes the tree's nodes. -/
theorem climb_branchOf (leaf : Nat → H) (index level : Nat) :
    climb node (leaf index) index (branchOf node leaf index) level =
      nodeAt node leaf level (index / 2 ^ level) := by
  induction level with
  | zero => simp [climb, nodeAt]
  | succ level ih =>
    rw [climb, ih]
    exact node_orderedPair node leaf index level

/-- A climb reads the branch below its level only. -/
theorem climb_congr {start : H} {index depth : Nat} {left right : Nat → H}
    (agree : ∀ level < depth, left level = right level) :
    climb node start index left depth = climb node start index right depth := by
  induction depth with
  | zero => rfl
  | succ depth ih =>
    have below := ih fun level small => agree level (Nat.lt_succ_of_lt small)
    simp only [climb, below, agree depth (Nat.lt_succ_self depth)]

/-- Replacing a leaf changes no node that is not above it. -/
theorem nodeAt_update_of_ne (leaf : Nat → H) (index : Nat) (value : H) (height position : Nat)
    (off : position ≠ index / 2 ^ height) :
    nodeAt node (Function.update leaf index value) height position =
      nodeAt node leaf height position := by
  induction height generalizing position with
  | zero => exact Function.update_of_ne (by simpa using off) _ _
  | succ height ih =>
    rw [Nat.pow_succ, ← Nat.div_div_eq_div_mul] at off
    simp only [nodeAt]
    rw [ih _ (by omega), ih _ (by omega)]

/-- The siblings of an index are not above it. -/
theorem sibling_ne (position : Nat) : sibling position ≠ position := by
  unfold sibling
  split <;> omega

/-- Replacing a leaf keeps its branch. -/
theorem branchOf_update (leaf : Nat → H) (index : Nat) (value : H) (level : Nat) :
    branchOf node (Function.update leaf index value) index level =
      branchOf node leaf index level :=
  nodeAt_update_of_ne node leaf index value level _ (sibling_ne _)

/-- Climbing a new leaf along the old branch computes the nodes of the tree with that leaf. -/
theorem climb_update (leaf : Nat → H) (index : Nat) (value : H) (level : Nat) :
    climb node value index (branchOf node leaf index) level =
      nodeAt node (Function.update leaf index value) level (index / 2 ^ level) := by
  rw [← climb_branchOf, Function.update_self]
  exact climb_congr node fun below _ => (branchOf_update node leaf index value below).symm

/-- Equal ordered pairs come from equal values and siblings. -/
theorem orderedPair_inj {index level : Nat} {value other value' other' : H}
    (same : orderedPair index level value other = orderedPair index level value' other') :
    value = value' ∧ other = other' := by
  unfold orderedPair at same
  split at same
  · exact Prod.mk.inj same
  · exact (Prod.mk.inj same).symm

/-- Binding: where the node function is injective on the pairs hashed by a climb and by the
tree along the same index, a climb that reaches the tree's node started at the tree's leaf and
used the tree's siblings. -/
theorem climb_binding {pairs : Set (H × H)}
    (injective : Set.InjOn (fun pair : H × H => node pair.1 pair.2) pairs)
    {leaf : Nat → H} {start : H} {index depth : Nat} {branch : Nat → H}
    (climbed : ∀ level < depth, climbPair node start index branch level ∈ pairs)
    (stored : ∀ level < depth, treePair node leaf index level ∈ pairs)
    (reaches : climb node start index branch depth =
      nodeAt node leaf depth (index / 2 ^ depth)) :
    start = leaf index ∧ ∀ level < depth, branch level = branchOf node leaf index level := by
  induction depth with
  | zero => exact ⟨by simpa [climb, nodeAt] using reaches, by simp⟩
  | succ depth ih =>
    rw [← climb_branchOf, climb_succ, climb_succ] at reaches
    have same := injective (climbed depth (Nat.lt_succ_self depth))
      (stored depth (Nat.lt_succ_self depth)) reaches
    obtain ⟨values, others⟩ := orderedPair_inj same
    rw [climb_branchOf] at values
    obtain ⟨leaves, below⟩ := ih (fun level small => climbed level (Nat.lt_succ_of_lt small))
      (fun level small => stored level (Nat.lt_succ_of_lt small)) values
    refine ⟨leaves, fun level small => ?_⟩
    rcases Nat.lt_succ_iff_lt_or_eq.mp small with lower | rfl
    · exact below level lower
    · exact others

/-- The nodes at a height are the leaves of the tree above them. -/
theorem nodeAt_add (leaf : Nat → H) (lower upper position : Nat) :
    nodeAt node (nodeAt node leaf lower) upper position =
      nodeAt node leaf (lower + upper) position := by
  induction upper generalizing position with
  | zero => rfl
  | succ upper ih => rw [nodeAt, ih, ih, ← Nat.add_assoc, nodeAt]

/-- The branch of a position continues in the tree above a height. -/
theorem branchOf_add (leaf : Nat → H) (index lower level : Nat) :
    branchOf node (nodeAt node leaf lower) (index / 2 ^ lower) level =
      branchOf node leaf index (lower + level) := by
  rw [branchOf, branchOf, nodeAt_add, Nat.div_div_eq_div_mul, ← Nat.pow_add]

/-- A climb is a climb to some level and a climb from there. -/
theorem climb_add (start : H) (index : Nat) (branch : Nat → H) (lower upper : Nat) :
    climb node start index branch (lower + upper) =
      climb node (climb node start index branch lower) (index / 2 ^ lower)
        (fun level => branch (lower + level)) upper := by
  induction upper with
  | zero => rfl
  | succ upper ih =>
    rw [← Nat.add_assoc, climb, climb, ih]
    simp only [orderedPair, Nat.div_div_eq_div_mul, ← Nat.pow_add]

/-- The children of a node of the complete tree. -/
def childPair (leaf : Nat → H) (height position : Nat) : H × H :=
  (nodeAt node leaf height (2 * position), nodeAt node leaf height (2 * position + 1))

/-- The pairs hashed in the complete tree of a depth. -/
def hashedIn (leaf : Nat → H) (depth : Nat) : Set (H × H) :=
  {pair | ∃ height < depth, ∃ position < 2 ^ (depth - height - 1),
    pair = childPair node leaf height position}

/-- The pair above an index is that of its parent. -/
theorem treePair_eq_childPair (leaf : Nat → H) (index level : Nat) :
    treePair node leaf index level = childPair node leaf level (index / 2 ^ (level + 1)) := by
  rw [Nat.pow_succ, ← Nat.div_div_eq_div_mul]
  unfold treePair climbPair orderedPair childPair
  rw [climb_branchOf, branchOf, sibling]
  rcases Nat.mod_two_eq_zero_or_one (index / 2 ^ level) with even | odd
  · have left : 2 * (index / 2 ^ level / 2) = index / 2 ^ level := by omega
    rw [if_pos even, if_pos even, left]
  · have left : 2 * (index / 2 ^ level / 2) = index / 2 ^ level - 1 := by omega
    have right : 2 * (index / 2 ^ level / 2) + 1 = index / 2 ^ level := by omega
    rw [if_neg (by omega), if_neg (by omega), right, left]

/-- The pairs above an index of the complete tree are hashed in it. -/
theorem treePair_mem_hashedIn (leaf : Nat → H) {index level depth : Nat}
    (inside : index < 2 ^ depth) (small : level < depth) :
    treePair node leaf index level ∈ hashedIn node leaf depth := by
  refine ⟨level, small, index / 2 ^ (level + 1), ?_, treePair_eq_childPair node leaf index level⟩
  have exponent : level + 1 + (depth - level - 1) = depth := by omega
  rw [Nat.div_lt_iff_lt_mul (Nat.two_pow_pos _), Nat.mul_comm, ← Nat.pow_add, exponent]
  exact inside

/-- The pairs hashed above a height are hashed in the whole tree. -/
theorem hashedIn_above (leaf : Nat → H) (lower upper : Nat) :
    hashedIn node (nodeAt node leaf lower) upper ⊆ hashedIn node leaf (lower + upper) := by
  intro pair member
  obtain ⟨height, small, position, inside, rfl⟩ := member
  refine ⟨lower + height, by omega, position, ?_, ?_⟩
  · rw [show lower + upper - (lower + height) - 1 = upper - height - 1 by omega]
    exact inside
  · rw [childPair, childPair, nodeAt_add, nodeAt_add]

/-- Binding without the depth: where no node that is hashed is the value climbed from or a leaf,
a climb that reaches the root of a tree has the depth of the tree, and binds its leaf. -/
theorem climb_binding_depth {pairs : Set (H × H)}
    (injective : Set.InjOn (fun pair : H × H => node pair.1 pair.2) pairs)
    {leaf : Nat → H} {start : H} {index depth levels : Nat} {branch : Nat → H}
    (climbed : ∀ level < levels, climbPair node start index branch level ∈ pairs)
    (stored : hashedIn node leaf depth ⊆ pairs)
    (notStart : ∀ pair ∈ pairs, node pair.1 pair.2 ≠ start)
    (notLeaf : ∀ pair ∈ pairs, ∀ position, node pair.1 pair.2 ≠ leaf position)
    (inside : index < 2 ^ levels)
    (reaches : climb node start index branch levels = nodeAt node leaf depth 0) :
    levels = depth ∧ start = leaf index := by
  have top : index / 2 ^ levels = 0 := Nat.div_eq_of_lt inside
  rcases Nat.lt_trichotomy levels depth with shallow | rfl | deep
  · -- The climb would start from a node of the tree.
    obtain ⟨lower, rfl⟩ : ∃ lower, depth = lower + 1 + levels := ⟨depth - levels - 1, by omega⟩
    rw [← nodeAt_add, ← top] at reaches
    have above := hashedIn_above node leaf (lower + 1) levels
    obtain ⟨same, -⟩ := climb_binding node injective climbed
      (fun level small => stored (above (treePair_mem_hashedIn node _ inside small))) reaches
    have hashed : childPair node leaf lower index ∈ pairs := by
      refine stored ⟨lower, by omega, index, ?_, rfl⟩
      rw [show lower + 1 + levels - lower - 1 = levels by omega]
      exact inside
    exact absurd same.symm (notStart _ hashed)
  · rw [← top] at reaches
    obtain ⟨same, -⟩ := climb_binding node injective climbed
      (fun level small => stored (treePair_mem_hashedIn node leaf inside small)) reaches
    exact ⟨rfl, same⟩
  · -- The climb would pass through a leaf of the tree.
    obtain ⟨lower, rfl⟩ : ∃ lower, levels = lower + 1 + depth := ⟨levels - depth - 1, by omega⟩
    have high : index / 2 ^ (lower + 1) < 2 ^ depth := by
      rw [Nat.div_lt_iff_lt_mul (Nat.two_pow_pos _), Nat.mul_comm, ← Nat.pow_add]
      exact inside
    have top' : index / 2 ^ (lower + 1) / 2 ^ depth = 0 := Nat.div_eq_of_lt high
    rw [climb_add, ← top'] at reaches
    obtain ⟨same, -⟩ := climb_binding node injective (fun level small => by
        have pair := climbed (lower + 1 + level) (by omega)
        rw [climbPair, climb_add] at pair
        unfold climbPair orderedPair at *
        rwa [Nat.div_div_eq_div_mul, ← Nat.pow_add])
      (fun level small => stored (treePair_mem_hashedIn node leaf high small)) reaches
    exact absurd same (notLeaf _ (climbed lower (by omega)) _)

/-- A node above empty leaves only is the empty node of its height. -/
theorem nodeAt_empty {leaf : Nat → H} {empty : H} {first : Nat}
    (blank : ∀ position, first ≤ position → leaf position = empty) (height position : Nat)
    (past : first ≤ position * 2 ^ height) :
    nodeAt node leaf height position = emptyAt node empty height := by
  induction height generalizing position with
  | zero => exact blank position (by simpa using past)
  | succ height ih =>
    have left : first ≤ 2 * position * 2 ^ height := by
      rw [Nat.pow_succ] at past
      calc
        first ≤ position * (2 ^ height * 2) := past
        _ = 2 * position * 2 ^ height := by ring
    have right : first ≤ (2 * position + 1) * 2 ^ height := by
      rw [Nat.add_mul]
      exact Nat.le_add_right_of_le left
    simp only [nodeAt, emptyAt, ih _ left, ih _ right]

/-- Climbing from an empty leaf at the first position past empty siblings meets empty nodes. -/
theorem climb_empty {empty : H} {branch : Nat → H} {depth : Nat}
    (blank : ∀ level < depth, branch level = emptyAt node empty level) :
    ∀ level ≤ depth, climb node empty 0 branch level = emptyAt node empty level := by
  intro level
  induction level with
  | zero => exact fun _ => rfl
  | succ level ih =>
    intro small
    have below := ih (Nat.le_of_succ_le small)
    simp [climb, orderedPair, emptyAt, below, blank level small]

/-- Empty nodes that meet at two heights meet at all heights as far above them. -/
theorem emptyAt_add {empty : H} {lower upper : Nat}
    (same : emptyAt node empty lower = emptyAt node empty upper) (above : Nat) :
    emptyAt node empty (lower + above) = emptyAt node empty (upper + above) := by
  induction above with
  | zero => exact same
  | succ above ih => rw [← Nat.add_assoc, ← Nat.add_assoc, emptyAt, emptyAt, ih]

/-- Where the top empty node differs from all below it, the empty nodes are distinct. -/
theorem emptyAt_injOn {empty : H} {depth : Nat}
    (apart : ∀ level < depth, emptyAt node empty level ≠ emptyAt node empty depth) :
    Set.InjOn (emptyAt node empty) (Set.Iic depth) := by
  have ordered : ∀ lower upper, lower < upper → upper ≤ depth →
      emptyAt node empty lower ≠ emptyAt node empty upper := by
    intro lower upper less bounded same
    have shifted := emptyAt_add node same (depth - upper)
    rw [Nat.add_sub_cancel' bounded] at shifted
    exact apart _ (by omega) shifted
  intro left leftBound right rightBound same
  rcases Nat.lt_trichotomy left right with less | equal | greater
  · exact absurd same (ordered left right less rightBound)
  · exact equal
  · exact absurd same.symm (ordered right left greater leftBound)

section Layers

/-- Hash a layer pairwise; a last odd node is paired with the empty node of its height. -/
def pairUp (empty : H) : List H → List H
  | [] => []
  | [last] => [node last empty]
  | left :: right :: rest => node left right :: pairUp empty rest

/-- The assignment that holds a list of leaves and is empty past its end. -/
def leavesOf (empty : H) (leaves : List H) (position : Nat) : H :=
  leaves[position]?.getD empty

/-- A list is the occupied part of the tree's layer at a height. -/
def IsLayer (empty : H) (leaf : Nat → H) (height : Nat) (layer : List H) : Prop :=
  ∀ position, layer[position]?.getD (emptyAt node empty height) =
    nodeAt node leaf height position

/-- Pairing reads two neighbours, where a missing node counts as empty. -/
theorem pairUp_getD (empty : H) (layer : List H) (position : Nat) :
    (pairUp node empty layer)[position]?.getD (node empty empty) =
      node (layer[2 * position]?.getD empty) (layer[2 * position + 1]?.getD empty) := by
  induction layer using pairUp.induct generalizing position with
  | case1 => simp [pairUp]
  | case2 last =>
    cases position with
    | zero => simp [pairUp]
    | succ position => simp [pairUp, Nat.mul_succ]
  | case3 left right rest ih =>
    cases position with
    | zero => simp [pairUp]
    | succ position => simpa [pairUp, Nat.mul_succ] using ih position

/-- The leaves are the layer at height zero. -/
theorem isLayer_leaves (empty : H) (leaves : List H) :
    IsLayer node empty (leavesOf empty leaves) 0 leaves := fun _ => rfl

/-- Pairing a layer gives the next one. -/
theorem isLayer_pairUp {empty : H} {leaf : Nat → H} {height : Nat} {layer : List H}
    (isLayer : IsLayer node empty leaf height layer) :
    IsLayer node empty leaf (height + 1) (pairUp node (emptyAt node empty height) layer) := by
  intro position
  rw [emptyAt, pairUp_getD, isLayer, isLayer]
  rfl

theorem pairUp_length (empty : H) (layer : List H) :
    (pairUp node empty layer).length = (layer.length + 1) / 2 := by
  induction layer using pairUp.induct with
  | case1 => simp [pairUp]
  | case2 last => simp [pairUp]
  | case3 left right rest ih => simp only [pairUp, List.length_cons, ih]; omega

/-- Appending a leaf replaces the first empty position. -/
theorem leavesOf_append (empty : H) (leaves : List H) (value : H) :
    leavesOf empty (leaves ++ [value]) =
      Function.update (leavesOf empty leaves) leaves.length value := by
  funext position
  unfold leavesOf
  rcases Nat.lt_trichotomy position leaves.length with before | rfl | after
  · rw [Function.update_of_ne before.ne, List.getElem?_append_left before]
  · simp
  · rw [Function.update_of_ne after.ne', List.getElem?_eq_none (by simp; omega),
      List.getElem?_eq_none after.le]

theorem leavesOf_eq_empty {empty : H} {leaves : List H} {position : Nat}
    (past : leaves.length ≤ position) : leavesOf empty leaves position = empty := by
  simp [leavesOf, List.getElem?_eq_none past]

theorem leavesOf_getElem {empty : H} {leaves : List H} {position : Nat}
    (inside : position < leaves.length) : leavesOf empty leaves position = leaves[position] := by
  simp [leavesOf, inside]

/-- Appending: a branch that opens the first empty position of a tree is the tree's own branch,
and it carries a new leaf to the root of the longer tree. -/
theorem climb_append {pairs : Set (H × H)}
    (injective : Set.InjOn (fun pair : H × H => node pair.1 pair.2) pairs)
    {empty : H} {leaves : List H} {branch : Nat → H} {depth : Nat} (value : H)
    (inside : leaves.length < 2 ^ depth)
    (climbed : ∀ level < depth, climbPair node empty leaves.length branch level ∈ pairs)
    (stored : ∀ level < depth,
      treePair node (leavesOf empty leaves) leaves.length level ∈ pairs)
    (opens : climb node empty leaves.length branch depth =
      nodeAt node (leavesOf empty leaves) depth 0) :
    (∀ level < depth,
      branch level = branchOf node (leavesOf empty leaves) leaves.length level) ∧
    climb node value leaves.length branch depth =
      nodeAt node (leavesOf empty (leaves ++ [value])) depth 0 := by
  have top : leaves.length / 2 ^ depth = 0 := Nat.div_eq_of_lt inside
  rw [← top] at opens
  obtain ⟨_, siblings⟩ := climb_binding node injective climbed stored opens
  refine ⟨siblings, ?_⟩
  rw [climb_congr node siblings, climb_update, leavesOf_append, top]

end Layers

end Usdd.Foundation.SparseTree

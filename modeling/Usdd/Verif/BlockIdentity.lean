import Usdd.Verif.BlockParser
import Usdd.Verif.MerkleMutation
/-!
# A block hash names one block

A header commits to the txids of its block, a txid to the bytes of a transaction without its
witness, and the coinbase to the witnesses. Where double SHA-256 does not collide on what was
hashed for two accepted blocks, equal hashes are those of the same bytes. The one exception is a
coinbase of 64 bytes, which can stand for a pair of hashes of a deeper tree.
-/
namespace Usdd.Verif

open Usdd.Foundation Usdd.Core Usdd.BitcoinBmm

variable [Hashing]

section Depths

theorem nextLevel_ne_nil {hashes : List BlockHash} (several : 2 ≤ hashes.length) :
    nextLevel hashes ≠ [] := by
  intro empty
  have length := nextLevel_length hashes
  rw [empty, List.length_nil] at length
  omega

omit [Hashing] in
theorem single_of_clog {hashes : List BlockHash} (nonempty : hashes ≠ [])
    (levels : Nat.clog 2 hashes.length = 0) : ∃ hash, hashes = [hash] := by
  have few : hashes.length ≤ 1 := by
    by_contra several
    have positive := Nat.clog_pos (show 1 < 2 by decide) (show 2 ≤ hashes.length by omega)
    omega
  have some := List.length_pos_iff.mpr nonempty
  exact List.length_eq_one_iff.mp (by omega)

theorem clog_levels {depth count : Nat} {hashes : List BlockHash}
    (levels : Nat.clog 2 hashes.length = depth + count) :
    Nat.clog 2 (nextLevel^[count] hashes).length = depth := by
  induction count generalizing hashes with
  | zero => exact levels
  | succ count ih => exact ih (clog_nextLevel levels)

/-- What is hashed above some level of a list is hashed for the list. -/
theorem HashedPair.of_level {depth count : Nat} {hashes : List BlockHash}
    {pair : BlockHash × BlockHash} (levels : Nat.clog 2 hashes.length = depth + count)
    (hashed : HashedPair (nextLevel^[count] hashes) pair) : HashedPair hashes pair := by
  induction count generalizing hashes with
  | zero => exact hashed
  | succ count ih =>
    exact .above (several_of_clog levels) (ih (clog_nextLevel levels) hashed)

/-- The top level is the root. -/
theorem top_level {depth : Nat} {hashes : List BlockHash} (nonempty : hashes ≠ [])
    (levels : Nat.clog 2 hashes.length = depth) :
    nextLevel^[depth] hashes = [(merkleRootAndMutation hashes).1] := by
  induction depth generalizing hashes with
  | zero =>
    obtain ⟨hash, rfl⟩ := single_of_clog nonempty levels
    rfl
  | succ depth ih =>
    have several := several_of_clog levels
    rw [Function.iterate_succ_apply, ih (nextLevel_ne_nil several) (clog_nextLevel levels),
      merkleRootAndMutation_step several]

/-- The first pair of a level holds its first hash and is hashed to the first one above. -/
theorem first_pair {hashes : List BlockHash} (several : 2 ≤ hashes.length) :
    ∃ pair ∈ levelPairs hashes, hashes.head? = some pair.1 ∧
      (nextLevel hashes).head? = some (pairHash pair) := by
  match hashes, several with
  | first :: second :: rest, _ => exact ⟨(first, second), List.mem_cons_self, rfl, rfl⟩

/-- Of two lists with one root, the first hash of the shallower one is the first hash of a level of
the deeper one. The induction is on the depth of the shallower one, from the root down. -/
theorem first_of_deeper {depth more : Nat} {left right : List BlockHash}
    (leftNonempty : left ≠ []) (rightNonempty : right ≠ [])
    (leftLevels : Nat.clog 2 left.length = depth)
    (rightLevels : Nat.clog 2 right.length = depth + more) (apart : PairsApart left right)
    (root : (merkleRootAndMutation left).1 = (merkleRootAndMutation right).1) :
    left.head? = (nextLevel^[more] right).head? := by
  induction depth generalizing left right with
  | zero =>
    obtain ⟨hash, rfl⟩ := single_of_clog leftNonempty leftLevels
    rw [Nat.zero_add] at rightLevels
    rw [top_level rightNonempty rightLevels, ← root]
    rfl
  | succ depth ih =>
    have leftSeveral := several_of_clog leftLevels
    have rightDepth : Nat.clog 2 right.length = depth + more + 1 := by omega
    have rightSeveral := several_of_clog rightDepth
    have levelSeveral := several_of_clog (clog_levels rightLevels)
    rw [merkleRootAndMutation_step leftSeveral, merkleRootAndMutation_step rightSeveral] at root
    have above := ih (nextLevel_ne_nil leftSeveral) (nextLevel_ne_nil rightSeveral)
      (clog_nextLevel leftLevels) (clog_nextLevel rightDepth)
      (apart.above leftSeveral rightSeveral) root
    rw [← Function.iterate_succ_apply, Function.iterate_succ_apply'] at above
    obtain ⟨leftPair, leftMember, leftFirst, leftHash⟩ := first_pair leftSeveral
    obtain ⟨rightPair, rightMember, rightFirst, rightHash⟩ := first_pair levelSeveral
    rw [leftHash, rightHash, Option.some.injEq] at above
    have same := apart (Or.inl (.here leftSeveral leftMember))
      (Or.inr (.of_level rightLevels (.here levelSeveral rightMember))) above
    rw [leftFirst, rightFirst, same]

/-- The first hash of a shallower list is the hash of a pair of the deeper one. -/
theorem first_is_pair {left right : List BlockHash} (leftNonempty : left ≠ [])
    (shallower : Nat.clog 2 left.length < Nat.clog 2 right.length) (apart : PairsApart left right)
    (root : (merkleRootAndMutation left).1 = (merkleRootAndMutation right).1) :
    ∃ pair, HashedPair right pair ∧ left.head? = some (pairHash pair) := by
  obtain ⟨more, deeper⟩ := Nat.exists_eq_add_of_lt shallower
  have rightNonempty : right ≠ [] := by
    rintro rfl
    simp at shallower
  have first := first_of_deeper leftNonempty rightNonempty rfl
    (show _ = Nat.clog 2 left.length + (more + 1) by omega) apart root
  have below : Nat.clog 2 right.length = Nat.clog 2 left.length + 1 + more := by omega
  have several := several_of_clog (clog_levels below)
  obtain ⟨pair, member, -, hash⟩ := first_pair several
  rw [Function.iterate_succ_apply', hash] at first
  exact ⟨pair, .of_level below (.here several member), first⟩

omit [Hashing] in
theorem levelPairs_inj_of_length : ∀ {left right : List BlockHash}, left.length = right.length →
    levelPairs left = levelPairs right → left = right
  | [], [], _, _ => rfl
  | [one], [other], _, same => by
    simp only [levelPairs, List.cons.injEq, Prod.mk.injEq] at same
    rw [same.1.1]
  | _ :: _ :: left, _ :: _ :: right, length, same => by
    simp only [levelPairs, List.cons.injEq, Prod.mk.injEq] at same
    simp only [List.length_cons, Nat.add_right_cancel_iff] at length
    rw [same.1.1, same.1.2, levelPairs_inj_of_length length same.2]
  | [], _ :: _, length, _ => by simp at length
  | _ :: _, [], length, _ => by simp at length
  | [_], _ :: _ :: _, length, _ => by simp at length
  | _ :: _ :: _, [_], length, _ => by simp at length

/-- Lists of one length with one root are the same, mutated or not. -/
theorem root_determines_of_length {depth : Nat} {left right : List BlockHash}
    (nonempty : left ≠ []) (length : left.length = right.length)
    (levels : Nat.clog 2 left.length = depth) (apart : PairsApart left right)
    (root : (merkleRootAndMutation left).1 = (merkleRootAndMutation right).1) : left = right := by
  induction depth generalizing left right with
  | zero =>
    obtain ⟨one, rfl⟩ := single_of_clog nonempty levels
    obtain ⟨other, rfl⟩ := List.length_eq_one_iff.mp length.symm
    have same : one = other := root
    rw [same]
  | succ depth ih =>
    have leftSeveral := several_of_clog levels
    have rightSeveral : 2 ≤ right.length := length ▸ leftSeveral
    rw [merkleRootAndMutation_step leftSeveral, merkleRootAndMutation_step rightSeveral] at root
    have above : nextLevel left = nextLevel right := by
      refine ih (nextLevel_ne_nil leftSeveral) ?_ (clog_nextLevel levels)
        (apart.above leftSeveral rightSeveral) root
      rw [nextLevel_length, nextLevel_length, length]
    exact levelPairs_inj_of_length length (apart.level leftSeveral rightSeveral above)

end Depths

section Blocks

/-- What double SHA-256 is applied to when a block is checked. -/
inductive HashedIn (block : Block) : List UInt8 → Prop
  | header : HashedIn block block.header.bytes
  | stripped {transaction : Transaction} :
    transaction ∈ block.transactions → HashedIn block transaction.stripped
  | full {transaction : Transaction} :
    transaction ∈ block.transactions → HashedIn block transaction.serialize
  | txidPair {pair : BlockHash × BlockHash} :
    HashedPair block.txids pair → HashedIn block (pair.1.bytes ++ pair.2.bytes)
  | witnessPair {pair : BlockHash × BlockHash} :
    HashedPair block.witnessLeaves pair → HashedIn block (pair.1.bytes ++ pair.2.bytes)
  | commitment {coinbase : Transaction} {reserved : List UInt8} :
    coinbase ∈ block.transactions → coinbase.firstStack = [reserved] →
    HashedIn block ((merkleRootAndMutation block.witnessLeaves).1.bytes ++ reserved)

/-- What double SHA-256 is applied to when the bytes of a block are checked. -/
def HashedFor (bytes input : List UInt8) : Prop :=
  ∃ block : Block, block.Valid ∧ bytes = block.serialize ∧ HashedIn block input

variable {left right : Block}

/-- Double SHA-256 does not collide on what is hashed for two blocks. -/
def BlocksApart (left right : Block) : Prop :=
  Set.InjOn doubleSha256 { input | HashedIn left input ∨ HashedIn right input }

theorem BlocksApart.symm (apart : BlocksApart left right) : BlocksApart right left := by
  refine Set.InjOn.mono ?_ apart
  rintro input (hashed | hashed)
  · exact Or.inr hashed
  · exact Or.inl hashed

omit [Hashing] in
theorem pairBytes_inj {one other : BlockHash × BlockHash}
    (same : one.1.bytes ++ one.2.bytes = other.1.bytes ++ other.2.bytes) : one = other := by
  obtain ⟨first, second⟩ := fixed_append_inj same
  exact Prod.ext first (FixedBytes.ext second)

theorem BlocksApart.txids (apart : BlocksApart left right) : PairsApart left.txids right.txids := by
  rintro one oneHashed other otherHashed same
  refine pairBytes_inj (apart ?_ ?_ same)
  · exact oneHashed.imp .txidPair .txidPair
  · exact otherHashed.imp .txidPair .txidPair

theorem BlocksApart.witnessLeaves (apart : BlocksApart left right) :
    PairsApart left.witnessLeaves right.witnessLeaves := by
  rintro one oneHashed other otherHashed same
  refine pairBytes_inj (apart ?_ ?_ same)
  · exact oneHashed.imp .witnessPair .witnessPair
  · exact otherHashed.imp .witnessPair .witnessPair

theorem Block.txids_ne_nil (valid : left.Valid) : left.txids ≠ [] := by
  obtain ⟨first, others, form, -⟩ := valid.coinbase
  simp [Block.txids, form]

/-- A tree is no shallower than another one with its root, unless its coinbase has the size of a
pair. -/
theorem depth_le (leftValid : left.Valid) (apart : BlocksApart left right)
    (long : ∀ coinbase, left.transactions.head? = some coinbase → coinbase.stripped.length ≠ 64)
    (root : (merkleRootAndMutation left.txids).1 = (merkleRootAndMutation right.txids).1) :
    Nat.clog 2 right.txids.length ≤ Nat.clog 2 left.txids.length := by
  by_contra shallower
  obtain ⟨pair, hashed, first⟩ :=
    first_is_pair (Block.txids_ne_nil leftValid) (not_le.mp shallower) apart.txids root
  obtain ⟨coinbase, others, form, -⟩ := leftValid.coinbase
  have head : left.transactions.head? = some coinbase := by rw [form, List.head?_cons]
  have member : coinbase ∈ left.transactions := List.mem_of_head? head
  have same : doubleSha256 coinbase.stripped = doubleSha256 (pair.1.bytes ++ pair.2.bytes) := by
    rw [Block.txids, form, List.map_cons, List.head?_cons, Option.some.injEq] at first
    exact first
  have bytes := apart (Or.inl (.stripped member)) (Or.inr (.txidPair hashed)) same
  apply long coinbase head
  rw [bytes, List.length_append, pair.1.length_eq, pair.2.length_eq]

/-- Blocks with one header have the same transactions without their witnesses. -/
theorem stripped_determined (leftValid : left.Valid) (rightValid : right.Valid)
    (apart : BlocksApart left right)
    (leftLong : ∀ coinbase, left.transactions.head? = some coinbase →
      coinbase.stripped.length ≠ 64)
    (rightLong : ∀ coinbase, right.transactions.head? = some coinbase →
      coinbase.stripped.length ≠ 64)
    (header : left.header = right.header) :
    left.transactions.map Transaction.stripped = right.transactions.map Transaction.stripped := by
  have leftTree := leftValid.merkle
  have rightTree := rightValid.merkle
  have root : (merkleRootAndMutation left.txids).1 = (merkleRootAndMutation right.txids).1 := by
    rw [leftTree, rightTree, header]
  have depths : Nat.clog 2 left.txids.length = Nat.clog 2 right.txids.length :=
    Nat.le_antisymm (depth_le rightValid apart.symm rightLong root.symm)
      (depth_le leftValid apart leftLong root)
  have txids := root_determines (Block.txids_ne_nil leftValid) (Block.txids_ne_nil rightValid)
    depths rfl apart.txids (by rw [leftTree]) (by rw [rightTree]) root
  refine map_injOn apart ?_ ?_ ?_
  · intro bytes listed
    obtain ⟨transaction, member, rfl⟩ := List.mem_map.mp listed
    exact Or.inl (.stripped member)
  · intro bytes listed
    obtain ⟨transaction, member, rfl⟩ := List.mem_map.mp listed
    exact Or.inr (.stripped member)
  · rw [List.map_map, List.map_map]
    exact txids

omit [Hashing] in
/-- The bytes without the witness determine the outputs. -/
theorem outputs_of_stripped {one other : Transaction} (oneValid : one.Valid)
    (otherValid : other.Valid) (oneLimits : one.WithinLimits) (otherLimits : other.WithinLimits)
    (same : one.stripped = other.stripped) : one.outputs = other.outputs := by
  simp only [Transaction.stripped, List.flatten_cons, List.flatten_nil, List.append_nil] at same
  obtain ⟨-, same⟩ := fixed_append_inj same
  obtain ⟨-, same⟩ := inputBytes_inj oneLimits otherLimits same
  exact (outputBytes_inj oneValid otherValid oneLimits otherLimits same).1

omit [Hashing] in
/-- The bytes of a transaction are those without its witness and its witness. -/
theorem serialize_of_stripped {one other : Transaction} (stripped : one.stripped = other.stripped)
    (witness : one.witness = other.witness) : one.serialize = other.serialize := by
  simp only [Transaction.stripped, List.flatten_cons, List.flatten_nil, List.append_nil,
    ← List.append_assoc] at stripped
  obtain ⟨front, lockTime⟩ := List.append_inj' stripped
    (one.lockTime.length_eq.trans other.lockTime.length_eq.symm)
  rw [List.append_assoc, List.append_assoc] at front
  obtain ⟨version, parts⟩ := fixed_append_inj front
  simp only [Transaction.serialize, Transaction.markerBytes, Transaction.witnessBytes, witness,
    List.flatten_cons, List.flatten_nil, List.append_nil, lockTime, version]
  rw [← List.append_assoc one.inputBytes, ← List.append_assoc other.inputBytes, parts]

omit [Hashing] in
/-- A coinbase that commits to witnesses has one stack of one reserved value. -/
theorem coinbase_witness {coinbase : Transaction} (valid : coinbase.Valid)
    (isCoinbase : coinbase.IsCoinbase) {reserved : List UInt8}
    (stack : coinbase.firstStack = [reserved]) : coinbase.witness = some [[reserved]] := by
  obtain ⟨input, inputs, -⟩ := isCoinbase
  cases witness : coinbase.witness with
  | none => simp [Transaction.firstStack, witness] at stack
  | some perInput =>
    have length := (valid.witness perInput witness).1
    rw [inputs, List.length_singleton] at length
    obtain ⟨only, rfl⟩ := List.length_eq_one_iff.mp length
    simp only [Transaction.firstStack, witness, Option.getD_some, List.headD_cons] at stack
    rw [stack]

/-- Blocks with one header have the same transactions with their witnesses. Without a commitment
there is no witness. With one the coinbases have the same reserved value, and the trees of the
others have one root and one length. -/
theorem serialized_determined (leftValid : left.Valid) (rightValid : right.Valid)
    (apart : BlocksApart left right)
    (stripped : left.transactions.map Transaction.stripped =
      right.transactions.map Transaction.stripped) :
    left.transactions.map Transaction.serialize =
      right.transactions.map Transaction.serialize := by
  obtain ⟨leftCoinbase, leftOthers, leftForm, leftIs, -⟩ := leftValid.coinbase
  obtain ⟨rightCoinbase, rightOthers, rightForm, rightIs, -⟩ := rightValid.coinbase
  have leftHead : left.transactions.head? = some leftCoinbase := by rw [leftForm, List.head?_cons]
  have rightHead : right.transactions.head? = some rightCoinbase := by
    rw [rightForm, List.head?_cons]
  have leftMember := List.mem_of_head? leftHead
  have rightMember := List.mem_of_head? rightHead
  have leftRule := leftValid.commitment leftCoinbase leftHead
  have rightRule := rightValid.commitment rightCoinbase rightHead
  have coinbases : leftCoinbase.stripped = rightCoinbase.stripped := by
    rw [leftForm, rightForm, List.map_cons, List.map_cons] at stripped
    exact (List.cons.inj stripped).1
  have outputs : leftCoinbase.outputs = rightCoinbase.outputs :=
    outputs_of_stripped (leftValid.transactions _ leftMember)
      (rightValid.transactions _ rightMember) (Block.withinLimits leftValid.weight leftMember)
      (Block.withinLimits rightValid.weight rightMember) coinbases
  cases found : witnessCommitmentOutput leftCoinbase.outputs with
  | none =>
    have bare : ∀ {block : Block}, (∀ transaction ∈ block.transactions, transaction.witness = none) →
        block.transactions.map Transaction.serialize =
          block.transactions.map Transaction.stripped := by
      intro block absent
      apply List.map_congr_left
      intro transaction member
      exact Transaction.serialize_legacy (absent transaction member)
    rw [bare (leftRule.absent found), bare (rightRule.absent (outputs ▸ found)), stripped]
  | some commitment =>
    obtain ⟨leftReserved, leftStack, -, leftCommits⟩ := leftRule.present commitment found
    obtain ⟨rightReserved, rightStack, -, rightCommits⟩ :=
      rightRule.present commitment (outputs ▸ found)
    have committed := apart (Or.inl (.commitment leftMember leftStack))
      (Or.inr (.commitment rightMember rightStack))
      (FixedBytes.ext (leftCommits.symm.trans rightCommits))
    obtain ⟨root, reserved⟩ := fixed_append_inj committed
    have length : left.transactions.length = right.transactions.length := by
      have lengths := congrArg List.length stripped
      rwa [List.length_map, List.length_map] at lengths
    have leaves : left.witnessLeaves = right.witnessLeaves := by
      refine root_determines_of_length ?_ ?_ rfl apart.witnessLeaves root
      · simp [Block.witnessLeaves, leftForm]
      · simp [Block.witnessLeaves, length]
    have others : leftOthers.map Transaction.serialize = rightOthers.map Transaction.serialize := by
      refine map_injOn apart ?_ ?_ ?_
      · intro bytes listed
        obtain ⟨transaction, member, rfl⟩ := List.mem_map.mp listed
        exact Or.inl (.full (leftForm ▸ List.mem_cons_of_mem _ member))
      · intro bytes listed
        obtain ⟨transaction, member, rfl⟩ := List.mem_map.mp listed
        exact Or.inr (.full (rightForm ▸ List.mem_cons_of_mem _ member))
      · rw [Block.witnessLeaves, Block.witnessLeaves, leftForm, rightForm] at leaves
        rw [List.map_map, List.map_map]
        exact (List.cons.inj leaves).2
    have witness : leftCoinbase.witness = rightCoinbase.witness := by
      rw [coinbase_witness (leftValid.transactions _ leftMember) leftIs leftStack,
        coinbase_witness (rightValid.transactions _ rightMember) rightIs rightStack, reserved]
    rw [leftForm, rightForm, List.map_cons, List.map_cons, others,
      serialize_of_stripped coinbases witness]

/-- Blocks with one hash are the same bytes. -/
theorem block_determined (leftValid : left.Valid) (rightValid : right.Valid)
    (apart : BlocksApart left right)
    (leftLong : ∀ coinbase, left.transactions.head? = some coinbase →
      coinbase.stripped.length ≠ 64)
    (rightLong : ∀ coinbase, right.transactions.head? = some coinbase →
      coinbase.stripped.length ≠ 64)
    (same : (BitcoinHeader.ofRaw left.header).blockHash =
      (BitcoinHeader.ofRaw right.header).blockHash) : left.serialize = right.serialize := by
  have header : left.header = right.header :=
    FixedBytes.ext (apart (Or.inl .header) (Or.inr .header) same)
  have stripped := stripped_determined leftValid rightValid apart leftLong rightLong header
  have serialized := serialized_determined leftValid rightValid apart stripped
  have length : left.transactions.length = right.transactions.length := by
    have lengths := congrArg List.length stripped
    rwa [List.length_map, List.length_map] at lengths
  rw [Block.serialize, Block.serialize, countedBytes, countedBytes, header, length, serialized]

end Blocks

/-- The size without its witness of the coinbase of a block. -/
def coinbaseSize (parsed : ParsedBlock) : Option Nat :=
  parsed.transactions.head?.map (·.strippedSize)

/-- Accepted blocks with one hash are the same bytes, where double SHA-256 does not collide on what
was hashed for them and no coinbase has the size of a pair of hashes. -/
theorem block_hash_names_block {left right : List UInt8} {leftParsed rightParsed : ParsedBlock}
    (leftAccepted : parseAndVerifyBlock left = .ok leftParsed)
    (rightAccepted : parseAndVerifyBlock right = .ok rightParsed)
    (apart : Set.InjOn doubleSha256 { input | HashedFor left input ∨ HashedFor right input })
    (leftLong : coinbaseSize leftParsed ≠ some 64) (rightLong : coinbaseSize rightParsed ≠ some 64)
    (same : leftParsed.metadata.blockHash = rightParsed.metadata.blockHash) : left = right := by
  obtain ⟨leftBlock, leftCoinbase, leftValid, leftHead, rfl, rfl⟩ :=
    parseAndVerifyBlock_eq_ok.mp leftAccepted
  obtain ⟨rightBlock, rightCoinbase, rightValid, rightHead, rfl, rfl⟩ :=
    parseAndVerifyBlock_eq_ok.mp rightAccepted
  have blocksApart : BlocksApart leftBlock rightBlock := by
    refine Set.InjOn.mono ?_ apart
    rintro input (hashed | hashed)
    · exact Or.inl ⟨leftBlock, leftValid, rfl, hashed⟩
    · exact Or.inr ⟨rightBlock, rightValid, rfl, hashed⟩
  have size : ∀ {block : Block} {first coinbase : Transaction},
      coinbaseSize (block.parsed first) ≠ some 64 → block.transactions.head? = some coinbase →
        coinbase.stripped.length ≠ 64 := by
    intro block first coinbase long head short
    apply long
    simp [coinbaseSize, Block.parsed, head, Transaction.parsed, short]
  exact block_determined leftValid rightValid blocksApart (fun _ head => size leftLong head)
    (fun _ head => size rightLong head) same

end Usdd.Verif

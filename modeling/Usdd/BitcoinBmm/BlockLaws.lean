import Usdd.BitcoinBmm.BlockGrammar
/-!
# The blocks the parser accepts

A valid block is a header and valid transactions, the first of them its only coinbase, whose
weight is within the limit and whose txids and witness commitment agree with the header and the
coinbase. The weight bounds every count and size, so the limits the parser sets on the way
refuse no valid block.
-/
namespace Usdd.BitcoinBmm

open Usdd.Foundation Usdd.Core

/-- A block: its header and its transactions. -/
structure Block where
  header : FixedBytes 80
  transactions : List Transaction

namespace Block

/-- The bytes of a block. -/
def serialize (block : Block) : List UInt8 :=
  block.header.bytes ++ countedBytes Transaction.serialize block.transactions

/-- The number of bytes without any witness. -/
def strippedSize (block : Block) : Nat :=
  block.header.bytes.length + (countedBytes Transaction.stripped block.transactions).length

/-- Three times the stripped size and the full size. -/
def weight (block : Block) : Nat := 3 * block.strippedSize + block.serialize.length

/-- The first transaction is a coinbase, and it is the only one. -/
def HasOnlyCoinbase (block : Block) : Prop :=
  ∃ first others, block.transactions = first :: others ∧ first.IsCoinbase ∧
    ∀ other ∈ others, ¬other.IsCoinbase

variable [Hashing]

/-- The hashes the header commits to. -/
def txids (block : Block) : List BlockHash := block.transactions.map Transaction.txid

/-- The hashes the coinbase commits to, with zero in its own place. -/
def witnessLeaves (block : Block) : List BlockHash :=
  (block.transactions.map Transaction.wtxid).set 0 (.zero 32)

/-- The BIP141 rule for a coinbase: without a commitment no transaction has a witness, and with
one the last commitment output commits to the witness tree and the single reserved value. -/
structure CommitmentRule (block : Block) (coinbase : Transaction) : Prop where
  absent : witnessCommitmentOutput coinbase.outputs = none →
    ∀ transaction ∈ block.transactions, transaction.witness = none
  present : ∀ commitment, witnessCommitmentOutput coinbase.outputs = some commitment →
    ∃ reserved, coinbase.firstStack = [reserved] ∧ reserved.length = 32 ∧
      (commitment.script.drop 6).take 32 =
        (doubleSha256 ((merkleRootAndMutation block.witnessLeaves).1.bytes ++ reserved)).bytes

/-- What the parser must check of a block. -/
structure Valid (block : Block) : Prop where
  transactions : ∀ transaction ∈ block.transactions, transaction.Valid
  coinbase : block.HasOnlyCoinbase
  weight : block.weight ≤ maxBlockWeight
  merkle : merkleRootAndMutation block.txids =
    ((BitcoinHeader.ofRaw block.header).merkleRoot, false)
  commitment : ∀ coinbase, block.transactions.head? = some coinbase →
    block.CommitmentRule coinbase

/-- What the parser reports of a block whose first transaction is its coinbase. -/
def parsed (block : Block) (coinbase : Transaction) : ParsedBlock where
  metadata := {
    header := .ofRaw block.header
    blockHash := (BitcoinHeader.ofRaw block.header).blockHash
    coinbaseTxid := block.txids.headD (.zero 32)
    transactionCount := block.transactions.length
    strippedSize := block.strippedSize
    totalSize := block.serialize.length
    weight := block.weight }
  coinbase := coinbase.coinbaseParts
  txids := block.txids
  transactions := block.transactions.map Transaction.parsed

end Block

section Sizes

/-- The witness adds bytes. -/
theorem Transaction.stripped_length_le (transaction : Transaction) :
    transaction.stripped.length ≤ transaction.serialize.length := by
  simp only [Transaction.stripped, Transaction.serialize, List.flatten_cons, List.flatten_nil,
    List.length_append, List.length_nil]
  omega

/-- The parts of a transaction take their place in its stripped size. -/
theorem Transaction.stripped_length (transaction : Transaction) :
    transaction.stripped.length =
      8 + transaction.inputBytes.length + transaction.outputBytes.length := by
  simp only [Transaction.stripped, List.flatten_cons, List.flatten_nil, List.length_append,
    List.length_nil, transaction.version.length_eq, transaction.lockTime.length_eq]
  omega

/-- Counted parts take at least a byte for the count and their least size each. -/
theorem countedBytes_length {α : Type} {write : α → List UInt8} {least : Nat} {parts : List α}
    (size : ∀ part ∈ parts, least ≤ (write part).length) :
    parts.length * least < (countedBytes write parts).length := by
  have count := encodeCompactSize_length_pos parts.length
  have covered := length_mul_le_flatten write size
  rw [countedBytes, List.length_append]
  omega

/-- A counted part is shorter than the counted list. -/
theorem length_lt_countedBytes {α : Type} (write : α → List UInt8) {parts : List α} {part : α}
    (member : part ∈ parts) : (write part).length < (countedBytes write parts).length := by
  have count := encodeCompactSize_length_pos parts.length
  have covered := length_le_flatten write member
  rw [countedBytes, List.length_append]
  omega

/-- A valid transaction has at least the bytes the parser counts for it. -/
theorem Transaction.Valid.minTransactionBytes_le {transaction : Transaction}
    (valid : transaction.Valid) : minTransactionBytes ≤ transaction.stripped.length := by
  have inputs : transaction.inputs.length * minInputBytes < transaction.inputBytes.length :=
    countedBytes_length fun input _ => minInputBytes_le input
  have outputs : transaction.outputs.length * minOutputBytes < transaction.outputBytes.length :=
    countedBytes_length fun output _ => minOutputBytes_le output
  have someInput := List.length_pos_iff.mpr valid.hasInput
  have someOutput := List.length_pos_iff.mpr valid.hasOutput
  rw [transaction.stripped_length, minTransactionBytes]
  simp only [minInputBytes, minOutputBytes] at inputs outputs
  omega

/-- A transaction whose bytes fit a block is within the limits of the parser. -/
theorem Transaction.withinLimits {transaction : Transaction}
    (base : transaction.stripped.length ≤ maxBlockBaseBytes)
    (total : transaction.serialize.length ≤ maxBlockWeight) : transaction.WithinLimits := by
  have parts := transaction.stripped_length
  have inputs : transaction.inputs.length * minInputBytes < transaction.inputBytes.length :=
    countedBytes_length fun input _ => minInputBytes_le input
  have outputs : transaction.outputs.length * minOutputBytes < transaction.outputBytes.length :=
    countedBytes_length fun output _ => minOutputBytes_le output
  refine ⟨?_, ?_, ?_, ?_, ?_⟩
  · rw [maxInputs, Nat.le_div_iff_mul_le (by decide)]
    omega
  · intro input member
    have part := length_lt_countedBytes ParsedInput.serialize member
    have whole : (countedBytes ParsedInput.serialize transaction.inputs).length =
        transaction.inputBytes.length := rfl
    have script := sizedBytes_length input.script
    rw [input.serialize_length] at part
    rw [ParsedInput.WithinLimits, maxCoinbaseOutputScriptBytes]
    omega
  · rw [maxCoinbaseOutputs, Nat.le_div_iff_mul_le (by decide)]
    omega
  · intro output member
    have part := length_lt_countedBytes ParsedOutput.serialize member
    have whole : (countedBytes ParsedOutput.serialize transaction.outputs).length =
        transaction.outputBytes.length := rfl
    have script := sizedBytes_length output.script
    rw [output.serialize_length] at part
    rw [maxCoinbaseOutputScriptBytes]
    omega
  · intro perInput form stack member
    have inBlock : (stackBytes stack).length ≤ maxBlockWeight := by
      have part := length_le_flatten stackBytes member
      have whole : transaction.witnessBytes = (perInput.map stackBytes).flatten := by
        simp [Transaction.witnessBytes, form]
      have placed : transaction.witnessBytes.length ≤ transaction.serialize.length := by
        simp only [Transaction.serialize, List.flatten_cons, List.flatten_nil,
          List.length_append, List.length_nil]
        omega
      rw [whole] at placed
      omega
    have limit : maxBlockWeight < 2 ^ 64 := by decide
    constructor
    · have items : stack.length * 1 < (stackBytes stack).length :=
        countedBytes_length fun item _ => Nat.lt_of_le_of_lt (Nat.zero_le _)
          (sizedBytes_length item)
      omega
    · intro item itemMember
      have part := length_lt_countedBytes sizedBytes itemMember
      have whole : (countedBytes sizedBytes stack).length = (stackBytes stack).length := rfl
      have sized := sizedBytes_length item
      omega

end Sizes

section Blocks

variable [Hashing]

/-- The first of a list of transactions is a coinbase exactly when one is due, and no other. -/
def Placed : Bool → List Transaction → Prop
  | _, [] => True
  | first, transaction :: others =>
    (transaction.IsCoinbase ↔ first = true) ∧ Placed false others

omit [Hashing] in
/-- After the first transaction no coinbase is due. -/
theorem placed_false (transactions : List Transaction) :
    Placed false transactions ↔ ∀ transaction ∈ transactions, ¬transaction.IsCoinbase := by
  induction transactions with
  | nil => simp [Placed]
  | cons first others ih => simp [Placed, ih]

omit [Hashing] in
/-- A nonempty list of transactions is placed when it has the only coinbase in front. -/
theorem placed_true {block : Block} (some : block.transactions ≠ []) :
    Placed true block.transactions ↔ block.HasOnlyCoinbase := by
  cases form : block.transactions with
  | nil => exact absurd form some
  | cons first others =>
    rw [Placed, placed_false]
    constructor
    · rintro ⟨coinbase, rest⟩
      exact ⟨first, others, form, coinbase.mpr rfl, rest⟩
    · rintro ⟨first', others', form', coinbase, rest⟩
      rw [form, List.cons.injEq] at form'
      obtain ⟨rfl, rfl⟩ := form'
      exact ⟨iff_of_true coinbase rfl, rest⟩

omit [Hashing] in
theorem checkPlacement_eq_ok (first isCoinbase : Bool) :
    checkPlacement first isCoinbase = .ok () ↔ isCoinbase = first := by
  cases first <;> cases isCoinbase <;> simp [checkPlacement]

/-- The transactions of a block are read one after another. -/
theorem parseTransactions_eq_ok {first : Bool} {count : Nat} {input rest : List UInt8}
    {parsed : List ParsedTransaction} :
    parseTransactions first count input = .ok (parsed, rest) ↔
      ∃ transactions : List Transaction, transactions.length = count ∧
        (∀ transaction ∈ transactions, transaction.Valid ∧ transaction.WithinLimits) ∧
        Placed first transactions ∧ parsed = transactions.map Transaction.parsed ∧
        input = (transactions.map Transaction.serialize).flatten ++ rest := by
  induction count generalizing first input parsed rest with
  | zero =>
    rw [parseTransactions, Reader.pure_eq_ok]
    constructor
    · rintro ⟨rfl, rfl⟩
      exact ⟨[], rfl, by simp, trivial, rfl, rfl⟩
    · rintro ⟨transactions, length, -, -, rfl, rfl⟩
      rw [List.length_eq_zero_iff.mp length]
      exact ⟨rfl, rfl⟩
  | succ count ih =>
    have placement : ∀ transaction : Transaction,
        transaction.parsed.isCoinbase = first ↔ (transaction.IsCoinbase ↔ first = true) := by
      intro transaction
      rw [Bool.eq_iff_iff]
      exact iff_congr decide_eq_true_iff Iff.rfl
    simp only [parseTransactions, Reader.bind_eq_ok, parseTransaction_eq_ok, Reader.check_eq_ok,
      checkPlacement_eq_ok, ih, Reader.pure_eq_ok]
    constructor
    · rintro ⟨_, middle, ⟨transaction, valid, limits, rfl, rfl⟩, _, _, ⟨placed, rfl⟩, _, last,
        ⟨others, rfl, all, rest', rfl, rfl⟩, rfl, rfl⟩
      exact ⟨transaction :: others, rfl, List.forall_mem_cons.mpr ⟨⟨valid, limits⟩, all⟩,
        ⟨(placement transaction).mp placed, rest'⟩, rfl, by simp⟩
    · rintro ⟨transactions, length, all, placed, rfl, rfl⟩
      cases transactions with
      | nil => simp at length
      | cons transaction others =>
        obtain ⟨⟨valid, limits⟩, rest'⟩ := List.forall_mem_cons.mp all
        refine ⟨transaction.parsed, (others.map Transaction.serialize).flatten ++ rest,
          ⟨transaction, valid, limits, rfl, by simp⟩, (), _,
          ⟨(placement transaction).mpr placed.1, rfl⟩, others.map Transaction.parsed, rest,
          ⟨others, Nat.succ.inj length, rest', placed.2, rfl, rfl⟩, rfl, rfl⟩

/-- The commitment check is the BIP141 rule of the coinbase. -/
theorem verifyWitnessCommitment_eq_ok (block : Block) (coinbase : Transaction) :
    verifyWitnessCommitment coinbase.coinbaseParts
        (block.transactions.map Transaction.wtxid)
        ((block.transactions.map Transaction.parsed).any (·.hasWitness)) = .ok () ↔
      block.CommitmentRule coinbase := by
  have none_iff : ((block.transactions.map Transaction.parsed).any (·.hasWitness)) = false ↔
      ∀ transaction ∈ block.transactions, transaction.witness = none := by
    simp [List.any_eq_false, Transaction.parsed]
  have outputs : coinbase.coinbaseParts.outputs = coinbase.outputs := rfl
  have stack : coinbase.coinbaseParts.witness = coinbase.firstStack := rfl
  rw [verifyWitnessCommitment, outputs]
  cases found : witnessCommitmentOutput coinbase.outputs with
  | none =>
    simp only [rejectIf_eq_ok, Bool.not_eq_true, none_iff]
    constructor
    · intro absent
      exact ⟨fun _ => absent, fun commitment same => by simp [found] at same⟩
    · intro rule
      exact rule.absent found
  | some commitment =>
    simp only [↓then_eq_ok, rejectIf_eq_ok, stack, not_not, not_or]
    constructor
    · rintro ⟨⟨one, width⟩, committed⟩
      obtain ⟨reserved, single⟩ := List.length_eq_one_iff.mp one
      rw [single] at width committed
      refine ⟨fun absent => by simp [found] at absent, fun commitment' same => ?_⟩
      rw [found, Option.some.injEq] at same
      exact ⟨reserved, single, width, same ▸ committed⟩
    · intro rule
      obtain ⟨reserved, single, width, committed⟩ := rule.present commitment found
      rw [single]
      exact ⟨⟨rfl, width⟩, committed⟩

omit [Hashing] in
/-- The stripped size of a block is the sum of the stripped sizes of its parts. -/
theorem Block.strippedSize_eq (block : Block) :
    block.strippedSize = 80 + (encodeCompactSize block.transactions.length).length +
      (block.transactions.map (·.stripped.length)).sum := by
  rw [Block.strippedSize, block.header.length_eq, countedBytes, List.length_append,
    List.length_flatten, List.map_map, Nat.add_assoc]
  rfl

/-- The parser adds up the stripped size. -/
theorem blockStrippedSize_eq (block : Block) :
    blockStrippedSize (encodeCompactSize block.transactions.length).length
      (block.transactions.map Transaction.parsed) = block.strippedSize := by
  rw [blockStrippedSize, block.strippedSize_eq, List.map_map]
  rfl

omit [Hashing] in
/-- A block without its witness is no longer than the block. -/
theorem Block.strippedSize_le (block : Block) : block.strippedSize ≤ block.serialize.length := by
  have parts : ∀ transactions : List Transaction,
      (transactions.map Transaction.stripped).flatten.length ≤
        (transactions.map Transaction.serialize).flatten.length := by
    intro transactions
    induction transactions with
    | nil => exact Nat.le_refl _
    | cons transaction others ih =>
      have one := transaction.stripped_length_le
      simp only [List.map_cons, List.flatten_cons, List.length_append]
      omega
  have all := parts block.transactions
  simp only [Block.strippedSize, Block.serialize, countedBytes, List.length_append]
  omega

omit [Hashing] in
/-- The weight bounds the stripped size. -/
theorem Block.strippedSize_le_base {block : Block} (light : block.weight ≤ maxBlockWeight) :
    block.strippedSize ≤ maxBlockBaseBytes := by
  have witness := block.strippedSize_le
  rw [Block.weight] at light
  rw [maxBlockBaseBytes, Nat.le_div_iff_mul_le (by decide)]
  omega

omit [Hashing] in
/-- Every transaction of a block that is light enough is within the limits of the parser. -/
theorem Block.withinLimits {block : Block} (light : block.weight ≤ maxBlockWeight)
    {transaction : Transaction} (member : transaction ∈ block.transactions) :
    transaction.WithinLimits := by
  have base := Block.strippedSize_le_base light
  have stripped := length_lt_countedBytes Transaction.stripped member
  have full := length_lt_countedBytes Transaction.serialize member
  rw [Block.strippedSize] at base
  rw [Block.weight, Block.serialize, List.length_append] at light
  exact Transaction.withinLimits (by omega) (by omega)

omit [Hashing] in
/-- A block of valid transactions that is light enough has no more of them than the limit. -/
theorem Block.transactionCount_le {block : Block} (light : block.weight ≤ maxBlockWeight)
    (valid : ∀ transaction ∈ block.transactions, transaction.Valid) :
    block.transactions.length ≤ maxTransactions := by
  have base := Block.strippedSize_le_base light
  have covered : block.transactions.length * minTransactionBytes <
      (countedBytes Transaction.stripped block.transactions).length :=
    countedBytes_length fun transaction member =>
      (valid transaction member).minTransactionBytes_le
  rw [Block.strippedSize] at base
  rw [maxTransactions, Nat.le_div_iff_mul_le (by decide)]
  omega

/-- A block is accepted exactly when its bytes are those of a valid block, of which the parser
then reports its parts. -/
theorem parseAndVerifyBlock_eq_ok {bytes : List UInt8} {parsed : ParsedBlock} :
    parseAndVerifyBlock bytes = .ok parsed ↔
      ∃ (block : Block) (coinbase : Transaction), block.Valid ∧
        block.transactions.head? = some coinbase ∧ bytes = block.serialize ∧
        parsed = block.parsed coinbase := by
  have countLimit : maxTransactions < 2 ^ 64 := by decide
  simp only [parseAndVerifyBlock]
  simp only [↓then_eq_ok, bind_eq_ok, rejectIf_eq_ok, okOr_eq_ok,
    mapError_eq_ok, pure_eq_ok, Prod.exists,
    parseCount_eq_ok countLimit (show 0 < minTransactionBytes by decide), parseTransactions_eq_ok]
  constructor
  · rintro ⟨-, -, header, decoded, count, body, ⟨⟨some, -, -⟩, counted⟩, _, trailing,
      ⟨transactions, rfl, all, placed, rfl, rfl⟩, done, light, unmutated, rooted, parts, coinbase,
      committed, rfl⟩
    obtain ⟨raw, front, rfl⟩ := BitcoinHeader.decodeExact_eq_ok.mp decoded
    obtain rfl := not_not.mp done
    let block : Block := ⟨raw, transactions⟩
    have serialized : bytes = block.serialize := by
      rw [← List.take_append_drop 80 bytes, ← front, counted, List.append_nil]
      rfl
    have placed' : block.HasOnlyCoinbase := (placed_true (List.length_pos_iff.mp some)).mp placed
    obtain ⟨first, others, form, isCoinbase, -⟩ := id placed'
    have size : blockStrippedSize (Cursor.between (bytes.drop 80)
        ((transactions.map Transaction.serialize).flatten ++ [])).length
        (transactions.map Transaction.parsed) = block.strippedSize := by
      rw [counted, Cursor.between_append]
      exact blockStrippedSize_eq block
    have txids : (transactions.map Transaction.parsed).map (·.txid) = block.txids :=
      List.map_map
    have wtxids : (transactions.map Transaction.parsed).map (·.wtxid) =
        block.transactions.map Transaction.wtxid := List.map_map
    have parts_eq : parts = first.coinbaseParts := by
      rw [show transactions = first :: others from form] at coinbase
      simp only [List.map_cons, List.head?_cons, Option.bind_some, Transaction.parsed,
        if_pos isCoinbase, Option.some.injEq] at coinbase
      exact coinbase.symm
    rw [size] at light ⊢
    rw [txids] at unmutated rooted ⊢
    rw [wtxids, parts_eq] at committed
    refine ⟨block, first, ⟨fun transaction member => (all transaction member).1, placed', ?_, ?_, ?_⟩,
      ?_, serialized, ?_⟩
    · rw [Block.weight, ← serialized]
      omega
    · exact Prod.ext (not_not.mp rooted) (Bool.not_eq_true _ ▸ unmutated)
    · intro found same
      rw [form, List.head?_cons, Option.some.injEq] at same
      exact same ▸ (verifyWitnessCommitment_eq_ok block first).mp committed
    · rw [form, List.head?_cons]
    · rw [parts_eq, Block.parsed, Block.weight, ← serialized, Nat.mul_comm]
  · rintro ⟨block, coinbase, valid, head, rfl, rfl⟩
    obtain ⟨first, others, form, isCoinbase, -⟩ := id valid.coinbase
    rw [form, List.head?_cons, Option.some.injEq] at head
    subst head
    have some : block.transactions ≠ [] := by simp [form]
    let body := (block.transactions.map Transaction.serialize).flatten
    have split : block.serialize =
        block.header.bytes ++ (encodeCompactSize block.transactions.length ++ body) := rfl
    have body_eq : block.serialize.drop 80 =
        encodeCompactSize block.transactions.length ++ body := by
      rw [split, List.drop_left' block.header.length_eq]
    have room : block.transactions.length * minTransactionBytes ≤ body.length :=
      length_mul_le_flatten Transaction.serialize fun transaction member =>
        Nat.le_trans (valid.transactions transaction member).minTransactionBytes_le
          transaction.stripped_length_le
    have long : ¬block.serialize.length < 80 + 1 := by
      have count := encodeCompactSize_length_pos block.transactions.length
      rw [split, List.length_append, List.length_append, block.header.length_eq]
      omega
    have light := valid.weight
    have short : ¬block.serialize.length > maxBlockWeight := by
      rw [Block.weight] at light
      omega
    have size : blockStrippedSize (Cursor.between (block.serialize.drop 80) body).length
        (block.transactions.map Transaction.parsed) = block.strippedSize := by
      rw [body_eq, Cursor.between_append]
      exact blockStrippedSize_eq block
    refine ⟨long, short, .ofRaw block.header,
      BitcoinHeader.decodeExact_eq_ok.mpr ⟨block.header, ?_, rfl⟩, block.transactions.length, body,
      ⟨⟨List.length_pos_iff.mpr some, Block.transactionCount_le light valid.transactions, room⟩,
        body_eq⟩, block.transactions.map Transaction.parsed, [],
      ⟨block.transactions, rfl, fun transaction member =>
          ⟨valid.transactions transaction member, Block.withinLimits light member⟩,
        (placed_true some).mpr valid.coinbase, rfl, (List.append_nil _).symm⟩,
      not_not.mpr rfl, ?_, ?_, ?_, first.coinbaseParts, ?_, ?_, ?_⟩
    · rw [split, List.take_left' block.header.length_eq]
    · rw [size]
      rw [Block.weight] at light
      omega
    · rw [List.map_map]
      exact Bool.not_eq_true _ ▸ congrArg Prod.snd valid.merkle
    · rw [List.map_map]
      exact not_not.mpr (congrArg Prod.fst valid.merkle)
    · simp [form, Transaction.parsed, isCoinbase]
    · rw [List.map_map]
      exact (verifyWitnessCommitment_eq_ok block first).mpr (valid.commitment first (by simp [form]))
    · rw [size, List.map_map, Block.parsed, Block.weight, Nat.mul_comm]
      rfl

omit [Hashing] in
/-- Every output takes its script and nine more bytes. -/
theorem outputs_sum_le (outputs : List ParsedOutput) :
    (outputs.map fun output => output.script.length + minOutputBytes).sum ≤
      (outputs.map ParsedOutput.serialize).flatten.length := by
  induction outputs with
  | nil => simp
  | cons output others ih =>
    have sized := sizedBytes_length output.script
    have whole := output.serialize_length
    simp only [List.map_cons, List.sum_cons, List.flatten_cons, List.length_append, minOutputBytes]
      at ih ⊢
    omega

/-- The parts of an accepted block: its transactions, the first of which is the coinbase. -/
theorem parseAndVerifyBlock_parts {bytes : List UInt8} {parsed : ParsedBlock}
    (accepted : parseAndVerifyBlock bytes = .ok parsed) :
    ∃ (coinbase : Transaction) (others : List Transaction),
      parsed.transactions = coinbase.parsed :: others.map Transaction.parsed ∧
      parsed.coinbase = coinbase.coinbaseParts ∧
      parsed.txids = coinbase.txid :: others.map Transaction.txid ∧
      (∀ transaction ∈ coinbase :: others, transaction.Valid ∧ transaction.WithinLimits ∧
        transaction.stripped.length ≤ maxBlockBaseBytes) ∧
      (∀ other ∈ others, ¬other.IsCoinbase) ∧
      (coinbase :: others).length ≤ maxTransactions := by
  obtain ⟨block, coinbase, valid, head, -, rfl⟩ := parseAndVerifyBlock_eq_ok.mp accepted
  obtain ⟨first, others, form, -, rest⟩ := valid.coinbase
  rw [form, List.head?_cons, Option.some.injEq] at head
  subst head
  have base := Block.strippedSize_le_base valid.weight
  refine ⟨first, others, ?_, rfl, ?_, ?_, rest, ?_⟩
  · change block.transactions.map Transaction.parsed = _
    rw [form, List.map_cons]
  · change block.transactions.map Transaction.txid = _
    rw [form, List.map_cons]
  · intro transaction member
    rw [← form] at member
    have stripped := length_lt_countedBytes Transaction.stripped member
    rw [Block.strippedSize] at base
    exact ⟨valid.transactions transaction member, Block.withinLimits valid.weight member, by omega⟩
  · rw [← form]
    exact Block.transactionCount_le valid.weight valid.transactions

/-- The coinbase scripts of an accepted block fit its base bytes, with nine bytes for each. -/
theorem coinbaseScripts_sum_le {bytes : List UInt8} {parsed : ParsedBlock}
    (accepted : parseAndVerifyBlock bytes = .ok parsed) :
    (parsed.coinbase.outputs.map fun output => output.script.length + minOutputBytes).sum ≤
      maxBlockBaseBytes := by
  obtain ⟨coinbase, others, -, parts, -, facts, -⟩ := parseAndVerifyBlock_parts accepted
  obtain ⟨-, -, base⟩ := facts coinbase List.mem_cons_self
  have sum := outputs_sum_le coinbase.outputs
  rw [coinbase.stripped_length, Transaction.outputBytes, countedBytes, List.length_append] at base
  rw [parts]
  exact Nat.le_trans sum (by omega)

end Blocks

end Usdd.BitcoinBmm

import Usdd.Verif.ReplayRuns
/-!
# The two M7 readers

The strict reader counts the slot-24 commitments among the coinbase scripts and classifies them
at the end; the replay's reader stops at the second one and remembers how the first was encoded.
Both are functions of the list of commitments, so they agree on every accepted block, whose size
keeps the resource errors out of reach.
-/
namespace Usdd.Verif

open Usdd.Foundation Usdd.Core Usdd.BitcoinBmm

section Commitments

/-- The commitment in a script, as the reader at an index records it. -/
def commitmentAt (index : Nat) (script : List UInt8) : Option ObservedM7 :=
  match extractSingleOpReturnPush script with
  | some payload =>
    if isSlot24M7 payload then
      some ⟨UInt32.ofNat index, copyHash payload, isCanonicalM7Script script⟩
    else none
  | none => none

/-- The slot-24 commitments among scripts, from an index on. -/
def commitments : Nat → List (List UInt8) → List ObservedM7
  | _, [] => []
  | index, script :: scripts => (commitmentAt index script).toList ++ commitments (index + 1) scripts

theorem indexU32_of_lt {index : Nat} (fits : index < 2 ^ 32) :
    indexU32 index = some (UInt32.ofNat index) := by
  rw [indexU32, if_pos fits]

/-- The strict reader's loop, when the resources are within the limits, summarizes the
commitments. -/
theorem scanM7Scripts_eq (scripts : List (List UInt8)) (index : Nat) (scan : M7Scan)
    (fits : index + scripts.length ≤ 2 ^ 32)
    (small : scan.aggregateScriptBytes + (scripts.map List.length).sum ≤
      maxCoinbaseOutputScriptBytes) :
    scanM7Scripts index scan scripts = .ok {
      found := scan.found + (commitments index scripts).length
      noncanonical := scan.noncanonical +
        (commitments index scripts).countP (¬·.canonicalForElements)
      matchedIndex :=
        ((commitments index scripts).getLast?.map (·.outputIndex)).getD scan.matchedIndex
      childHash := ((commitments index scripts).getLast?.map (·.childHash)).getD scan.childHash
      aggregateScriptBytes := scan.aggregateScriptBytes + (scripts.map List.length).sum } := by
  induction scripts generalizing index scan with
  | nil => simp [scanM7Scripts, commitments]
  | cons script scripts ih =>
    simp only [List.length_cons, List.map_cons, List.sum_cons] at fits small ⊢
    have here : ¬scan.aggregateScriptBytes + script.length > maxCoinbaseOutputScriptBytes := by
      omega
    have skip : ∀ next : M7Scan,
        next.aggregateScriptBytes = scan.aggregateScriptBytes + script.length →
        next.aggregateScriptBytes + (scripts.map List.length).sum ≤
          maxCoinbaseOutputScriptBytes := by
      intro next same
      omega
    have passed : scanM7Script scan index script = .ok {
        found := scan.found + (commitmentAt index script).toList.length
        noncanonical := scan.noncanonical +
          (commitmentAt index script).toList.countP (¬·.canonicalForElements)
        matchedIndex :=
          ((commitmentAt index script).map (·.outputIndex)).getD scan.matchedIndex
        childHash := ((commitmentAt index script).map (·.childHash)).getD scan.childHash
        aggregateScriptBytes := scan.aggregateScriptBytes + script.length } := by
      unfold scanM7Script commitmentAt
      simp only [rejectIf, if_neg here]
      cases extractSingleOpReturnPush script with
      | none => rfl
      | some payload =>
        by_cases commits : isSlot24M7 payload
        · simp only [commits, if_true, indexU32_of_lt (show index < 2 ^ 32 by omega)]
          cases canonical : isCanonicalM7Script script <;>
            simp [bind, Except.bind, okOr, pure, Except.pure]
        · simp only [commits]
          rfl
    rw [scanM7Scripts, passed]
    simp only [bind, Except.bind]
    rw [ih _ _ (by omega) (skip _ rfl), commitments]
    cases commitmentAt index script with
    | none => simp [Nat.add_assoc]
    | some commitment =>
      cases later : (commitments (index + 1) scripts).getLast? with
      | none =>
        rw [List.getLast?_eq_none_iff] at later
        simp [later, Nat.add_assoc]
      | some last =>
        simp [List.getLast?_cons, later, List.countP_cons, Nat.add_assoc, Nat.add_comm]

/-- The replay's loop returns the only commitment, nothing where there is none, and refuses more
than one. -/
theorem observeOutputs_eq (outputs : List ParsedOutput) (index : Nat)
    (observed : Option ObservedM7) (fits : index + outputs.length ≤ 2 ^ 32) :
    observeOutputs index observed outputs =
      match observed.toList ++ commitments index (outputs.map (·.script)) with
      | [] => .ok none
      | [only] => .ok (some only)
      | _ => .error .duplicateM7 := by
  induction outputs generalizing index observed with
  | nil => cases observed <;> rfl
  | cons output outputs ih =>
    simp only [List.length_cons, List.map_cons, commitments] at fits ⊢
    have room : index < 2 ^ 32 := by omega
    unfold observeOutputs commitmentAt
    cases extractSingleOpReturnPush output.script with
    | none =>
      rw [ih _ _ (by omega)]
      rfl
    | some payload =>
      by_cases commits : isSlot24M7 payload
      · simp only [commits, if_true]
        cases observed with
        | none =>
          simp only [rejectIf, Option.isSome_none, Bool.false_eq_true, if_false, bind, Except.bind,
            indexU32_of_lt room, okOr]
          rw [ih _ _ (by omega)]
          rfl
        | some first => rfl
      · simp only [commits, Bool.false_eq_true, if_false]
        rw [ih _ _ (by omega)]
        rfl

/-- Within the limits the strict reader returns the only commitment when it is canonical. -/
theorem extractElementsSlot24M7_eq {scripts : List (List UInt8)}
    (few : scripts.length ≤ maxCoinbaseOutputs)
    (small : (scripts.map List.length).sum ≤ maxCoinbaseOutputScriptBytes) :
    extractElementsSlot24M7 scripts =
      if (commitments 0 scripts).countP (¬·.canonicalForElements) ≠ 0 then .error .nonCanonical
      else
        match commitments 0 scripts with
        | [] => .error .missing
        | [only] => .ok ⟨only.outputIndex, only.childHash⟩
        | _ => .error .duplicate := by
  have limit : maxCoinbaseOutputs ≤ 2 ^ 32 := by decide
  have scanned := scanM7Scripts_eq scripts 0 ⟨0, 0, 0, .zero 32, 0⟩
    (by omega) (by simpa using small)
  simp only [extractElementsSlot24M7, rejectIf, if_neg (Nat.not_lt.mpr few), scanned, bind,
    Except.bind, Nat.zero_add]
  by_cases bad : (commitments 0 scripts).countP (¬·.canonicalForElements) ≠ 0
  · rw [if_pos bad, if_pos bad]
  · rw [if_neg bad, if_neg bad]
    cases commitments 0 scripts with
    | nil => rfl
    | cons only others => cases others <;> rfl

end Commitments

section Agreement

variable [Hashing]

/-- The scripts of a block's coinbase. -/
def coinbaseScripts (parsed : ParsedBlock) : List (List UInt8) :=
  parsed.coinbase.outputs.map (·.script)

/-- The two readers of a block agree, and neither runs out of resources. -/
structure ReadersAgree (parsed : ParsedBlock) : Prop where
  canonical : ∀ m7, extractElementsSlot24M7 (coinbaseScripts parsed) = .ok m7 ↔
    ∃ observed, observeSlot24M7 parsed = .ok (some observed) ∧
      observed.canonicalForElements = true ∧ m7 = ⟨observed.outputIndex, observed.childHash⟩
  missing : extractElementsSlot24M7 (coinbaseScripts parsed) = .error .missing ↔
    observeSlot24M7 parsed = .ok none
  fewOutputs : extractElementsSlot24M7 (coinbaseScripts parsed) ≠ .error .tooManyOutputs
  fewBytes : extractElementsSlot24M7 (coinbaseScripts parsed) ≠
    .error .aggregateScriptBytesExceeded
  indexed : extractElementsSlot24M7 (coinbaseScripts parsed) ≠ .error .outputIndexOverflow ∧
    observeSlot24M7 parsed ≠ .error .outputIndexOverflow

/-- What the replay reports of an accepted block is what the strict reader reads in it. -/
structure ReportAgrees (parsed : ParsedBlock) (next : ElementsSlot24ReplayState)
    (effects : ElementsSlot24BlockEffects) : Prop where
  edge : effects.bmmEdge.isSome = true ↔ next.requiredProposalIsActive = true ∧
    ∃ m7, extractElementsSlot24M7 (coinbaseScripts parsed) = .ok m7
  carried : ∀ edge m7, effects.bmmEdge = some edge →
    extractElementsSlot24M7 (coinbaseScripts parsed) = .ok m7 →
      edge.m7OutputIndex = m7.outputIndex ∧ edge.committedChildHash = m7.committedChildHash
  requests : effects.matchingM8Requests =
    (parsed.transactions.drop 1).countP fun transaction => (parseSlot24M8 transaction).isSome
  named : ∀ transaction ∈ parsed.transactions.drop 1, ∀ childHash previousHash,
    parseSlot24M8 transaction = some (childHash, previousHash) →
      ∃ observed, observeSlot24M7 parsed = .ok (some observed) ∧
        childHash = observed.childHash ∧
        previousHash = parsed.metadata.header.previousBlock

/-- The outputs of an accepted coinbase are within the limits of the strict reader. -/
theorem coinbaseScripts_within {bytes : List UInt8} {parsed : ParsedBlock}
    (accepted : parseAndVerifyBlock bytes = .ok parsed) :
    (coinbaseScripts parsed).length ≤ maxCoinbaseOutputs ∧
      ((coinbaseScripts parsed).map List.length).sum ≤ maxCoinbaseOutputScriptBytes := by
  have sum := coinbaseScripts_sum_le accepted
  rw [List.sum_map_add] at sum
  simp only [List.map_const', List.sum_replicate, smul_eq_mul] at sum
  simp only [coinbaseScripts, List.length_map, List.map_map, Function.comp_def,
    maxCoinbaseOutputScriptBytes]
  refine ⟨?_, by omega⟩
  rw [maxCoinbaseOutputs, Nat.le_div_iff_mul_le (by decide)]
  omega

theorem readersAgree {bytes : List UInt8} {parsed : ParsedBlock}
    (accepted : parseAndVerifyBlock bytes = .ok parsed) : ReadersAgree parsed := by
  obtain ⟨few, small⟩ := coinbaseScripts_within accepted
  have limit : maxCoinbaseOutputs ≤ 2 ^ 32 := by decide
  have strict := extractElementsSlot24M7_eq few small
  have replay : observeSlot24M7 parsed =
      match commitments 0 (coinbaseScripts parsed) with
      | [] => .ok none
      | [only] => .ok (some only)
      | _ => .error .duplicateM7 := by
    rw [coinbaseScripts, List.length_map] at few
    have observed := observeOutputs_eq parsed.coinbase.outputs 0 none
      (by omega)
    rwa [Option.toList_none, List.nil_append] at observed
  cases found : commitments 0 (coinbaseScripts parsed) with
  | nil =>
    rw [found] at strict replay
    constructor <;> simp [strict, replay]
  | cons only others =>
    cases others with
    | nil =>
      rw [found] at strict replay
      cases canonical : only.canonicalForElements
      · constructor <;> simp [strict, replay, canonical]
      · constructor <;> simp [strict, replay, canonical]
        exact fun m7 => eq_comm
    | cons second others =>
      rw [found] at strict replay
      simp only at strict replay
      split at strict
      · constructor <;> simp [strict, replay]
      · constructor <;> simp [strict, replay]

/-- The replay reports the edge and the requests of an accepted block. -/
theorem reportAgrees {bytes : List UInt8} {parsed : ParsedBlock}
    (accepted : parseAndVerifyBlock bytes = .ok parsed) {state next : ElementsSlot24ReplayState}
    {effects : ElementsSlot24BlockEffects}
    (applied : applyMerkleBoundElementsSlot24ParentBlock state bytes = .ok (next, effects)) :
    ReportAgrees parsed next effects := by
  obtain ⟨parsed', accepted', behind⟩ := applyBlock_ok applied
  rw [accepted, Except.ok.injEq] at accepted'
  subst accepted'
  obtain ⟨messaged, observed, progress, step⟩ := applyParsedBlock_ok behind
  obtain ⟨counted, named⟩ := applyTransactions_requests step.transactions
  have agree := readersAgree accepted
  have active : next.requiredProposalIsActive = messaged.requiredProposalIsActive := by
    rw [step.final]
    rfl
  have made : effects.bmmEdge =
      bmmEdge parsed state.nextHeight messaged.requiredProposalIsActive observed := by
    rw [step.reported]
  refine ⟨?_, ?_, ?_, ?_⟩
  · rw [made, active]
    simp only [agree.canonical, step.seen, Except.ok.injEq]
    cases observed with
    | none => simp [bmmEdge]
    | some m7 => simp [bmmEdge, Option.filter]
  · intro edge m7 present extracted
    obtain ⟨observed', seen, canonical, rfl⟩ := (agree.canonical m7).mp extracted
    rw [step.seen, Except.ok.injEq] at seen
    subst seen
    rw [made, bmmEdge, Option.map_eq_some_iff] at present
    obtain ⟨m7, kept, rfl⟩ := present
    rw [Option.filter_eq_some_iff, Option.some.injEq] at kept
    obtain ⟨rfl, -⟩ := kept
    exact ⟨rfl, rfl⟩
  · rw [step.reported]
    simpa using counted
  · intro transaction member childHash previousHash request
    obtain ⟨m7, observed', child, previous⟩ :=
      named transaction member childHash previousHash request
    simp only [transactionContext] at observed' previous
    subst observed'
    exact ⟨m7, step.seen, child, previous⟩

/-- The two M7 readers agree on every accepted block, and the replay reports what the strict
reader reads. -/
theorem m7Readers_agree (bytes : List UInt8) (parsed : ParsedBlock)
    (accepted : parseAndVerifyBlock bytes = .ok parsed) :
    ReadersAgree parsed ∧
    ∀ state next effects,
      applyMerkleBoundElementsSlot24ParentBlock state bytes = .ok (next, effects) →
        ReportAgrees parsed next effects :=
  ⟨readersAgree accepted, fun _ _ _ applied => reportAgrees accepted applied⟩

omit [Hashing] in
/-- The readers agree on the block of the sample run that has a commitment, and the run accepts
it. -/
theorem m7Readers_agree_sample :
    letI := sha256Hashing
    ∃ parsed, parseAndVerifyBlock activatingBlock = .ok parsed ∧ ReadersAgree parsed ∧
      ∃ state next effects,
        applyMerkleBoundElementsSlot24ParentBlock state activatingBlock = .ok (next, effects) ∧
          ReportAgrees parsed next effects := by
  let hashing := sha256Hashing
  obtain ⟨results, accepted⟩ := sampleRun_accepted
  simp only [sampleBlocks, acceptBlocks, bind_eq_ok, Prod.exists] at accepted
  obtain ⟨_, _, -, _, ⟨state, _, -, _, ⟨next, effects, applied, -⟩, -⟩, -⟩ := accepted
  obtain ⟨parsed, read, -⟩ := applyBlock_ok applied
  obtain ⟨readers, reports⟩ := m7Readers_agree activatingBlock parsed read
  exact ⟨parsed, read, readers, state, next, effects, applied,
    reports state next effects applied⟩

end Agreement

end Usdd.Verif

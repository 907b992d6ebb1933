import Usdd.Core.Gates
/-!
# What a launch table says

The parser accepts a table exactly if its header is exact, its rows are well formed and no gate
has two of them, and its report then has the row of each gate. The verification after it marks
every pass exactly if all of them have evidence.
-/
namespace Usdd.Core

open Usdd.Foundation

section Rows

/-- A line that is neither blank nor a comment. -/
def isRow (line : List Char) : Bool := !isSkipped line

/-- The rows of a table: its lines after the header, blank lines and comments apart. -/
def gateRows (text : List Char) : List (List Char) := (lines text).tail.filter isRow

/-- The first column of a row. -/
def gateOf (row : List Char) : List Char := (row.splitOn '\t').headD []

/-- A row of four columns with a required gate and a status. -/
def WellFormedRow (row : List Char) : Prop :=
  ∃ gate status value evidence, row.splitOn '\t' = [gate, status, value, evidence] ∧
    gate ∈ requiredLaunchGates ∧ ∃ known : GateStatus, status = known.asStr

/-- The entry of a row. -/
def entryOf (row : List Char) : GateEntry :=
  match row.splitOn '\t' with
  | [id, status, measuredValue, evidence] =>
    ⟨id, if status = "PASS".toList then .pass else if status = "FAIL".toList then .fail
      else .blocked, measuredValue, evidence, false⟩
  | _ => missingEntry []

variable {row gate value evidence : List Char} {status : GateStatus}

theorem gateOf_eq (columns : row.splitOn '\t' = [gate, status.asStr, value, evidence]) :
    gateOf row = gate := by
  rw [gateOf, columns]
  rfl

theorem entryOf_eq (columns : row.splitOn '\t' = [gate, status.asStr, value, evidence]) :
    entryOf row = ⟨gate, status, value, evidence, false⟩ := by
  rw [entryOf, columns]
  cases status <;> rfl

theorem WellFormedRow.entryOf_id (wellFormed : WellFormedRow row) :
    (entryOf row).id = gateOf row := by
  obtain ⟨gate, status, value, evidence, columns, _, known, rfl⟩ := wellFormed
  rw [entryOf_eq columns, gateOf_eq columns]

/-- A row is accepted exactly if it is well formed and its gate has no entry yet. -/
theorem parseLine_eq_ok {lineIndex : Nat} {provided next : List GateEntry}
    (counts : isRow row = true) :
    parseLine lineIndex provided row = .ok next ↔ WellFormedRow row ∧
      gateOf row ∉ provided.map GateEntry.id ∧ next = provided ++ [entryOf row] := by
  have heard : ¬isSkipped row = true := by simpa [isRow] using counts
  unfold parseLine
  rw [if_neg heard]
  split
  · rename_i id status value evidence columns
    simp only [↓then_eq_ok, bind_eq_ok, rejectIf_eq_ok, pure_eq_ok, GateStatus.parse_eq_ok]
    simp only [not_not, List.any_eq_true, beq_iff_eq]
    constructor
    · rintro ⟨required, known, rfl, fresh, rfl⟩
      rw [gateOf_eq columns, entryOf_eq columns, List.mem_map]
      exact ⟨⟨_, _, _, _, columns, required, known, rfl⟩, fresh, rfl⟩
    · rintro ⟨⟨gate, text, value', evidence', columns', required, known, rfl⟩, fresh, rfl⟩
      rw [columns] at columns'
      cases columns'
      rw [gateOf_eq columns, List.mem_map] at fresh
      rw [entryOf_eq columns]
      exact ⟨required, known, rfl, fresh, rfl⟩
  · rename_i other
    constructor
    · intro wrong
      cases wrong
    · rintro ⟨⟨gate, status, value, evidence, columns, _⟩, _⟩
      exact (other _ _ _ _ columns).elim

/-- The loop over the lines accepts exactly well-formed rows with distinct gates. -/
theorem parseLines_eq_ok {rest : List (List Char)} {lineIndex : Nat}
    {provided final : List GateEntry} (distinct : (provided.map GateEntry.id).Nodup) :
    foldIndexed parseLine lineIndex provided rest = .ok final ↔
      (∀ row ∈ rest.filter isRow, WellFormedRow row) ∧
        (provided.map GateEntry.id ++ (rest.filter isRow).map gateOf).Nodup ∧
        final = provided ++ (rest.filter isRow).map entryOf := by
  induction rest generalizing lineIndex provided with
  | nil =>
    simp only [foldIndexed, Except.ok.injEq, List.filter_nil, List.not_mem_nil, false_implies,
      implies_true, List.map_nil, List.append_nil, true_and, distinct]
    exact eq_comm
  | cons row rest ih =>
    rw [foldIndexed, bind_eq_ok]
    by_cases counts : isRow row = true
    · rw [List.filter_cons_of_pos counts]
      simp only [parseLine_eq_ok counts, List.forall_mem_cons, List.map_cons]
      -- the accepted row makes the entries one longer, and its gate is the new entry's
      have step : WellFormedRow row → gateOf row ∉ provided.map GateEntry.id →
          (foldIndexed parseLine (lineIndex + 1) (provided ++ [entryOf row]) rest = .ok final ↔
            (∀ row ∈ rest.filter isRow, WellFormedRow row) ∧
              (provided.map GateEntry.id ++
                gateOf row :: (rest.filter isRow).map gateOf).Nodup ∧
              final = provided ++ entryOf row :: (rest.filter isRow).map entryOf) := by
        intro wellFormed fresh
        have names : (provided ++ [entryOf row]).map GateEntry.id =
            provided.map GateEntry.id ++ [gateOf row] := by
          rw [List.map_append, List.map_singleton, wellFormed.entryOf_id]
        have longer : ((provided ++ [entryOf row]).map GateEntry.id).Nodup := by
          rw [names]
          exact List.nodup_append.mpr ⟨distinct, List.nodup_singleton _, by
            rintro gate member _ single rfl
            rw [List.mem_singleton.mp single] at member
            exact fresh member⟩
        rw [ih longer, names, List.append_assoc, List.append_assoc]
        rfl
      constructor
      · rintro ⟨_, ⟨wellFormed, fresh, rfl⟩, more⟩
        obtain ⟨others, nodup, final⟩ := (step wellFormed fresh).mp more
        exact ⟨⟨wellFormed, others⟩, nodup, final⟩
      · rintro ⟨⟨wellFormed, others⟩, nodup, final⟩
        have fresh : gateOf row ∉ provided.map GateEntry.id := fun member =>
          (List.nodup_append.mp nodup).2.2 _ member _ List.mem_cons_self rfl
        exact ⟨_, ⟨wellFormed, fresh, rfl⟩, (step wellFormed fresh).mpr ⟨others, nodup, final⟩⟩
    · have skipped : isSkipped row = true := by simpa [isRow] using counts
      have passed : parseLine lineIndex provided row = .ok provided := by
        rw [parseLine, if_pos skipped]
      rw [List.filter_cons_of_neg counts, passed, ← @ih (lineIndex + 1) provided distinct]
      simp only [Except.ok.injEq, exists_eq_left']

/-- A table the parser accepts. -/
structure AcceptedTable (text : List Char) : Prop where
  header : (lines text).head? = some gateHeader
  rows : ∀ row ∈ gateRows text, WellFormedRow row
  distinct : ((gateRows text).map gateOf).Nodup

/-- The parser's law: it accepts these tables, and reports the row of each gate. -/
theorem parseTsv_eq_ok {text : List Char} {report : GateReport} :
    GateReport.parseTsv text = .ok report ↔ AcceptedTable text ∧
      report = ⟨requiredLaunchGates.map (entryFor ((gateRows text).map entryOf))⟩ := by
  unfold GateReport.parseTsv
  cases whole : lines text with
  | nil =>
    constructor
    · intro wrong
      cases wrong
    · rintro ⟨accepted, _⟩
      have header := accepted.header
      rw [whole] at header
      cases header
  | cons header rest =>
    have rows : gateRows text = rest.filter isRow := by rw [gateRows, whole, List.tail_cons]
    simp only [↓then_eq_ok, bind_eq_ok, rejectIf_eq_ok, pure_eq_ok,
      parseLines_eq_ok (show (([] : List GateEntry).map GateEntry.id).Nodup from List.nodup_nil)]
    simp only [ne_eq, not_not, List.map_nil, List.nil_append, ← rows]
    constructor
    · rintro ⟨rfl, _, ⟨wellFormed, distinct, rfl⟩, rfl⟩
      exact ⟨⟨by rw [whole]; rfl, wellFormed, distinct⟩, rfl⟩
    · rintro ⟨accepted, rfl⟩
      have same : header = gateHeader := by simpa [whole] using accepted.header
      exact ⟨same, _, ⟨accepted.rows, accepted.distinct, rfl⟩, rfl⟩

/-- Among entries with distinct gates, the entry found for a gate is the one that has it. -/
theorem find_of_mem {entries : List GateEntry} {entry : GateEntry}
    (distinct : (entries.map GateEntry.id).Nodup) (member : entry ∈ entries) :
    entries.find? (fun other => other.id == entry.id) = some entry := by
  induction entries with
  | nil => cases member
  | cons first rest ih =>
    rw [List.map_cons, List.nodup_cons] at distinct
    rcases List.mem_cons.mp member with rfl | later
    · simp
    · have other : first.id ≠ entry.id := fun same =>
        distinct.1 (same ▸ List.mem_map_of_mem later)
      rw [List.find?_cons_of_neg (by simpa using other)]
      exact ih distinct.2 later

/-- The report has a pass for a gate exactly if the table has a row that says so. -/
theorem AcceptedTable.entryFor_pass {text : List Char} (accepted : AcceptedTable text)
    {entry : GateEntry} :
    (entryFor ((gateRows text).map entryOf) gate = entry ∧ entry.status = .pass) ↔
      entry = ⟨gate, .pass, entry.measuredValue, entry.evidence, false⟩ ∧
        ∃ row ∈ gateRows text, row.splitOn '\t' =
          [gate, GateStatus.pass.asStr, entry.measuredValue, entry.evidence] := by
  constructor
  · rintro ⟨found, pass⟩
    cases listed : ((gateRows text).map entryOf).find? fun entry => entry.id == gate with
    | none =>
      rw [entryFor, listed] at found
      subst found
      cases pass
    | some other =>
      rw [entryFor, listed] at found
      obtain rfl : other = entry := found
      have named : other.id = gate := by simpa using List.find?_some listed
      obtain ⟨row, member, rfl⟩ := List.mem_map.mp (List.mem_of_find?_eq_some listed)
      obtain ⟨name, text, value, evidence, columns, _, status, rfl⟩ := accepted.rows row member
      rw [entryOf_eq columns] at named pass ⊢
      obtain rfl : name = gate := named
      obtain rfl : status = .pass := pass
      exact ⟨rfl, row, member, columns⟩
  · rintro ⟨shape, row, member, columns⟩
    have same : entryOf row = entry := (entryOf_eq columns).trans shape.symm
    have listed : entry ∈ (gateRows text).map entryOf := same ▸ List.mem_map_of_mem member
    have names : ((gateRows text).map entryOf).map GateEntry.id = (gateRows text).map gateOf := by
      rw [List.map_map]
      exact List.map_congr_left fun row member => (accepted.rows row member).entryOf_id
    have distinct : (((gateRows text).map entryOf).map GateEntry.id).Nodup := by
      rw [names]
      exact accepted.distinct
    have found := find_of_mem distinct listed
    have id : entry.id = gate := by rw [shape]
    rw [id] at found
    constructor
    · rw [entryFor, found]
      rfl
    · rw [shape]

end Rows

section Evidence

variable [Hashing] {read : List Char → Except String (List UInt8)}

/-- Evidence that a file bears out: its digest, in either case and not all zeros, at a path of
names only. -/
def Evidenced (read : List Char → Except String (List UInt8)) (evidence : List Char) : Prop :=
  ∃ digest path bytes, evidence = "sha256:".toList ++ (digest ++ '@' :: path) ∧
    digest.length = 64 ∧ (∀ digit ∈ digest, (hexDigit digit).isSome = true) ∧
    (∃ digit ∈ digest, digit ≠ '0') ∧
    path ≠ [] ∧ (∀ component ∈ components path, component.isNormal = true) ∧
    read path = .ok bytes ∧ parseHex digest = some (hashBytes bytes).bytes

omit [Hashing] in
/-- Comparing a digest with a hash up to case is comparing what the digest stands for. -/
theorem eqIgnoreAsciiCase_lowerHex {bytes : List UInt8} {digest : List Char} :
    eqIgnoreAsciiCase (lowerHex bytes) digest = true ↔ parseHex digest = some bytes := by
  rw [eqIgnoreAsciiCase, beq_iff_eq, lowerHex_toLower, parseHex_eq_some]
  exact eq_comm

omit [Hashing] in
theorem parseEvidenceSpec_eq_some {value hex path : List Char} :
    parseEvidenceSpec value = some (hex, path) ↔
      value = "sha256:".toList ++ (hex ++ '@' :: path) ∧ hex.length = 64 ∧
        (∀ digit ∈ hex, (hexDigit digit).isSome = true) ∧ (∃ digit ∈ hex, digit ≠ '0') ∧
        path ≠ [] := by
  unfold parseEvidenceSpec
  simp only [Option.bind_eq_bind, Option.bind_eq_some_iff, stripStart_eq_some, Prod.exists,
    splitOnce_eq_some]
  constructor
  · rintro ⟨_, rfl, before, after, ⟨rfl, _⟩, checked⟩
    split at checked
    · cases checked
    · rename_i passed
      obtain ⟨rfl, rfl⟩ := Prod.mk.inj (Option.some.inj checked)
      simp only [not_or, not_not, List.all_eq_true, List.any_eq_true, decide_eq_true_eq,
        ne_eq] at passed
      exact ⟨rfl, passed⟩
  · rintro ⟨rfl, length, digits, nonzero, named⟩
    have apart : '@' ∉ hex := fun member => absurd (digits _ member) (by decide)
    refine ⟨_, rfl, hex, path, ⟨rfl, apart⟩, ?_⟩
    rw [if_neg]
    simp only [not_or, not_not, List.all_eq_true, List.any_eq_true, decide_eq_true_eq]
    exact ⟨length, digits, nonzero, named⟩

/-- A pass is verified exactly if its evidence is borne out, and other entries stay as they are. -/
theorem verifyEntry_eq_ok {entry verified : GateEntry} :
    verifyEntry read entry = .ok verified ↔
      (entry.status ≠ .pass ∧ verified = entry) ∨ (entry.status = .pass ∧
        Evidenced read entry.evidence ∧ verified = { entry with evidenceVerified := true }) := by
  unfold verifyEntry
  by_cases pass : entry.status = .pass
  · rw [if_neg (not_not.mpr pass)]
    simp only [↓then_eq_ok, bind_eq_ok, rejectIf_eq_ok, okOr_eq_ok, pure_eq_ok, mapError_eq_ok,
      Prod.exists, parseEvidenceSpec_eq_some]
    simp only [not_or, List.any_eq_true, Bool.not_eq_false, eqIgnoreAsciiCase_lowerHex]
    constructor
    · rintro ⟨digest, path, ⟨shape, length, digits, nonzero, _⟩, ⟨named, _, normal⟩, bytes, found,
        same, rfl⟩
      exact Or.inr ⟨pass, ⟨digest, path, bytes, shape, length, digits, nonzero, named,
        by simpa using normal, found, same⟩, rfl⟩
    · rintro (⟨other, _⟩ | ⟨_, ⟨digest, path, bytes, shape, length, digits, nonzero, named, normal,
        found, same⟩, rfl⟩)
      · exact absurd pass other
      · have relative := not_absolute_of_normal normal
        exact ⟨digest, path, ⟨shape, length, digits, nonzero, named⟩,
          ⟨named, by simp [relative], by simpa using normal⟩, bytes, found, same, rfl⟩
  · rw [if_pos pass]
    constructor
    · intro same
      exact Or.inl ⟨pass, (Except.ok.inj same).symm⟩
    · rintro (⟨_, rfl⟩ | ⟨other, _⟩)
      · rfl
      · exact absurd other pass

omit [Hashing] in
/-- All entries are verified one by one. -/
theorem mapM_eq_ok {α β ε : Type} {step : α → Except ε β} {items : List α} {results : List β} :
    items.mapM step = .ok results ↔
      List.Forall₂ (fun item result => step item = .ok result) items results := by
  induction items generalizing results with
  | nil =>
    rw [List.mapM_nil, pure_eq_ok, List.forall₂_nil_left_iff]
    exact eq_comm
  | cons item rest ih =>
    rw [List.mapM_cons]
    simp only [bind_eq_ok, pure_eq_ok, ih, List.forall₂_cons_left_iff]
    constructor
    · rintro ⟨first, made, others, more, rfl⟩
      exact ⟨first, others, made, more, rfl⟩
    · rintro ⟨first, others, made, more, rfl⟩
      exact ⟨first, made, others, more, rfl⟩

omit [Hashing] in
theorem isMeasuredPass_iff {entry : GateEntry} :
    entry.isMeasuredPass = true ↔ entry.status = .pass ∧ entry.evidenceVerified = true ∧
      meetsGateCriterion entry.id entry.measuredValue = true := by
  rw [GateEntry.isMeasuredPass, Bool.and_eq_true, Bool.and_eq_true, beq_iff_eq, and_assoc]

/-- A report is verified to be ready exactly if all its entries are passes with evidence that
meet their criteria. -/
theorem verified_launchReady {report : GateReport} :
    (∃ verified, report.verifyEvidenceFiles read = .ok verified ∧ verified.launchReady = true) ↔
      report.entries.length = requiredLaunchGates.length ∧ ∀ entry ∈ report.entries,
        entry.status = .pass ∧ Evidenced read entry.evidence ∧
          meetsGateCriterion entry.id entry.measuredValue = true := by
  have opened : ∀ verified, report.verifyEvidenceFiles read = .ok verified ↔
      List.Forall₂ (fun entry result => verifyEntry read entry = .ok result) report.entries
        verified.entries := by
    intro verified
    unfold GateReport.verifyEvidenceFiles
    simp only [bind_eq_ok, pure_eq_ok, mapM_eq_ok]
    constructor
    · rintro ⟨_, each, rfl⟩
      exact each
    · intro each
      exact ⟨_, each, rfl⟩
  simp only [opened, GateReport.launchReady, Bool.and_eq_true, beq_iff_eq, List.all_eq_true]
  constructor
  · rintro ⟨verified, each, count, ready⟩
    refine ⟨each.length_eq.trans count, fun entry member => ?_⟩
    obtain ⟨index, inside, rfl⟩ := List.getElem_of_mem member
    have inside' : index < verified.entries.length := each.length_eq ▸ inside
    have measured := isMeasuredPass_iff.mp (ready _ (List.getElem_mem inside'))
    rcases verifyEntry_eq_ok.mp (each.get inside inside') with ⟨other, same⟩ | ⟨pass, borne, same⟩
    · rw [List.get_eq_getElem, List.get_eq_getElem] at same
      rw [same] at measured
      exact absurd measured.1 other
    · rw [List.get_eq_getElem, List.get_eq_getElem] at same
      rw [same] at measured
      exact ⟨pass, borne, measured.2.2⟩
  · rintro ⟨count, ready⟩
    refine ⟨⟨report.entries.map fun entry => { entry with evidenceVerified := true }⟩, ?_, ?_, ?_⟩
    · rw [List.forall₂_map_right_iff, List.forall₂_same]
      intro entry member
      obtain ⟨pass, borne, _⟩ := ready entry member
      exact verifyEntry_eq_ok.mpr (Or.inr ⟨pass, borne, rfl⟩)
    · rw [List.length_map, count]
    · intro result member
      obtain ⟨entry, listed, rfl⟩ := List.mem_map.mp member
      obtain ⟨pass, _, meets⟩ := ready entry listed
      exact isMeasuredPass_iff.mpr ⟨pass, rfl, meets⟩

end Evidence

end Usdd.Core

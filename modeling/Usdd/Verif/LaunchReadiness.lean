import Usdd.Core.GateLaws
/-!
# What makes a release ready

The gate report is ready only after two passes over a table that anyone can edit: one that parses
it and fills in what is missing, and one that compares evidence with files. Together they accept
exactly the complete tables, whatever the order of the rows and the comments between them.
-/
namespace Usdd.Verif

open Usdd.Foundation Usdd.Core

variable [Hashing]

/-- The report of a text, with its evidence verified against the files, is ready. -/
def ReadyAfterVerification (read : List Char → Except String (List UInt8)) (text : List Char) :
    Prop :=
  ∃ report verified, GateReport.parseTsv text = .ok report ∧
    report.verifyEvidenceFiles read = .ok verified ∧ verified.launchReady = true

/-- A row that passes a gate: its value meets the criterion, and a file bears out its evidence. -/
def PassesGate (read : List Char → Except String (List UInt8)) (gate row : List Char) : Prop :=
  ∃ value evidence, row.splitOn '\t' = [gate, "PASS".toList, value, evidence] ∧
    meetsGateCriterion gate value = true ∧ Evidenced read evidence

/-- A complete table: the exact header, well-formed rows, no gate twice, and for each required
gate a row that passes it. -/
structure CompleteTable (read : List Char → Except String (List UInt8)) (text : List Char) :
    Prop where
  header : (lines text).head? = some gateHeader
  rows : ∀ row ∈ gateRows text, WellFormedRow row
  distinct : ((gateRows text).map gateOf).Nodup
  passes : ∀ gate ∈ requiredLaunchGates, ∃ row ∈ gateRows text, PassesGate read gate row

/-- Launch readiness of a text: it takes a complete table, and parsing alone never gives it. -/
structure LaunchGated (read : List Char → Except String (List UInt8)) (text : List Char) :
    Prop where
  exact : ReadyAfterVerification read text ↔ CompleteTable read text
  parsed : ∀ report, GateReport.parseTsv text = .ok report → report.launchReady = false

/-- The entry reported for a gate is a borne-out pass exactly if some row passes the gate. -/
theorem entryFor_passes {read : List Char → Except String (List UInt8)} {text gate : List Char}
    (accepted : AcceptedTable text) :
    let entry := entryFor ((gateRows text).map entryOf) gate
    (entry.status = .pass ∧ Evidenced read entry.evidence ∧
        meetsGateCriterion entry.id entry.measuredValue = true) ↔
      ∃ row ∈ gateRows text, PassesGate read gate row := by
  intro entry
  constructor
  · rintro ⟨pass, borne, meets⟩
    obtain ⟨shape, row, member, columns⟩ := accepted.entryFor_pass.mp ⟨rfl, pass⟩
    have named : entry.id = gate := congrArg GateEntry.id shape
    rw [named] at meets
    exact ⟨row, member, _, _, columns, meets, borne⟩
  · rintro ⟨row, member, value, evidence, columns, meets, borne⟩
    have found : entry = ⟨gate, .pass, value, evidence, false⟩ :=
      (accepted.entryFor_pass.mpr ⟨rfl, row, member, columns⟩).1
    rw [found]
    exact ⟨rfl, borne, meets⟩

omit [Hashing] in
/-- No entry of a parsed report has been verified. -/
theorem parsed_unverified {text : List Char} {report : GateReport}
    (parsed : GateReport.parseTsv text = .ok report) {entry : GateEntry}
    (member : entry ∈ report.entries) : entry.isMeasuredPass = false := by
  obtain ⟨accepted, rfl⟩ := parseTsv_eq_ok.mp parsed
  obtain ⟨gate, _, rfl⟩ := List.mem_map.mp member
  by_contra measured
  obtain ⟨pass, verified, _⟩ := isMeasuredPass_iff.mp (by simpa using measured)
  obtain ⟨shape, _⟩ := accepted.entryFor_pass.mp ⟨rfl, pass⟩
  rw [shape] at verified
  cases verified

/-- A release is ready exactly if its table is complete and its evidence is borne out by the
files, and a table that is only parsed is never ready. -/
theorem launch_gated (read : List Char → Except String (List UInt8)) (text : List Char) :
    LaunchGated read text := by
  constructor
  · unfold ReadyAfterVerification
    constructor
    · rintro ⟨report, verified, parsed, checked, ready⟩
      obtain ⟨accepted, rfl⟩ := parseTsv_eq_ok.mp parsed
      obtain ⟨_, all⟩ := verified_launchReady.mp ⟨verified, checked, ready⟩
      refine ⟨accepted.header, accepted.rows, accepted.distinct, fun gate required => ?_⟩
      exact (entryFor_passes accepted).mp (all _ (List.mem_map_of_mem required))
    · intro complete
      have accepted : AcceptedTable text := ⟨complete.header, complete.rows, complete.distinct⟩
      let report : GateReport := ⟨requiredLaunchGates.map (entryFor ((gateRows text).map entryOf))⟩
      have parsed : GateReport.parseTsv text = .ok report := parseTsv_eq_ok.mpr ⟨accepted, rfl⟩
      have all : ∀ entry ∈ report.entries, entry.status = .pass ∧
          Evidenced read entry.evidence ∧
          meetsGateCriterion entry.id entry.measuredValue = true := by
        intro entry member
        obtain ⟨gate, required, rfl⟩ := List.mem_map.mp member
        exact (entryFor_passes accepted).mpr (complete.passes gate required)
      have count : report.entries.length = requiredLaunchGates.length := List.length_map _
      obtain ⟨verified, checked, ready⟩ := verified_launchReady.mpr ⟨count, all⟩
      exact ⟨report, verified, parsed, checked, ready⟩
  · intro report parsed
    obtain ⟨_, shape⟩ := parseTsv_eq_ok.mp parsed
    have member : entryFor ((gateRows text).map entryOf) "evm-gas".toList ∈ report.entries := by
      rw [shape]
      exact List.mem_map_of_mem (by decide)
    have unmeasured := parsed_unverified parsed member
    rw [GateReport.launchReady, Bool.and_eq_false_iff, List.all_eq_false]
    exact Or.inr ⟨_, member, ne_true_of_eq_false unmeasured⟩

section Sample

/-- A value that meets the criterion of a gate. -/
def sampleValue (gate : List Char) : List Char :=
  ["12".toList, "3/3".toList, "+0100000".toList, "complete".toList].find?
    (meetsGateCriterion gate) |>.getD []

/-- A table with comments, a blank line, carriage returns, and the gates in another order. -/
def sampleTable : List Char :=
  gateHeader ++ "\r\n# measured\n \n".toList ++
    requiredLaunchGates.reverse.flatMap fun gate =>
      gate ++ "\tPASS\t".toList ++ sampleValue gate ++
        "\tsha256:4BF5122F344554C53BDE2EBB8CD2B7E3D1600AD631C385A5D7CCE23C7785459A@runs/1\n".toList

example : letI := sha256Hashing
    (do
      let report ← GateReport.parseTsv sampleTable
      let verified ← report.verifyEvidenceFiles fun _ => .ok [1]
      return verified.launchReady : Except GateError Bool) = .ok true := by
  decide +kernel

end Sample

end Usdd.Verif

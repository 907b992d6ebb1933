import Usdd.Cli.Commands
import Usdd.Verif.AuditExactness
/-!
# Replaying a table of chain events

The command reads a table of events of four kinds in any order and passes exactly where the events
of each kind, in the order of their rows, form a consistent history. What it prints then is the
exact report.
-/
namespace Usdd.Verif

open Usdd.Foundation Usdd.Core Usdd.Cli

/-- What a row of the table says. -/
inductive AuditEvent where
  | deposit (deposit : AuditedDeposit)
  | mint (mint : AuditedMint)
  | burn (burn : AuditedBurn)
  | payout (payout : AuditedPayout)
deriving DecidableEq

namespace AuditEvent

/-- The deposits among events, in their order. -/
def deposits (events : List AuditEvent) : List AuditedDeposit :=
  events.filterMap fun
    | .deposit value => some value
    | _ => none

/-- The mints among events, in their order. -/
def mints (events : List AuditEvent) : List AuditedMint :=
  events.filterMap fun
    | .mint value => some value
    | _ => none

/-- The burns among events, in their order. -/
def burns (events : List AuditEvent) : List AuditedBurn :=
  events.filterMap fun
    | .burn value => some value
    | _ => none

/-- The payouts among events, in their order. -/
def payouts (events : List AuditEvent) : List AuditedPayout :=
  events.filterMap fun
    | .payout value => some value
    | _ => none

/-- The lists that events fill. -/
def sorted (events : List AuditEvent) : AuditEvents where
  deposits := deposits events
  mints := mints events
  burns := burns events
  payouts := payouts events

end AuditEvent

/-- The columns of a row for an event. Deposits and mints have no recipient, and payouts no index. -/
inductive Columns : List (List Char) → AuditEvent → Prop
  | deposit {index id amount : List Char} {deposit : AuditedDeposit} :
    parseU64 index = some deposit.nonce → Spells id deposit.depositId.bytes →
    parseU64 amount = some deposit.amountUsdtMicro →
    Columns ["deposit".toList, index, id, amount, ['-']] (.deposit deposit)
  | mint {index id amount : List Char} {mint : AuditedMint} :
    parseU64 index = some mint.nonce → Spells id mint.depositId.bytes →
    parseU64 amount = some mint.amountUsddBase →
    Columns ["mint".toList, index, id, amount, ['-']] (.mint mint)
  | burn {index id amount recipient : List Char} {burn : AuditedBurn} :
    parseU64 index = some burn.burnIndex → Spells id burn.burnId.bytes →
    parseU64 amount = some burn.amountUsddBase → Spells recipient burn.recipient.bytes →
    Columns ["burn".toList, index, id, amount, recipient] (.burn burn)
  | payout {id amount recipient : List Char} {payout : AuditedPayout} :
    Spells id payout.burnId.bytes → parseU64 amount = some payout.amountUsdtMicro →
    Spells recipient payout.recipient.bytes →
    Columns ["payout".toList, ['-'], id, amount, recipient] (.payout payout)

/-- A row of the table. -/
def Row (line : List Char) (event : AuditEvent) : Prop := Columns (line.splitOn '\t') event

/-- A table of events: a header, and a row for each event among lines that are passed over. -/
def EventTable (contents : List Char) (events : List AuditEvent) : Prop :=
  ∃ rows, lines contents = auditHeader :: rows ∧
    List.Forall₂ Row (rows.filter fun line => !skipsLine line) events

section Parsing

/-- The lists with another event at their end. -/
def record (events : AuditEvents) : AuditEvent → AuditEvents
  | .deposit deposit => { events with deposits := events.deposits ++ [deposit] }
  | .mint mint => { events with mints := events.mints ++ [mint] }
  | .burn burn => { events with burns := events.burns ++ [burn] }
  | .payout payout => { events with payouts := events.payouts ++ [payout] }

theorem readU64_eq_ok {value : List Char} {name : String} {word : UInt64} :
    readU64 value name = .ok word ↔ parseU64 value = some word := okOr_eq_ok _ _ _

theorem hashFromStr_eq_ok {text : List Char} {hash : Hash32} :
    hashFromStr text = .ok hash ↔ Spells text hash.bytes := fixedFromStr_eq_ok

theorem addressFromStr_eq_ok {text : List Char} {address : EthAddress} :
    addressFromStr text = .ok address ↔ Spells text address.bytes := fixedFromStr_eq_ok

/-- A line is passed over or adds the event of its row. -/
theorem parseEvent_eq_ok {offset : Nat} {events next : AuditEvents} {line : List Char} :
    parseEvent offset events line = .ok next ↔
      skipsLine line = true ∧ next = events ∨
        skipsLine line = false ∧ ∃ event, Row line event ∧ next = record events event := by
  unfold parseEvent Row
  cases skipped : skipsLine line with
  | true => simp [eq_comm]
  | false =>
    simp only [Bool.false_eq_true, ↓reduceIte, false_and, true_and, false_or]
    split
    · rename_i kind index id amount recipient columns
      rw [columns]
      simp only [bind_eq_ok, mapError_eq_ok, hashFromStr_eq_ok, readU64_eq_ok]
      constructor
      · rintro ⟨hash, idSpelt, word, amountRead, told⟩
        split_ifs at told with deposit mint burn payout
        · simp only [↓then_eq_ok, bind_eq_ok, rejectIf_eq_ok, ne_eq, not_not, readU64_eq_ok,
            pure_eq_ok] at told
          obtain ⟨dash, nonce, indexRead, rfl⟩ := told
          rw [deposit, dash]
          exact ⟨.deposit ⟨nonce, hash, word⟩, .deposit indexRead idSpelt amountRead, rfl⟩
        · simp only [↓then_eq_ok, bind_eq_ok, rejectIf_eq_ok, ne_eq, not_not, readU64_eq_ok,
            pure_eq_ok] at told
          obtain ⟨dash, nonce, indexRead, rfl⟩ := told
          rw [mint, dash]
          exact ⟨.mint ⟨nonce, hash, word⟩, .mint indexRead idSpelt amountRead, rfl⟩
        · simp only [bind_eq_ok, mapError_eq_ok, readU64_eq_ok, addressFromStr_eq_ok,
            pure_eq_ok] at told
          obtain ⟨burnIndex, indexRead, address, recipientSpelt, rfl⟩ := told
          rw [burn]
          exact ⟨.burn ⟨burnIndex, hash, word, address⟩,
            .burn indexRead idSpelt amountRead recipientSpelt, rfl⟩
        · simp only [↓then_eq_ok, bind_eq_ok, rejectIf_eq_ok, mapError_eq_ok, ne_eq, not_not,
            addressFromStr_eq_ok, pure_eq_ok] at told
          obtain ⟨dash, address, recipientSpelt, rfl⟩ := told
          rw [payout, dash]
          exact ⟨.payout ⟨hash, word, address⟩, .payout idSpelt amountRead recipientSpelt, rfl⟩
      · rintro ⟨event, stands, rfl⟩
        cases stands with
        | deposit indexRead idSpelt amountRead =>
          refine ⟨_, idSpelt, _, amountRead, ?_⟩
          rw [if_pos rfl]
          simp only [↓then_eq_ok, bind_eq_ok, rejectIf_eq_ok, ne_eq, not_not, readU64_eq_ok,
            pure_eq_ok]
          exact ⟨trivial, _, indexRead, rfl⟩
        | mint indexRead idSpelt amountRead =>
          refine ⟨_, idSpelt, _, amountRead, ?_⟩
          rw [if_neg (by decide), if_pos rfl]
          simp only [↓then_eq_ok, bind_eq_ok, rejectIf_eq_ok, ne_eq, not_not, readU64_eq_ok,
            pure_eq_ok]
          exact ⟨trivial, _, indexRead, rfl⟩
        | burn indexRead idSpelt amountRead recipientSpelt =>
          refine ⟨_, idSpelt, _, amountRead, ?_⟩
          rw [if_neg (by decide), if_neg (by decide), if_pos rfl]
          simp only [bind_eq_ok, mapError_eq_ok, readU64_eq_ok, addressFromStr_eq_ok, pure_eq_ok]
          exact ⟨_, indexRead, _, recipientSpelt, rfl⟩
        | payout idSpelt amountRead recipientSpelt =>
          refine ⟨_, idSpelt, _, amountRead, ?_⟩
          rw [if_neg (by decide), if_neg (by decide), if_neg (by decide), if_pos rfl]
          simp only [↓then_eq_ok, bind_eq_ok, rejectIf_eq_ok, mapError_eq_ok, ne_eq, not_not,
            addressFromStr_eq_ok, pure_eq_ok]
          exact ⟨trivial, _, recipientSpelt, rfl⟩
    · rename_i other
      constructor
      · intro wrong
        cases wrong
      · rintro ⟨event, stands, rfl⟩
        generalize line.splitOn '\t' = columns at other stands
        cases stands <;> exact absurd rfl (other _ _ _ _ _)

/-- The loop adds the events of the rows that it does not pass over. -/
theorem parseEvents_eq_ok {offset : Nat} {events final : AuditEvents} {rows : List (List Char)} :
    foldIndexed parseEvent offset events rows = .ok final ↔
      ∃ told, List.Forall₂ Row (rows.filter fun line => !skipsLine line) told ∧
        final = told.foldl record events := by
  induction rows generalizing offset events with
  | nil =>
    simp only [foldIndexed, List.filter_nil, List.forall₂_nil_left_iff, exists_eq_left,
      List.foldl_nil, Except.ok.injEq]
    exact eq_comm
  | cons line rest ih =>
    simp only [foldIndexed, bind_eq_ok, parseEvent_eq_ok, ih]
    cases skipped : skipsLine line with
    | true =>
      rw [List.filter_cons_of_neg (by simp [skipped])]
      simp
    | false =>
      rw [List.filter_cons_of_pos (by simp [skipped])]
      simp only [Bool.false_eq_true, false_and, true_and, false_or,
        List.forall₂_cons_left_iff]
      constructor
      · rintro ⟨_, ⟨event, row, rfl⟩, told, others, rfl⟩
        exact ⟨event :: told, ⟨event, told, row, others, rfl⟩, rfl⟩
      · rintro ⟨_, ⟨event, told, row, others, rfl⟩, rfl⟩
        exact ⟨_, ⟨event, row, rfl⟩, told, others, rfl⟩

/-- Events that are added one by one are sorted by kind. -/
theorem foldl_record (told : List AuditEvent) (events : AuditEvents) :
    told.foldl record events =
      ⟨events.deposits ++ AuditEvent.deposits told, events.mints ++ AuditEvent.mints told,
        events.burns ++ AuditEvent.burns told, events.payouts ++ AuditEvent.payouts told⟩ := by
  induction told generalizing events with
  | nil => simp [AuditEvent.deposits, AuditEvent.mints, AuditEvent.burns, AuditEvent.payouts]
  | cons event told ih =>
    rw [List.foldl_cons, ih]
    cases event <;>
      simp [record, AuditEvent.deposits, AuditEvent.mints, AuditEvent.burns, AuditEvent.payouts]

/-- A text parses exactly as a table of events, into the lists of its events. -/
theorem parseAuditEvents_eq_ok {contents : List Char} {events : AuditEvents} :
    parseAuditEvents contents = .ok events ↔
      ∃ told, EventTable contents told ∧ events = AuditEvent.sorted told := by
  have sorts : ∀ told, List.foldl record ⟨[], [], [], []⟩ told = AuditEvent.sorted told := by
    intro told
    rw [foldl_record]
    rfl
  unfold parseAuditEvents EventTable
  cases read : lines contents with
  | nil =>
    constructor
    · intro wrong
      cases wrong
    · rintro ⟨told, ⟨rows, wrong, _⟩, _⟩
      cases wrong
  | cons header rest =>
    simp only [↓then_eq_ok, rejectIf_eq_ok, ne_eq, not_not, parseEvents_eq_ok, sorts,
      List.cons.injEq]
    constructor
    · rintro ⟨rfl, told, rows, rfl⟩
      exact ⟨told, ⟨rest, ⟨rfl, rfl⟩, rows⟩, rfl⟩
    · rintro ⟨told, ⟨_, ⟨rfl, rfl⟩, rows⟩, rfl⟩
      exact ⟨rfl, told, rows, rfl⟩

end Parsing

/-- The sums of the lists determine the snapshot. -/
theorem snapshot_unique {left right : AuditSnapshot} {actual recorded : UInt64}
    {deposits : List AuditedDeposit} {mints : List AuditedMint} {burns : List AuditedBurn}
    {payouts : List AuditedPayout} (leftSums : left.Of actual recorded deposits mints burns payouts)
    (rightSums : right.Of actual recorded deposits mints burns payouts) : left = right := by
  have deposited := UInt64.toNat_inj.mp (leftSums.deposited.trans rightSums.deposited.symm)
  have paid := UInt64.toNat_inj.mp (leftSums.paid.trans rightSums.paid.symm)
  have minted := UInt64.toNat_inj.mp (leftSums.minted.trans rightSums.minted.symm)
  have burned := UInt64.toNat_inj.mp (leftSums.burned.trans rightSums.burned.symm)
  have unminted : left.depositsUnmintedUsdtMicro = right.depositsUnmintedUsdtMicro := by
    have first := leftSums.unminted
    have second := rightSums.unminted
    rw [minted, deposited] at first
    apply UInt64.toNat_inj.mp
    omega
  have unpaid : left.burnsUnpaidUsdtMicro = right.burnsUnpaidUsdtMicro := by
    have first := leftSums.unpaid
    have second := rightSums.unpaid
    rw [paid, burned] at first
    apply UInt64.toNat_inj.mp
    omega
  have actualSame := leftSums.actual_eq.trans rightSums.actual_eq.symm
  have recordedSame := leftSums.recorded_eq.trans rightSums.recorded_eq.symm
  cases left
  cases right
  exact (AuditSnapshot.mk.injEq ..).mpr
    ⟨actualSame, recordedSame, deposited, paid, minted, burned, unminted, unpaid⟩

/-- The words and events that a replay is of. -/
structure Replays (read : List Char → Except String (List Char))
    (actual recorded path : List Char) (actualWord recordedWord : UInt64)
    (told : List AuditEvent) : Prop where
  actualRead : parseU64 actual = some actualWord
  recordedRead : parseU64 recorded = some recordedWord
  table : ∃ contents, read path = .ok contents ∧ EventTable contents told
  consistent : ConsistentHistory actualWord recordedWord (AuditEvent.deposits told)
    (AuditEvent.mints told) (AuditEvent.burns told) (AuditEvent.payouts told)

/-- A replay passes exactly on a table of events that are consistent by kind, however the kinds
are mixed, and it prints the report on their exact sums. -/
theorem audit_replay_exact (read : List Char → Except String (List Char))
    (actual recorded path output : List Char) :
    auditReplay read actual recorded path = .ok output ↔
      ∃ actualWord recordedWord told,
        Replays read actual recorded path actualWord recordedWord told ∧
        ∃ snapshot : AuditSnapshot,
          snapshot.Of actualWord recordedWord (AuditEvent.deposits told) (AuditEvent.mints told)
            (AuditEvent.burns told) (AuditEvent.payouts told) ∧
          output = replayText (AuditEvent.sorted told) snapshot snapshot.exactReport := by
  simp only [auditReplay, bind_eq_ok, readU64_eq_ok, mapError_eq_ok, parseAuditEvents_eq_ok,
    pure_eq_ok]
  constructor
  · rintro ⟨actualWord, actualRead, recordedWord, recordedRead, contents, found, _,
      ⟨told, table, rfl⟩, ⟨snapshot, report⟩, audited, rfl⟩
    have history := ConsistentHistory.of_audited audited
    obtain ⟨exact, totals, outcome⟩ := history.audited
    have same : (snapshot, report) = (exact, exact.exactReport) :=
      Except.ok.inj (audited.symm.trans outcome)
    obtain ⟨rfl, rfl⟩ := Prod.mk.inj same
    exact ⟨actualWord, recordedWord, told,
      ⟨actualRead, recordedRead, ⟨contents, found, table⟩, history⟩, snapshot, totals, rfl⟩
  · rintro ⟨actualWord, recordedWord, told, replays, snapshot, totals, rfl⟩
    obtain ⟨contents, found, table⟩ := replays.table
    obtain ⟨exact, totals', outcome⟩ := replays.consistent.audited
    have same : snapshot = exact := snapshot_unique totals totals'
    rw [same]
    exact ⟨actualWord, replays.actualRead, recordedWord, replays.recordedRead, contents, found, _,
      ⟨told, table, rfl⟩, _, outcome, rfl⟩

/-- A deposit that is minted, and a part of it that is burned and paid. -/
def sampleEvents : List Char :=
  auditHeader ++ "\n# a comment\n".toList ++
    "deposit\t0\t".toList ++ List.replicate 64 '1' ++ "\t10\t-\n".toList ++
    "burn\t0\t".toList ++ List.replicate 64 '2' ++ "\t400\t".toList ++ List.replicate 40 '5' ++
    "\nmint\t0\t".toList ++ List.replicate 64 '1' ++ "\t1000\t-\n".toList ++
    "payout\t-\t".toList ++ List.replicate 64 '2' ++ "\t4\t".toList ++ List.replicate 40 '5'

example : (auditReplay (fun _ => .ok sampleEvents) ['7'] ['6'] []).map (fun text => text.take 4) =
    .ok "PASS".toList := by decide +kernel

end Usdd.Verif

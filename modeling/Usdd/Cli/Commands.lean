import Usdd.Core.Audit
import Usdd.Core.HashText
import Usdd.Core.Manifest
import Usdd.Core.Merkle
import Usdd.Core.MintBatch
import Usdd.Core.BurnAccumulator
/-!
# The command line

The commands of `usdd-cli` that compute: each takes the words that follow its name and gives the
text it prints or the reason it stops. Records and hashes are read as text, tables of chain events
line by line, and files are a function of their path.
-/
namespace Usdd.Cli

open Usdd.Foundation Usdd.Core

/-- The messages of `run_str` and its helpers, by their template. -/
inductive CliError where
  | invalidNumber (name : String)
  | invalidHex (name : String) (error : HexError)
  | invalidCanonical (name : String) (error : DecodeError)
  | invalidHash (name : String) (error : HexError)
  | amountOverflows
  | notDivisible
  | invalidMintBatch (error : DecodeError)
  | hex (error : HexError)
  | decode (error : DecodeError)
  | accumulator (error : BurnAccumulatorError)
  | manifest (error : ManifestError)
  | invalidMerkleIndex
  | merkle (error : MerkleError)
  | audit (error : AuditError)
  | cannotRead (path : List Char) (error : String)
  | invalidAuditHeader
  | wrongColumns (line : Nat)
  | invalidId (line : Nat) (error : HexError)
  | depositRecipient (line : Nat)
  | mintRecipient (line : Nat)
  | payoutIndex (line : Nat)
  | invalidRecipient (line : Nat) (error : HexError)
  | unknownKind (line : Nat) (kind : List Char)
deriving DecidableEq

/-- A number as it is printed. -/
def decimal (number : Nat) : List Char := Nat.toDigits 10 number

/-- `parse_u64`. -/
def readU64 (value : List Char) (name : String) : Except CliError UInt64 :=
  okOr (parseU64 value) (.invalidNumber name)

/-- `decode_record`. -/
def decodeRecord (α : Type) [CanonicalDecode α] (encoded : List Char) (name : String) :
    Except CliError α := do
  let bytes ← (decodeHex encoded).mapError (.invalidHex name)
  (decodeExact α bytes).mapError (.invalidCanonical name)

/-- `parse_hashes`. -/
def parseHashes (values : List (List Char)) (name : String) : Except CliError (List Hash32) :=
  values.mapM fun value => (hashFromStr value).mapError (.invalidHash name)

section Amounts

/-- `amount usdt-to-usdd`. -/
def amountUsdtToUsdd (amount : List Char) : Except CliError (List Char) := do
  let amount ← readU64 amount "micro-USDT amount"
  let converted ← okOr (usdtMicroToUsddBase amount) .amountOverflows
  return decimal converted.toNat

/-- `amount usdd-to-usdt`. -/
def amountUsddToUsdt (amount : List Char) : Except CliError (List Char) := do
  let amount ← readU64 amount "USDD base amount"
  let converted ← okOr (usddBaseToUsdtMicro amount) .notDivisible
  return decimal converted.toNat

end Amounts

section Records

variable [Hashing]

/-- `parse_leaves`. -/
def parseLeaves (values : List (List Char)) : Except CliError (List Hash32) :=
  values.mapM fun value => do
    let bytes ← (decodeHex value).mapError .hex
    return merkleLeaf bytes

/-- `deposit id` and `id deposit`. -/
def depositId (encoded : List Char) : Except CliError (List Char) := do
  let deposit ← decodeRecord VaultDeposit encoded "deposit"
  return hashToHex deposit.depositId

/-- `mint batch`, with at least one deposit. -/
def mintBatch (deposits : List (List Char)) : Except CliError (List Char) := do
  let deposits ← deposits.mapM fun encoded => decodeRecord VaultDeposit encoded "deposit"
  let batch ← (MintBatch.fromDeposits deposits).mapError .invalidMintBatch
  return encodeHex (encode batch)

/-- `burn payload`. -/
def burnPayload (encoded : List Char) : Except CliError (List Char) := do
  let burn ← decodeRecord Burn encoded "burn"
  return encodeHex (encode burn.burnPayload)

/-- `burn id` and `id redemption`. -/
def burnId (elementsGenesis encoded : List Char) : Except CliError (List Char) := do
  let elementsGenesis ← (hashFromStr elementsGenesis).mapError (.invalidHash "Elements genesis")
  let burn ← decodeRecord Burn encoded "burn"
  return hashToHex (burn.redemptionId elementsGenesis)

/-- `redeem claim`. -/
def redeemClaim (elementsGenesis encoded burnIndex : List Char) : Except CliError (List Char) := do
  let elementsGenesis ← (hashFromStr elementsGenesis).mapError (.invalidHash "Elements genesis")
  let burn ← decodeRecord Burn encoded "burn"
  let burnIndex ← readU64 burnIndex "burn index"
  let claim := burn.solidityClaim elementsGenesis
  let leaf ← (claim.burnLeaf burnIndex).mapError .decode
  return "claim=".toList ++ encodeHex (encode claim) ++ "\nburn_id=".toList ++
    hashToHex claim.burnId ++ "\nburn_leaf=".toList ++ hashToHex leaf

/-- `manifest hash`. -/
def manifestHash (encoded : List Char) : Except CliError (List Char) := do
  let manifest ← decodeRecord ProtocolManifest encoded "manifest"
  let id ← manifest.manifestId.mapError .manifest
  return hashToHex id

end Records

section Trees

variable [Hashing]

/-- The lines with a root and a proof that `prove` prints. -/
def provedText (root : Hash32) (proof : List UInt8) : List Char :=
  "root=".toList ++ hashToHex root ++ "\nproof=".toList ++ encodeHex proof

/-- The answer of `verify`. -/
def verdict (valid : Bool) : List Char := if valid then "VALID".toList else "INVALID".toList

/-- `burn-tree root`. -/
def burnTreeRoot (leaves : List (List Char)) : Except CliError (List Char) := do
  let leaves ← parseHashes leaves "burn leaf"
  let tree ← (BurnAccumulator.fromLeaves leaves).mapError .accumulator
  return hashToHex tree.root

/-- `burn-tree prove`, with at least one leaf. -/
def burnTreeProve (index : List Char) (leaves : List (List Char)) :
    Except CliError (List Char) := do
  let index ← readU64 index "burn index"
  let leaves ← parseHashes leaves "burn leaf"
  let tree ← (BurnAccumulator.fromLeaves leaves).mapError .accumulator
  let proof ← (tree.proof index).mapError .accumulator
  return provedText tree.root (encode proof)

/-- `burn-tree verify`. -/
def burnTreeVerify (root leaf index proof : List Char) : Except CliError (List Char) := do
  let root ← (hashFromStr root).mapError .hex
  let leaf ← (hashFromStr leaf).mapError .hex
  let index ← readU64 index "burn index"
  let proof ← decodeRecord BurnProof proof "64-sibling burn proof"
  return verdict (proof.verify root leaf index)

/-- `merkle root`, with at least one leaf. -/
def merkleTreeRoot (leaves : List (List Char)) : Except CliError (List Char) := do
  let leaves ← parseLeaves leaves
  return hashToHex (merkleRoot leaves)

/-- `merkle prove`, with at least one leaf. An index has 64 bits. -/
def merkleProve (index : List Char) (leaves : List (List Char)) : Except CliError (List Char) := do
  let index ← okOr (parseU64 index) .invalidMerkleIndex
  let leaves ← parseLeaves leaves
  let root := merkleRoot leaves
  let proof ← (merkleProof leaves index.toNat).mapError .merkle
  return provedText root (encode proof)

/-- `merkle verify`. -/
def merkleVerify (root leafData proof : List Char) : Except CliError (List Char) := do
  let root ← (hashFromStr root).mapError .hex
  let leafData ← (decodeHex leafData).mapError .hex
  let proofBytes ← (decodeHex proof).mapError .hex
  let proof ← (decodeExact MerkleProof proofBytes).mapError .decode
  let valid ← (proof.verify (merkleLeaf leafData) root).mapError .merkle
  return verdict valid

end Trees

section Audit

/-- The lines of a report that `audit check` and `audit replay` both print. -/
def reportText (report : AuditReport) : List Char :=
  "\nexpected_backing_usdt_micro=".toList ++ decimal report.expectedBackingUsdtMicro ++
    "\nphysical_surplus_usdt_micro=".toList ++ decimal report.physicalSurplusUsdtMicro ++
    "\ncirculating_usdd_base=".toList ++ decimal report.circulatingUsddBase

/-- `audit check`. -/
def auditCheck (actual recorded deposited paid minted burned unminted unpaid : List Char) :
    Except CliError (List Char) := do
  let actualVaultUsdtMicro ← readU64 actual "actual vault balance"
  let recordedBackingUsdtMicro ← readU64 recorded "recorded backing"
  let totalDepositedUsdtMicro ← readU64 deposited "total deposits"
  let totalPaidUsdtMicro ← readU64 paid "total paid"
  let totalMintedUsddBase ← readU64 minted "total minted"
  let totalBurnedUsddBase ← readU64 burned "total burned"
  let depositsUnmintedUsdtMicro ← readU64 unminted "unminted deposits"
  let burnsUnpaidUsdtMicro ← readU64 unpaid "unpaid burns"
  let snapshot : AuditSnapshot := {
    actualVaultUsdtMicro, recordedBackingUsdtMicro, totalDepositedUsdtMicro, totalPaidUsdtMicro,
    totalMintedUsddBase, totalBurnedUsddBase, depositsUnmintedUsdtMicro, burnsUnpaidUsdtMicro }
  let report ← snapshot.verify.mapError .audit
  return "PASS".toList ++ reportText report

/-- `AuditEvents`. -/
structure AuditEvents where
  deposits : List AuditedDeposit
  mints : List AuditedMint
  burns : List AuditedBurn
  payouts : List AuditedPayout
deriving DecidableEq

/-- The header of a table of events. -/
def auditHeader : List Char := "kind\tindex\tid\tamount\trecipient".toList

/-- The lines `parse_audit_events` passes over. -/
def skipsLine (line : List Char) : Bool := line.isEmpty || line.head? == some '#'

/-- The body of the loop of `parse_audit_events`. -/
def parseEvent (offset : Nat) (events : AuditEvents) (line : List Char) :
    Except CliError AuditEvents :=
  let lineNumber := offset + 2
  if skipsLine line then .ok events
  else
    match line.splitOn '\t' with
    | [kind, index, id, amount, recipient] => do
      let id ← (hashFromStr id).mapError (.invalidId lineNumber)
      let amount ← readU64 amount "audit amount"
      if kind = "deposit".toList then
        rejectIf (recipient ≠ ['-']) (.depositRecipient lineNumber)
        let nonce ← readU64 index "deposit nonce"
        return { events with deposits := events.deposits ++ [⟨nonce, id, amount⟩] }
      else if kind = "mint".toList then
        rejectIf (recipient ≠ ['-']) (.mintRecipient lineNumber)
        let nonce ← readU64 index "mint nonce"
        return { events with mints := events.mints ++ [⟨nonce, id, amount⟩] }
      else if kind = "burn".toList then
        let burnIndex ← readU64 index "burn index"
        let recipient ← (addressFromStr recipient).mapError (.invalidRecipient lineNumber)
        return { events with burns := events.burns ++ [⟨burnIndex, id, amount, recipient⟩] }
      else if kind = "payout".toList then
        rejectIf (index ≠ ['-']) (.payoutIndex lineNumber)
        let recipient ← (addressFromStr recipient).mapError (.invalidRecipient lineNumber)
        return { events with payouts := events.payouts ++ [⟨id, amount, recipient⟩] }
      else .error (.unknownKind lineNumber kind)
    | _ => .error (.wrongColumns lineNumber)

/-- `parse_audit_events`. -/
def parseAuditEvents (input : List Char) : Except CliError AuditEvents :=
  match lines input with
  | [] => .error .invalidAuditHeader
  | header :: rest => do
    rejectIf (header ≠ auditHeader) .invalidAuditHeader
    foldIndexed parseEvent 0 ⟨[], [], [], []⟩ rest

/-- What `audit replay` prints. -/
def replayText (events : AuditEvents) (snapshot : AuditSnapshot) (report : AuditReport) :
    List Char :=
  "PASS (chain-event input must be independently authenticated)\ndeposits=".toList ++
    decimal events.deposits.length ++ "\nmints=".toList ++ decimal events.mints.length ++
    "\nburns=".toList ++ decimal events.burns.length ++ "\npayouts=".toList ++
    decimal events.payouts.length ++ reportText report ++ "\nunminted_usdt_micro=".toList ++
    decimal snapshot.depositsUnmintedUsdtMicro.toNat ++ "\nunpaid_burns_usdt_micro=".toList ++
    decimal snapshot.burnsUnpaidUsdtMicro.toNat

/-- `audit replay`, over the files. -/
def auditReplay (read : List Char → Except String (List Char)) (actual recorded path : List Char) :
    Except CliError (List Char) := do
  let actual ← readU64 actual "actual vault balance"
  let recorded ← readU64 recorded "recorded backing"
  let contents ← (read path).mapError (.cannotRead path)
  let events ← parseAuditEvents contents
  let (snapshot, report) ← (reconstructAuditSnapshot actual recorded events.deposits events.mints
    events.burns events.payouts).mapError .audit
  return replayText events snapshot report

end Audit

end Usdd.Cli

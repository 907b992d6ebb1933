import Usdd.Simplicity.Controller
/-!
# Controller transactions of the Simplicity tools

A controller transaction is checked by its projection: every input and output on its own, then
the controller input, the successor output, the issuance against the batch, the paid outputs by
position, and what follows them.
-/
namespace Usdd.Simplicity

open Usdd.Foundation

/-- `ELEMENTS_MAX_EXPLICIT_OUTPUT_TOTAL_BASE`. -/
def elementsMaxExplicitOutputTotalBase : Int := 21000000 * 100000000

/-- The values of the field `issuance_kind`. -/
inductive IssuanceKind where
  | none
  | reissuance
  | other
deriving DecidableEq

/-- The class `ControllerTxInput`. -/
structure ControllerTxInput where
  assetId : List UInt8
  amount : Int
  scriptHash : List UInt8
  assetExplicit : Bool
  amountExplicit : Bool
  issuanceKind : IssuanceKind
  reissuanceEntropy : Option (List UInt8)
  issuanceAssetId : Option (List UInt8)
  issuanceAssetAmount : Int
  issuanceAssetAmountExplicit : Bool
  issuanceTokenAmount : Int
deriving DecidableEq

/-- The class `ControllerTxOutput`. -/
structure ControllerTxOutput where
  assetId : List UInt8
  amount : Int
  scriptHash : List UInt8
  assetExplicit : Bool
  amountExplicit : Bool
deriving DecidableEq

/-- The class `MintRecipient`. -/
structure MintRecipient where
  nonce : Int
  amountUsdt6 : Int
  scriptHash : List UInt8
deriving DecidableEq

/-- The keyword arguments of `validate_controller_transaction`. -/
structure TransactionArguments where
  currentControllerScriptHash : List UInt8
  successorControllerScriptHash : List UInt8
  usddAssetId : List UInt8
  reissuanceTokenId : List UInt8
  reissuanceEntropy : List UInt8
  expectedNonce : Int
  recipients : List MintRecipient
  heartbeat : Bool

/-- `_bytes`, for a value that may be absent. -/
def checkOptionalBytes (name : String) (value : Option (List UInt8)) (length : Option Nat)
    (nonzero : Bool) : Except String Unit := do
  let value ← okOr value (name ++ " must be bytes")
  checkBytes name value length nonzero

namespace TransactionArguments

/-- `asset_id in (usdd_asset_id, reissuance_token_id)`. -/
def Protocol (arguments : TransactionArguments) (assetId : List UInt8) : Prop :=
  assetId = arguments.usddAssetId ∨ assetId = arguments.reissuanceTokenId

instance (arguments : TransactionArguments) (assetId : List UInt8) :
    Decidable (arguments.Protocol assetId) :=
  inferInstanceAs (Decidable (_ ∨ _))

/-- `validate_input`. -/
def validateInput (arguments : TransactionArguments) (index : Nat) (txin : ControllerTxInput) :
    Except String Unit := do
  let field := fun name => "input[" ++ toString index ++ "]." ++ name
  checkBytes (field "asset_id") txin.assetId (some 32) true
  checkBytes (field "script_hash") txin.scriptHash (some 32) false
  checkUint (field "amount") txin.amount 64 true
  rejectIf (txin.assetExplicit = false) "controller inputs must use explicit assets"
  rejectIf (arguments.Protocol txin.assetId ∧ txin.amountExplicit = false)
    "protocol-asset input amount must be explicit"
  rejectIf (txin.issuanceKind = .other) "new or unknown issuance kind is forbidden"
  checkUint (field "issuance_asset_amount") txin.issuanceAssetAmount 64 false
  checkUint (field "issuance_token_amount") txin.issuanceTokenAmount 64 false
  if txin.issuanceKind = .none then
    rejectIf (txin.reissuanceEntropy ≠ none ∨ txin.issuanceAssetId ≠ none ∨
        txin.issuanceAssetAmount ≠ 0 ∨ txin.issuanceTokenAmount ≠ 0)
      "nonissuing input carries issuance fields"
  else do
    checkOptionalBytes (field "reissuance_entropy") txin.reissuanceEntropy (some 32) true
    checkOptionalBytes (field "issuance_asset_id") txin.issuanceAssetId (some 32) true
    rejectIf (txin.issuanceAssetAmountExplicit = false) "USDD reissuance amount must be explicit"
    rejectIf (txin.issuanceTokenAmount ≠ 0) "reissuance cannot create another authority token"

/-- `validate_output`. -/
def validateOutput (arguments : TransactionArguments) (index : Nat)
    (txout : ControllerTxOutput) : Except String Unit := do
  let field := fun name => "output[" ++ toString index ++ "]." ++ name
  checkBytes (field "asset_id") txout.assetId (some 32) true
  checkBytes (field "script_hash") txout.scriptHash (some 32) false
  checkUint (field "amount") txout.amount 64 true
  rejectIf (txout.assetExplicit = false) "controller outputs must use explicit assets"
  rejectIf (arguments.Protocol txout.assetId ∧ txout.amountExplicit = false)
    "protocol-asset output amount must be explicit"

/-- One check of every item with its index, as the loops over `enumerate` make it. -/
def checkEach {α : Type} (check : Nat → α → Except String Unit) (items : List α) :
    Except String Unit :=
  items.zipIdx.forM fun item => check item.2 item.1

/-- The checks of the arguments. -/
def validate (arguments : TransactionArguments) : Except String Unit := do
  checkBytes "current_controller_script_hash" arguments.currentControllerScriptHash (some 32) false
  checkBytes "successor_controller_script_hash" arguments.successorControllerScriptHash (some 32)
    false
  checkBytes "usdd_asset_id" arguments.usddAssetId (some 32) true
  checkBytes "reissuance_token_id" arguments.reissuanceTokenId (some 32) true
  checkBytes "reissuance_entropy" arguments.reissuanceEntropy (some 32) true
  rejectIf (arguments.usddAssetId = arguments.reissuanceTokenId)
    "USDD asset and reissuance token must be distinct"
  checkUint "expected_nonce" arguments.expectedNonce 64 false

/-- The checks of the controller input and of the inputs after it. -/
def checkController (arguments : TransactionArguments) (controller : ControllerTxInput)
    (others : List ControllerTxInput) : Except String Unit := do
  rejectIf (controller.assetId ≠ arguments.reissuanceTokenId ∨ controller.amount ≠ 1 ∨
      controller.amountExplicit = false ∨
      controller.scriptHash ≠ arguments.currentControllerScriptHash)
    "input zero is not the exact singleton controller"
  others.forM fun txin => do
    rejectIf (arguments.Protocol txin.assetId) "noncontroller input contains a protocol asset"
    rejectIf (txin.issuanceKind ≠ .none) "only the controller input may reissue"

/-- The check of the successor output. -/
def checkSuccessor (arguments : TransactionArguments) (successor : ControllerTxOutput) :
    Except String Unit :=
  rejectIf (successor.assetId ≠ arguments.reissuanceTokenId ∨ successor.amount ≠ 1 ∨
      successor.amountExplicit = false ∨
      successor.scriptHash ≠ arguments.successorControllerScriptHash)
    "output zero is not the exact singleton successor"

/-- The check of the output that pays a recipient. -/
def checkRecipient (arguments : TransactionArguments) (outputs : List ControllerTxOutput)
    (index : Nat) (paid : MintRecipient × Int) : Except String Unit := do
  checkBytes ("recipient[" ++ toString index ++ "].script_hash") paid.1.scriptHash (some 32) false
  let actual ← okOr outputs[index + 1]? "list index out of range"
  rejectIf (actual.assetId ≠ arguments.usddAssetId ∨ actual.amount ≠ paid.2 ∨
      actual.amountExplicit = false ∨ actual.scriptHash ≠ paid.1.scriptHash)
    "mint recipient output does not match the proved deposit"

/-- The branch of a transaction that mints. -/
def checkMint (arguments : TransactionArguments) (controller : ControllerTxInput)
    (outputs : List ControllerTxOutput) : Except String Int := do
  let recipients := arguments.recipients
  rejectIf (¬(1 ≤ recipients.length ∧ recipients.length ≤ maxMintBatch))
    "mint transaction requires 1..64 recipients"
  let (converted, batchTotal) ← validateMintBatch arguments.expectedNonce
    (recipients.map (·.nonce)) (recipients.map (·.amountUsdt6))
  rejectIf (controller.issuanceKind ≠ .reissuance ∨
      controller.reissuanceEntropy ≠ some arguments.reissuanceEntropy ∨
      controller.issuanceAssetId ≠ some arguments.usddAssetId ∨
      controller.issuanceAssetAmount ≠ batchTotal ∨
      controller.issuanceAssetAmountExplicit = false ∨ controller.issuanceTokenAmount ≠ 0)
    "controller reissuance does not exactly match the mint batch"
  rejectIf (outputs.length < 1 + recipients.length) "mint recipient output is missing"
  checkEach (arguments.checkRecipient outputs) (recipients.zip converted)
  return batchTotal

/-- The branch of a heartbeat. -/
def checkHeartbeat (arguments : TransactionArguments) (controller : ControllerTxInput) :
    Except String Int := do
  rejectIf (arguments.recipients ≠ []) "heartbeat cannot contain mint recipients"
  rejectIf (controller.issuanceKind ≠ .none) "heartbeat cannot issue or reissue"
  return 0

end TransactionArguments

/-- `validate_controller_transaction`. -/
def validateControllerTransaction (inputs : List ControllerTxInput)
    (outputs : List ControllerTxOutput) (arguments : TransactionArguments) :
    Except String Int := do
  arguments.validate
  let absent := "controller transaction requires an input and successor output"
  let controller ← okOr inputs.head? absent
  let successor ← okOr outputs.head? absent
  TransactionArguments.checkEach arguments.validateInput inputs
  TransactionArguments.checkEach arguments.validateOutput outputs
  let explicitOutputTotal := ((outputs.filter (·.amountExplicit)).map (·.amount)).sum
  rejectIf (explicitOutputTotal > elementsMaxExplicitOutputTotalBase)
    "explicit output total exceeds Elements MAX_MONEY"
  arguments.checkController controller inputs.tail
  arguments.checkSuccessor successor
  let batchTotal ← if arguments.heartbeat then arguments.checkHeartbeat controller
    else arguments.checkMint controller outputs
  let protocolOutputEnd := if arguments.heartbeat then 1 else 1 + arguments.recipients.length
  (outputs.drop protocolOutputEnd).forM fun txout =>
    rejectIf (arguments.Protocol txout.assetId) "extra USDD or reissuance-token output"
  return batchTotal

end Usdd.Simplicity

import EtheraBundler.Packing
import EtheraBundler.Validator
/-!
# `errors.rs`: the error type and its JSON-RPC classification

| here | there |
| --- | --- |
| `BundlerError` | `errors.rs:34-95` |
| `BundlerError.classify` | `classify` (`errors.rs:109-213`) |
| `HandleOpsRevertReason`, its `classify` | `errors.rs:221-304` |
| `decodeHandleOpsRevert`, `clampU64` | `errors.rs:313-361` |
| `Payload` | the flat `serde_json` objects the classifiers build |

The four `SELECTOR`s are the first bytes of the Keccak hash of the error signatures, which
`sol!` computes at compile time.
-/

namespace EtheraBundler

open BigEndian

/-! ## JSON payloads -/

inductive JsonVal where
  | num (n : Nat)
  | str (s : String)
deriving DecidableEq

/-- A flat JSON object. -/
abbrev Payload := List (String × JsonVal)

namespace Payload

/-- `payload[key]`. -/
def get? (p : Payload) (key : String) : Option JsonVal := (p.find? (·.1 == key)).map (·.2)

/-- `payload[key] = value`. -/
def set (p : Payload) (key : String) (value : JsonVal) : Payload :=
  (key, value) :: p.filter (·.1 != key)

@[simp] theorem get?_set_self (p : Payload) (key : String) (value : JsonVal) :
    (p.set key value).get? key = some value := by
  simp [get?, set]

theorem get?_set_of_ne (p : Payload) {key key' : String} (value : JsonVal) (h : key' ≠ key) :
    (p.set key value).get? key' = p.get? key' := by
  have hb : (key == key') = false := by simpa using Ne.symm h
  simp only [get?, set, List.find?_cons, hb, List.find?_filter]
  congr 2
  funext x
  by_cases hx : x.1 = key'
  · simp [hx, h]
  · simp [hx]

end Payload

/-! ## Error codes -/

def INVALID_PARAMS : Int := -32602
def INTERNAL_ERROR : Int := -32603
def SIMULATE_VALIDATION_REJECTED : Int := -32500
def PAYMASTER_REJECTED : Int := -32501
def OUT_OF_TIME_RANGE : Int := -32503
def ACCOUNT_VALIDATION_REVERTED : Int := -32521

/-! ## Decoded `handleOps` reverts -/

/-- `HandleOpsRevertReason` (`errors.rs:221-242`). -/
inductive HandleOpsRevertReason where
  | failedOp (opIndex : U64) (reason : String)
  | failedOpWithRevert (opIndex : U64) (reason : String) (inner : Bytes)
  | signatureValidationFailed (aggregator : Address)
  | postOpReverted (returnData : Bytes)
  | standardError (message : String)
  | panic (code : U64)
  | unknown (raw : Bytes)
deriving DecidableEq

/-- `reason.starts_with("AA3")`. -/
def startsWithAA3 (reason : String) : Bool := ['A', 'A', '3'].isPrefixOf reason.toList

def HandleOpsRevertReason.classify : HandleOpsRevertReason → Int × Payload
  | .failedOp opIndex reason | .failedOpWithRevert opIndex reason _ =>
    let code := if startsWithAA3 reason then PAYMASTER_REJECTED else SIMULATE_VALIDATION_REJECTED
    (code, [("reason", .str reason), ("opIndex", .num opIndex.toNat)])
  | .signatureValidationFailed aggregator =>
    (SIMULATE_VALIDATION_REJECTED,
      [("reason", .str "SignatureValidationFailed"), ("aggregator", .str (debugHex aggregator))])
  | .postOpReverted returnData =>
    (PAYMASTER_REJECTED,
      [("reason", .str "PostOpReverted"), ("returnData", .str ("0x" ++ hexEncode returnData))])
  | .standardError message =>
    (SIMULATE_VALIDATION_REJECTED, [("reason", .str "Error(string)"), ("message", .str message)])
  | .panic code =>
    (SIMULATE_VALIDATION_REJECTED,
      [("reason", .str "Panic(uint256)"),
       ("code", .str ("0x" ++ String.ofList (Nat.toDigits 16 code.toNat)))])
  | .unknown raw =>
    (INTERNAL_ERROR, [("reason", .str "undecodedRevert"), ("data", .str ("0x" ++ hexEncode raw))])

/-- `FailedOp(uint256,string)`. -/
def FailedOp.SELECTOR : Bytes := [0x22, 0x02, 0x66, 0xb6]
/-- `FailedOpWithRevert(uint256,string,bytes)`. -/
def FailedOpWithRevert.SELECTOR : Bytes := [0x65, 0xc8, 0xfd, 0x4d]
/-- `SignatureValidationFailed(address)`. -/
def SignatureValidationFailed.SELECTOR : Bytes := [0x86, 0xa9, 0xf7, 0x50]
/-- `PostOpReverted(bytes)`. -/
def PostOpReverted.SELECTOR : Bytes := [0xad, 0x79, 0x54, 0xbc]
def ERROR_STRING_SELECTOR : Bytes := [0x08, 0xc3, 0x79, 0xa0]
def PANIC_UINT_SELECTOR : Bytes := [0x4e, 0x48, 0x7b, 0x71]

/-- `clamp_u64` (`errors.rs:359-361`). -/
def clampU64 (v : U256) : U64 := (u64TryFrom v).getD (BitVec.allOnes 64)

/-- `decode_handle_ops_revert` (`errors.rs:313-357`): the selector picks one decoder, and
whatever it does not decode comes back raw. -/
def decodeHandleOpsRevert (A : Alloy) (data : Bytes) : HandleOpsRevertReason :=
  if data.length < 4 then .unknown data
  else
    let selector := data.take 4
    let body := data.drop 4
    if selector = FailedOp.SELECTOR then
      match A.failedOpDecode body with
      | some (opIndex, reason) => .failedOp (clampU64 opIndex) reason
      | none => .unknown data
    else if selector = FailedOpWithRevert.SELECTOR then
      match A.failedOpWithRevertDecode body with
      | some (opIndex, reason, inner) => .failedOpWithRevert (clampU64 opIndex) reason inner
      | none => .unknown data
    else if selector = SignatureValidationFailed.SELECTOR then
      match A.signatureValidationFailedDecode body with
      | some aggregator => .signatureValidationFailed aggregator
      | none => .unknown data
    else if selector = PostOpReverted.SELECTOR then
      match A.postOpRevertedDecode body with
      | some returnData => .postOpReverted returnData
      | none => .unknown data
    else if selector = ERROR_STRING_SELECTOR then
      match A.stringDecode body with
      | some s => .standardError s
      | none => .unknown data
    else if selector = PANIC_UINT_SELECTOR then
      match A.uint256Decode body with
      | some code => .panic (clampU64 code)
      | none => .unknown data
    else .unknown data

/-! ## `BundlerError` -/

inductive BundlerError where
  | wrongChainId (expected got : U64)
  | invalidBatch (reason : String)
  | batchTooLarge (got max : Nat)
  | invalidUserOp (opIndex : Nat) (reason : String)
  | priorityFeeTooLow (opIndex : Nat) (got min : String)
  | feeCapTooLow (opIndex : Nat) (feeCap required : String)
  | insufficientDeposit (opIndex : Nat) (sponsor required deposit : String)
  | cancelled
  | receiptTimeout (txHash : B256)
  | handleOpsReverted (txHash : B256) (blockNumber : U64) (reason : HandleOpsRevertReason)
  | pack (e : PackError)
  | validation (e : ValidationError)
  | provider (e : ProviderError)
  | signer (e : SignerError)
deriving DecidableEq

/-- `classify` (`errors.rs:109-213`): error code and `data` payload. -/
def BundlerError.classify : BundlerError → Int × Payload
  | .wrongChainId expected got =>
    (INVALID_PARAMS,
      [("reason", .str "wrongChainId"), ("expected", .num expected.toNat), ("got", .num got.toNat)])
  | .invalidBatch reason => (INVALID_PARAMS, [("reason", .str reason)])
  | .batchTooLarge got max =>
    (INVALID_PARAMS, [("reason", .str "batchTooLarge"), ("got", .num got), ("max", .num max)])
  | .invalidUserOp opIndex reason =>
    (INVALID_PARAMS, [("opIndex", .num opIndex), ("reason", .str reason)])
  | .priorityFeeTooLow opIndex got min =>
    (INVALID_PARAMS,
      [("opIndex", .num opIndex), ("reason", .str "priorityFeeTooLow"), ("got", .str got),
       ("min", .str min)])
  | .feeCapTooLow opIndex feeCap required =>
    (INVALID_PARAMS,
      [("opIndex", .num opIndex), ("reason", .str "maxFeePerGasBelowBaseFee"),
       ("maxFeePerGas", .str feeCap), ("required", .str required)])
  | .insufficientDeposit opIndex sponsor required deposit =>
    (SIMULATE_VALIDATION_REJECTED,
      [("opIndex", .num opIndex), ("reason", .str "AA21 didn't pay prefund"),
       ("sponsor", .str sponsor), ("required", .str required), ("deposit", .str deposit)])
  | .cancelled => (INTERNAL_ERROR, [("reason", .str "shutdown in progress")])
  | .receiptTimeout txHash =>
    (INTERNAL_ERROR, [("reason", .str "receiptTimeout"), ("txHash", .str (debugHex txHash))])
  | .handleOpsReverted txHash blockNumber reason =>
    let (code, payload) := reason.classify
    let payload := payload.set "txHash" (.str (debugHex txHash))
    let payload := payload.set "blockNumber" (.num blockNumber.toNat)
    (code, payload)
  | .pack e => (INVALID_PARAMS, [("reason", .str e.display)])
  | .validation e =>
    match e with
    | .accountSignatureFailed =>
      (SIMULATE_VALIDATION_REJECTED, [("reason", .str "AA24 signature error")])
    | .paymasterSignatureFailed => (PAYMASTER_REJECTED, [("reason", .str "AA34 signature error")])
    | .outOfTimeRange now aAfter aUntil pAfter pUntil =>
      (OUT_OF_TIME_RANGE,
        [("reason", .str "AA22 expired or not due"), ("now", .num now.toNat),
         ("accountValidAfter", .num aAfter.toNat), ("accountValidUntil", .num aUntil.toNat),
         ("paymasterValidAfter", .num pAfter.toNat), ("paymasterValidUntil", .num pUntil.toNat)])
    | .unsupportedAggregator =>
      (ACCOUNT_VALIDATION_REVERTED, [("reason", .str "aggregator not supported")])
    | .provider p => (INTERNAL_ERROR, [("reason", .str p.display)])
  | .provider e => (INTERNAL_ERROR, [("reason", .str e.display)])
  | .signer e => (INTERNAL_ERROR, [("reason", .str e.display)])

/-! ## Transaction hashes in payloads -/

/-- The error's payload carries the transaction hash `h`. -/
def BundlerError.CarriesTxHash (e : BundlerError) (h : B256) : Prop :=
  e.classify.2.get? "txHash" = some (.str (debugHex h))

theorem receiptTimeout_carriesTxHash (h : B256) : (BundlerError.receiptTimeout h).CarriesTxHash h := by
  simp [BundlerError.CarriesTxHash, BundlerError.classify, Payload.get?]

theorem handleOpsReverted_carriesTxHash (h : B256) (n : U64) (r : HandleOpsRevertReason) :
    (BundlerError.handleOpsReverted h n r).CarriesTxHash h := by
  simp only [BundlerError.CarriesTxHash, BundlerError.classify]
  rw [Payload.get?_set_of_ne _ _ (by decide), Payload.get?_set_self]

/-- The only errors whose payload has a `txHash` are the two raised after the broadcast. -/
theorem txHash_get?_eq_none {e : BundlerError} (h1 : ∀ h, e ≠ .receiptTimeout h)
    (h2 : ∀ h n r, e ≠ .handleOpsReverted h n r) : e.classify.2.get? "txHash" = none := by
  cases e with
  | receiptTimeout h => exact absurd rfl (h1 h)
  | handleOpsReverted h n r => exact absurd rfl (h2 h n r)
  | validation e => cases e <;> simp [BundlerError.classify, Payload.get?]
  | _ => simp [BundlerError.classify, Payload.get?]

end EtheraBundler

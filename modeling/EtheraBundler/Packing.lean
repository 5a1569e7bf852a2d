import EtheraBundler.Types
/-!
# `packing.rs`: wire format → onchain struct

`pack` accepts either wire form; the pre-packed `initCode` / `paymasterAndData` blobs take
precedence. `parsePaymasterAndData` is its reader on the paymaster side.
-/

namespace EtheraBundler

open BigEndian

/-- `PackError` (`packing.rs:14-20`). -/
inductive PackError where
  | overflow (field : String)
  | paymasterAndDataTooShort (len : Nat)
deriving DecidableEq

def PackError.display : PackError → String
  | .overflow field => "value exceeds uint128 bounds in " ++ field
  | .paymasterAndDataTooShort n =>
    "paymasterAndData too short: " ++ toString n ++ " bytes (need at least 52)"

def PAYMASTER_HEADER_LEN : Nat := 52
def ADDRESS_LEN : Nat := 20
def U128_LEN : Nat := 16

/-- `v.bit_len() > 128`. -/
def exceedsU128 (v : U256) : Prop := 2 ^ 128 ≤ v.toNat

instance (v : U256) : Decidable (exceedsU128 v) := inferInstanceAs (Decidable (_ ≤ _))

/-- `v.to_be_bytes::<32>()[16..]`. -/
def lowBytes16 (v : U256) : Bytes := (toBeBytes32 v).drop 16

@[simp] theorem length_lowBytes16 (v : U256) : (lowBytes16 v).length = 16 := by
  simp [lowBytes16, toBeBytes32]

/-- `pack_pair_to_bytes32` (`packing.rs:32-40`): `(hi << 128) | lo`. -/
def packPairToBytes32 (hi lo : U256) (field : String) : Except PackError B256 :=
  if exceedsU128 hi ∨ exceedsU128 lo then .error (.overflow field)
  else .ok ⟨lowBytes16 hi ++ lowBytes16 lo, by simp⟩

/-- The `init_code` binding of `pack` (`packing.rs:49-61`). -/
def packInitCode (op : UserOpV07) : Bytes :=
  if op.initCode ≠ [] then op.initCode
  else
    match op.factory with
    | some f => if f.isZero then [] else f.bytes ++ op.factoryData
    | none => []

/-- The `paymaster_and_data` binding of `pack` (`packing.rs:63-89`). -/
def packPaymasterAndData (op : UserOpV07) : Except PackError Bytes :=
  if op.paymasterAndData ≠ [] then .ok op.paymasterAndData
  else
    match op.paymaster with
    | some pm =>
      if pm.isZero then .ok []
      else if exceedsU128 op.paymasterVerificationGasLimit then
        .error (.overflow "paymasterVerificationGasLimit")
      else if exceedsU128 op.paymasterPostOpGasLimit then
        .error (.overflow "paymasterPostOpGasLimit")
      else
        .ok (pm.bytes ++ lowBytes16 op.paymasterVerificationGasLimit ++
          lowBytes16 op.paymasterPostOpGasLimit ++ op.paymasterData)
    | none => .ok []

/-- `pack` (`packing.rs:48-110`). -/
def pack (op : UserOpV07) : Except PackError PackedUserOperation := do
  let initCode := packInitCode op
  let paymasterAndData ← packPaymasterAndData op
  let accountGasLimits ←
    packPairToBytes32 op.verificationGasLimit op.callGasLimit "accountGasLimits"
  let gasFees ← packPairToBytes32 op.maxPriorityFeePerGas op.maxFeePerGas "gasFees"
  return {
    sender := op.sender
    nonce := op.nonce
    initCode := initCode
    callData := op.callData
    accountGasLimits := accountGasLimits
    preVerificationGas := op.preVerificationGas
    gasFees := gasFees
    paymasterAndData := paymasterAndData
    signature := op.signature }

/-- `parse_paymaster_and_data` (`packing.rs:114-125`). -/
def parsePaymasterAndData (blob : Bytes) : Except PackError (Option (Address × U256 × U256)) :=
  if blob = [] then .ok none
  else if h : blob.length < PAYMASTER_HEADER_LEN then
    .error (.paymasterAndDataTooShort blob.length)
  else
    let paymaster : Address := ⟨blob.take ADDRESS_LEN, by
      simp only [List.length_take, ADDRESS_LEN, PAYMASTER_HEADER_LEN] at h ⊢; omega⟩
    let ver := fromBeSlice ((blob.drop ADDRESS_LEN).take U128_LEN)
    let post := fromBeSlice ((blob.drop (ADDRESS_LEN + U128_LEN)).take U128_LEN)
    .ok (some (paymaster, ver, post))

end EtheraBundler

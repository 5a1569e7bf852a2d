import EtheraBundler.Lib.BigEndian
import EtheraBundler.Lib.Saturating
/-!
# Wire types, contract structs and configuration

| here | there |
| --- | --- |
| `UserOpV07`, `BuildOpts`, `SignedTxResp` | `crates/bundler/src/types.rs` |
| `PackedUserOperation`, `ReturnInfo`, `ValidationResult` | the `sol!` block of `contracts.rs:19-81` |
| `BundlerConfig` | `config.rs:23-60`, the fields the pipeline reads |
| `TxEip1559`, `TxEnvelope`, `Signature` | `alloy::consensus` |
| `Alloy` | **alloy boundary**: the ABI and EIP-2718 codecs and the transaction hash |

Machine words are bit vectors of the width the code uses, `usize` indices and lengths are
`Nat`. `Bytes` is a list of bytes and `Address` / `B256` carry their length in the type.
Nothing is assumed about an `Alloy` here: a theorem that needs one of its documented
properties takes it as a hypothesis.
-/

namespace EtheraBundler

open BigEndian

abbrev U32 := BitVec 32
abbrev U64 := BitVec 64
abbrev U128 := BitVec 128
abbrev U256 := BitVec 256

abbrev Bytes := List UInt8
abbrev Address := FixedBytes 20
abbrev B256 := FixedBytes 32

/-- `usize::MAX` on a 64-bit target. -/
def usizeMax : Nat := 2 ^ 64 - 1

/-- `to_be_bytes::<32>()`. -/
def toBeBytes32 (v : U256) : Bytes := beBytes 32 v.toNat

/-- `U256::from_be_slice`. -/
def fromBeSlice (l : Bytes) : U256 := BitVec.ofNat 256 (ofBe l)

/-- `format!("{x:?}")` of an `Address` or a `B256`. -/
def debugHex {n : Nat} (x : FixedBytes n) : String := "0x" ++ hexEncode x.bytes

/-- `v.to_string()`. -/
def decimal (v : U256) : String := toString v.toNat

/-! ## JSON-RPC types -/

/-- `UserOpV07` (`types.rs:18-51`). -/
structure UserOpV07 where
  sender : Address
  nonce : U256
  initCode : Bytes
  factory : Option Address
  factoryData : Bytes
  callData : Bytes
  callGasLimit : U256
  verificationGasLimit : U256
  preVerificationGas : U256
  maxFeePerGas : U256
  maxPriorityFeePerGas : U256
  paymaster : Option Address
  paymasterVerificationGasLimit : U256
  paymasterPostOpGasLimit : U256
  paymasterData : Bytes
  paymasterAndData : Bytes
  signature : Bytes
deriving DecidableEq

/-- `BuildOpts` (`types.rs:56-65`). -/
structure BuildOpts where
  chainId : U64
  submit : Bool

/-- `SignedTxResp` (`types.rs:75-84`). -/
structure SignedTxResp where
  raw : Bytes
  hash : B256
  «to» : Address
  chainId : U64
  gas : U256
  maxFeePerGas : U256
  maxPriorityFeePerGas : U256
  userOpHashes : List B256

/-! ## Contract structs -/

/-- `PackedUserOperation` (`contracts.rs:23-33`). -/
structure PackedUserOperation where
  sender : Address
  nonce : U256
  initCode : Bytes
  callData : Bytes
  accountGasLimits : B256
  preVerificationGas : U256
  gasFees : B256
  paymasterAndData : Bytes
  signature : Bytes
deriving DecidableEq

/-- `ReturnInfo` (`contracts.rs:36-42`). -/
structure ReturnInfo where
  preOpGas : U256
  prefund : U256
  accountValidationData : U256
  paymasterValidationData : U256

/-- `ValidationResult` (`contracts.rs:57-63`); the stake fields are never read. -/
structure ValidationResult where
  returnInfo : ReturnInfo

/-! ## Configuration -/

/-- `BundlerConfig` (`config.rs:23-60`). -/
structure BundlerConfig where
  chainId : U64
  entrypointAddress : Address
  maxBatchSize : Nat
  minPriorityFeeWei : U256
  gasMarginPct : U32

/-- What the Cargo profile decides: `debug_assert!` and arithmetic overflow checks are on in
the dev profile and off in the release one (`Cargo.toml:61-64` changes neither). -/
structure BuildProfile where
  debugAssertions : Bool
  overflowChecks : Bool

def BuildProfile.release : BuildProfile := ⟨false, false⟩
def BuildProfile.dev : BuildProfile := ⟨true, true⟩

/-! ## The outer transaction -/

inductive TxKind where
  | create
  | call (addr : Address)
deriving DecidableEq

structure TxEip1559 where
  chainId : U64
  nonce : U64
  gasLimit : U64
  maxFeePerGas : U128
  maxPriorityFeePerGas : U128
  «to» : TxKind
  value : U256
  accessList : List (Address × List B256)
  input : Bytes
deriving DecidableEq

structure Signature where
  r : U256
  s : U256
  yParity : Bool
deriving DecidableEq

/-- `TxEnvelope::Eip1559(tx.into_signed(signature))`, the one variant the bundler builds. -/
structure TxEnvelope where
  tx : TxEip1559
  signature : Signature
deriving DecidableEq

/-- The functions of `alloy` the bundler calls. A decoder returns `none` for `Err`. -/
structure Alloy where
  /-- `IEntryPoint::handleOpsCall { ops, beneficiary }.abi_encode()`. -/
  handleOpsAbiEncode : List PackedUserOperation → Address → Bytes
  /-- `simulateValidationCall { userOp }.abi_encode()`. -/
  simulateValidationAbiEncode : PackedUserOperation → Bytes
  /-- `simulateValidationCall::abi_decode_returns`. -/
  simulateValidationAbiDecodeReturns : Bytes → Except String ValidationResult
  /-- `envelope.encoded_2718()`. -/
  encoded2718 : TxEnvelope → Bytes
  /-- `*envelope.tx_hash()`. -/
  txHash : TxEnvelope → B256
  /-- `abi_encode_params` of the arguments of `FailedOp`, and `FailedOp::abi_decode_raw`. -/
  failedOpEncode : U256 → String → Bytes
  failedOpDecode : Bytes → Option (U256 × String)
  failedOpWithRevertEncode : U256 → String → Bytes → Bytes
  failedOpWithRevertDecode : Bytes → Option (U256 × String × Bytes)
  signatureValidationFailedDecode : Bytes → Option Address
  postOpRevertedDecode : Bytes → Option Bytes
  /-- `String::abi_decode`. -/
  stringDecode : Bytes → Option String
  /-- `U256::abi_decode`. -/
  uint256Decode : Bytes → Option U256

end EtheraBundler

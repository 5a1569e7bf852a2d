import EtheraBundler.Types
import EtheraBundler.Lib.Hex
/-!
# `types.rs`: the JSON of requests and responses

| here | there |
| --- | --- |
| `AlloyCodecs` | **alloy boundary**: `Serialize` and `Deserialize` of `Address`, `Bytes`, `B256`, `U256` |
| `UserOpV07.Field`, `UserOpV07.schema` | the derives and attributes of `UserOpV07` (`types.rs:18-51`) |
| `BuildOpts.Field`, `BuildOpts.schema` | `BuildOpts` (`types.rs:54-69`) |
| `SignedTxResp.Field`, `SignedTxResp.schema` | `SignedTxResp` (`types.rs:73-84`) |

The field names are the Rust ones under `rename_all = "camelCase"`. The derived readers follow the rules
named in `Lib/Schema.lean` (unknown and repeated keys, defaults, the array form), and `chainId`, the one
number there is, is a JSON integer.

* `UserOpV07.lawful_codec`, `BuildOpts.lawful_codec`, `SignedTxResp.lawful_codec` — **each survives
  the wire**: what a field's `skip_serializing_if` leaves out, its `default` restores.
-/

namespace EtheraBundler

open Wire

/-- Of each type of `alloy` a field has. -/
structure AlloyCodecs where
  address : Codec Address
  bytes : Codec Bytes
  b256 : Codec B256
  u256 : Codec U256

/-- Each writes what it reads back, and none writes `null`: they write hex strings. -/
structure AlloyCodecs.Lawful (C : AlloyCodecs) : Prop where
  address : C.address.Lawful
  bytes : C.bytes.Lawful
  b256 : C.b256.Lawful
  u256 : C.u256.Lawful

/-- Hex strings: quantities for `U256`, two digits a byte for the others. -/
def hexCodecs : AlloyCodecs := ⟨Hex.Codec.fixed 20, Hex.Codec.data, Hex.Codec.fixed 32, Hex.Codec.quantity 256⟩

theorem lawful_hexCodecs : hexCodecs.Lawful :=
  ⟨Hex.Codec.lawful_fixed 20, Hex.Codec.lawful_data, Hex.Codec.lawful_fixed 32, Hex.Codec.lawful_quantity 256⟩

/-! ## `UserOpV07` -/

namespace UserOpV07

inductive Field where
  | sender
  | nonce
  | initCode
  | factory
  | factoryData
  | callData
  | callGasLimit
  | verificationGasLimit
  | preVerificationGas
  | maxFeePerGas
  | maxPriorityFeePerGas
  | paymaster
  | paymasterVerificationGasLimit
  | paymasterPostOpGasLimit
  | paymasterData
  | paymasterAndData
  | signature
deriving DecidableEq

namespace Field

@[reducible] def Val : Field → Type
  | .sender => Address
  | .factory | .paymaster => Option Address
  | .initCode | .factoryData | .callData | .paymasterData | .paymasterAndData | .signature => Bytes
  | _ => U256

def all : List Field :=
  [.sender, .nonce, .initCode, .factory, .factoryData, .callData, .callGasLimit, .verificationGasLimit,
    .preVerificationGas, .maxFeePerGas, .maxPriorityFeePerGas, .paymaster, .paymasterVerificationGasLimit,
    .paymasterPostOpGasLimit, .paymasterData, .paymasterAndData, .signature]

def name : Field → String
  | .sender => "sender"
  | .nonce => "nonce"
  | .initCode => "initCode"
  | .factory => "factory"
  | .factoryData => "factoryData"
  | .callData => "callData"
  | .callGasLimit => "callGasLimit"
  | .verificationGasLimit => "verificationGasLimit"
  | .preVerificationGas => "preVerificationGas"
  | .maxFeePerGas => "maxFeePerGas"
  | .maxPriorityFeePerGas => "maxPriorityFeePerGas"
  | .paymaster => "paymaster"
  | .paymasterVerificationGasLimit => "paymasterVerificationGasLimit"
  | .paymasterPostOpGasLimit => "paymasterPostOpGasLimit"
  | .paymasterData => "paymasterData"
  | .paymasterAndData => "paymasterAndData"
  | .signature => "signature"

def codec (C : AlloyCodecs) : (f : Field) → Codec f.Val
  | .sender => C.address
  | .nonce => C.u256
  | .initCode => C.bytes
  | .factory => C.address.option
  | .factoryData => C.bytes
  | .callData => C.bytes
  | .callGasLimit => C.u256
  | .verificationGasLimit => C.u256
  | .preVerificationGas => C.u256
  | .maxFeePerGas => C.u256
  | .maxPriorityFeePerGas => C.u256
  | .paymaster => C.address.option
  | .paymasterVerificationGasLimit => C.u256
  | .paymasterPostOpGasLimit => C.u256
  | .paymasterData => C.bytes
  | .paymasterAndData => C.bytes
  | .signature => C.bytes

/-- `#[serde(default)]`. -/
def default : (f : Field) → Option f.Val
  | .initCode => some []
  | .factory => some none
  | .factoryData => some []
  | .paymaster => some none
  | .paymasterVerificationGasLimit => some 0
  | .paymasterPostOpGasLimit => some 0
  | .paymasterData => some []
  | .paymasterAndData => some []
  | .signature => some []
  | .sender => none
  | .nonce => none
  | .callData => none
  | .callGasLimit => none
  | .verificationGasLimit => none
  | .preVerificationGas => none
  | .maxFeePerGas => none
  | .maxPriorityFeePerGas => none

/-- `skip_serializing_if`: `bytes_is_empty` (`types.rs:6-8`) or `Option::is_none`. -/
def skip : (f : Field) → f.Val → Bool
  | .initCode, v => v.isEmpty
  | .factory, v => v.isNone
  | .factoryData, v => v.isEmpty
  | .paymaster, v => v.isNone
  | .paymasterData, v => v.isEmpty
  | .paymasterAndData, v => v.isEmpty
  | _, _ => false

theorem default_of_skip (f : Field) (v : f.Val) (h : f.skip v = true) : f.default = some v := by
  cases f with
  | initCode => rw [List.isEmpty_iff.1 h]; rfl
  | factory => rw [Option.isNone_iff_eq_none.1 h]; rfl
  | factoryData => rw [List.isEmpty_iff.1 h]; rfl
  | paymaster => rw [Option.isNone_iff_eq_none.1 h]; rfl
  | paymasterData => rw [List.isEmpty_iff.1 h]; rfl
  | paymasterAndData => rw [List.isEmpty_iff.1 h]; rfl
  | _ => cases h

end Field

def schema (C : AlloyCodecs) : Schema Field Field.Val where
  fields := Field.all
  complete f := by cases f <;> decide
  name := Field.name
  distinct := by decide
  codec := Field.codec C
  default := Field.default
  skip := Field.skip
  default_of_skip := Field.default_of_skip

/-- An op is its fields. -/
def equivFields : UserOpV07 ≃ ((f : Field) → f.Val) where
  toFun op
    | .sender => op.sender
    | .nonce => op.nonce
    | .initCode => op.initCode
    | .factory => op.factory
    | .factoryData => op.factoryData
    | .callData => op.callData
    | .callGasLimit => op.callGasLimit
    | .verificationGasLimit => op.verificationGasLimit
    | .preVerificationGas => op.preVerificationGas
    | .maxFeePerGas => op.maxFeePerGas
    | .maxPriorityFeePerGas => op.maxPriorityFeePerGas
    | .paymaster => op.paymaster
    | .paymasterVerificationGasLimit => op.paymasterVerificationGasLimit
    | .paymasterPostOpGasLimit => op.paymasterPostOpGasLimit
    | .paymasterData => op.paymasterData
    | .paymasterAndData => op.paymasterAndData
    | .signature => op.signature
  invFun v :=
    { sender := v .sender
      nonce := v .nonce
      initCode := v .initCode
      factory := v .factory
      factoryData := v .factoryData
      callData := v .callData
      callGasLimit := v .callGasLimit
      verificationGasLimit := v .verificationGasLimit
      preVerificationGas := v .preVerificationGas
      maxFeePerGas := v .maxFeePerGas
      maxPriorityFeePerGas := v .maxPriorityFeePerGas
      paymaster := v .paymaster
      paymasterVerificationGasLimit := v .paymasterVerificationGasLimit
      paymasterPostOpGasLimit := v .paymasterPostOpGasLimit
      paymasterData := v .paymasterData
      paymasterAndData := v .paymasterAndData
      signature := v .signature }
  left_inv op := rfl
  right_inv v := by
    funext f
    cases f <;> rfl

def codec (C : AlloyCodecs) : Codec UserOpV07 := (schema C).record equivFields

theorem lawful_codec {C : AlloyCodecs} (h : C.Lawful) : (codec C).Lawful := by
  refine Schema.lawful_record fun f v => ?_
  cases f with
  | sender => exact h.address.de_ser v
  | factory => exact Codec.option_de_ser h.address v
  | paymaster => exact Codec.option_de_ser h.address v
  | initCode => exact h.bytes.de_ser v
  | factoryData => exact h.bytes.de_ser v
  | callData => exact h.bytes.de_ser v
  | paymasterData => exact h.bytes.de_ser v
  | paymasterAndData => exact h.bytes.de_ser v
  | signature => exact h.bytes.de_ser v
  | _ => exact h.u256.de_ser v

end UserOpV07

/-! ## `BuildOpts` -/

namespace BuildOpts

inductive Field where
  | chainId
  | submit
deriving DecidableEq

namespace Field

@[reducible] def Val : Field → Type
  | .chainId => U64
  | .submit => Bool

def name : Field → String
  | .chainId => "chainId"
  | .submit => "submit"

def codec : (f : Field) → Codec f.Val
  | .chainId => Codec.uint 64
  | .submit => Codec.bool

/-- `default_submit` (`types.rs:67-69`). -/
def default : (f : Field) → Option f.Val
  | .chainId => none
  | .submit => some true

end Field

def schema : Schema Field Field.Val where
  fields := [.chainId, .submit]
  complete f := by cases f <;> decide
  name := Field.name
  distinct := by decide
  codec := Field.codec
  default := Field.default
  skip _ _ := false
  default_of_skip _ _ h := by cases h

def equivFields : BuildOpts ≃ ((f : Field) → f.Val) where
  toFun opts
    | .chainId => opts.chainId
    | .submit => opts.submit
  invFun v := ⟨v .chainId, v .submit⟩
  left_inv opts := rfl
  right_inv v := by
    funext f
    cases f <;> rfl

def codec : Codec BuildOpts := schema.record equivFields

theorem lawful_codec : codec.Lawful := by
  refine Schema.lawful_record fun f v => ?_
  cases f with
  | chainId => exact (Codec.lawful_uint 64).de_ser v
  | submit => exact Codec.lawful_bool.de_ser v

end BuildOpts

/-! ## `SignedTxResp` -/

namespace SignedTxResp

inductive Field where
  | raw
  | hash
  | dest
  | chainId
  | gas
  | maxFeePerGas
  | maxPriorityFeePerGas
  | userOpHashes
deriving DecidableEq

namespace Field

@[reducible] def Val : Field → Type
  | .raw => Bytes
  | .hash => B256
  | .dest => Address
  | .chainId => U64
  | .userOpHashes => List B256
  | _ => U256

def name : Field → String
  | .raw => "raw"
  | .hash => "hash"
  | .dest => "to"
  | .chainId => "chainId"
  | .gas => "gas"
  | .maxFeePerGas => "maxFeePerGas"
  | .maxPriorityFeePerGas => "maxPriorityFeePerGas"
  | .userOpHashes => "userOpHashes"

def codec (C : AlloyCodecs) : (f : Field) → Codec f.Val
  | .raw => C.bytes
  | .hash => C.b256
  | .dest => C.address
  | .chainId => Codec.uint 64
  | .gas => C.u256
  | .maxFeePerGas => C.u256
  | .maxPriorityFeePerGas => C.u256
  | .userOpHashes => C.b256.list

end Field

/-- No field has a default, and none is skipped. -/
def schema (C : AlloyCodecs) : Schema Field Field.Val where
  fields := [.raw, .hash, .dest, .chainId, .gas, .maxFeePerGas, .maxPriorityFeePerGas, .userOpHashes]
  complete f := by cases f <;> decide
  name := Field.name
  distinct := by decide
  codec := Field.codec C
  default _ := none
  skip _ _ := false
  default_of_skip _ _ h := by cases h

def equivFields : SignedTxResp ≃ ((f : Field) → f.Val) where
  toFun resp
    | .raw => resp.raw
    | .hash => resp.hash
    | .dest => resp.to
    | .chainId => resp.chainId
    | .gas => resp.gas
    | .maxFeePerGas => resp.maxFeePerGas
    | .maxPriorityFeePerGas => resp.maxPriorityFeePerGas
    | .userOpHashes => resp.userOpHashes
  invFun v :=
    { raw := v .raw
      hash := v .hash
      «to» := v .dest
      chainId := v .chainId
      gas := v .gas
      maxFeePerGas := v .maxFeePerGas
      maxPriorityFeePerGas := v .maxPriorityFeePerGas
      userOpHashes := v .userOpHashes }
  left_inv resp := rfl
  right_inv v := by
    funext f
    cases f <;> rfl

def codec (C : AlloyCodecs) : Codec SignedTxResp := (schema C).record equivFields

theorem lawful_codec {C : AlloyCodecs} (h : C.Lawful) : (codec C).Lawful := by
  refine Schema.lawful_record fun f v => ?_
  cases f with
  | raw => exact h.bytes.de_ser v
  | hash => exact h.b256.de_ser v
  | dest => exact h.address.de_ser v
  | chainId => exact (Codec.lawful_uint 64).de_ser v
  | userOpHashes => exact (Codec.lawful_list h.b256.de_ser).de_ser v
  | _ => exact h.u256.de_ser v

end SignedTxResp

end EtheraBundler

import EtheraBundler.Effects
/-!
# `AlloyProvider`: the provider methods over JSON-RPC

The methods that turn a node's revert into an answer of `EthProvider` (`provider.rs:206-315`),
as programs over the raw RPC. An `RpcError` is kept as the two views the code takes of it:
`e.to_string()`, and the revert data reached through
`as_error_resp().and_then(as_revert_data)`.
-/

namespace EtheraBundler

open Interact

/-- `RpcError<TransportErrorKind>`, as far as the provider looks at it. -/
structure RpcError where
  display : String
  revertData : Option Bytes

/-- `TransactionRequest`, the fields the provider sets. -/
structure TransactionRequest where
  src : Option Address
  dest : Address
  input : Bytes

/-- The RPC requests behind the modelled methods; `call` carries its code overrides. -/
inductive Rpc where
  | call (tx : TransactionRequest) (overrides : List (Address × Bytes))
  | estimateGas (tx : TransactionRequest)

@[reducible] def Rpc.Ans : Rpc → Type
  | .call _ _ => Except RpcError Bytes
  | .estimateGas _ => Except RpcError U64

namespace AlloyProvider

/-- `estimate_handle_ops_gas` (`provider.rs:206-220`). -/
def estimateHandleOpsGas (src entrypoint : Address) (callData : Bytes) :
    Prog Rpc Rpc.Ans ProviderError U64 :=
  .ask (.estimateGas ⟨some src, entrypoint, callData⟩) fun
    | .ok gas => .ret gas
    | .error e => .fail (.transport e.display)

/-- `try_call_for_revert` (`provider.rs:261-277`): never an `Err`. -/
def tryCallForRevert (src dest : Address) (callData : Bytes) :
    Prog Rpc Rpc.Ans ProviderError (Option Bytes) :=
  .ask (.call ⟨some src, dest, callData⟩ []) fun
    | .ok _ => .ret none
    | .error e => .ret e.revertData

/-- `simulate_validation` (`provider.rs:279-314`). -/
def simulateValidation (A : Alloy) (entrypoint : Address) (simulationsCode : Bytes)
    (op : PackedUserOperation) : Prog Rpc Rpc.Ans ProviderError ValidationResult :=
  let data := A.simulateValidationAbiEncode op
  .ask (.call ⟨none, entrypoint, data⟩ [(entrypoint, simulationsCode)]) fun
    | .error e => .fail (.transport e.display)
    | .ok result =>
      if result = [] then .fail .emptyCall
      else
        match A.simulateValidationAbiDecodeReturns result with
        | .ok v => .ret v
        | .error msg => .fail (.decode msg)

end AlloyProvider

end EtheraBundler

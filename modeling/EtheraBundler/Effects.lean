import EtheraBundler.Lib.Prog
import EtheraBundler.Types
/-!
# What a call asks of its surroundings

| here | there |
| --- | --- |
| `ProviderError`, `ReceiptInfo` | `provider.rs:20-36` |
| `Query`, `Query.Val` | the methods of `trait EthProvider` (`provider.rs:40-107`) the pipeline calls |
| `SignerError` | `signer.rs:10-16` |
| `Op.signEip1559` | `Signer::sign_eip1559`; the answer is the signature, see `signEip1559` |
| `Op.lock`, `Op.unlock` | `submit_lock.lock().await` and the drop of its guard (`bundler.rs:189-193`, `:216`) |
| `Op.sinceEpoch` | `SystemTime::now().duration_since(UNIX_EPOCH)` (`bundler.rs:378-382`) |

A method of the bundler is an interaction program over these questions. Every answer,
errors included, is left to the environment.
-/

namespace EtheraBundler

open Interact

/-- `ProviderError` (`provider.rs:21-28`). -/
inductive ProviderError where
  | transport (msg : String)
  | emptyCall
  | decode (msg : String)
deriving DecidableEq

def ProviderError.display : ProviderError → String
  | .transport m => "rpc transport error: " ++ m
  | .emptyCall => "eth_call returned no data"
  | .decode m => "abi decode failed: " ++ m

/-- `SignerError` (`signer.rs:11-16`). -/
inductive SignerError where
  | invalidKey (msg : String)
  | signing (msg : String)
deriving DecidableEq

def SignerError.display : SignerError → String
  | .invalidKey m => "invalid sequencer key: " ++ m
  | .signing m => "signing failed: " ++ m

/-- `ReceiptInfo` (`provider.rs:32-36`). -/
structure ReceiptInfo where
  txHash : B256
  blockNumber : U64
  success : Bool

/-- A call of an `EthProvider` method, with its arguments. -/
inductive Query where
  | baseFee
  | maxPriorityFee
  | pendingNonce (addr : Address)
  | balanceOf (entrypoint account : Address)
  | userOpHash (entrypoint : Address) (op : PackedUserOperation)
  | estimateHandleOpsGas (src entrypoint : Address) (callData : Bytes)
  | sendRawTransaction (raw : Bytes)
  | waitForReceipt (hash : B256) (timeoutSecs : Nat)
  | tryCallForRevert (src dest : Address) (callData : Bytes)
  | simulateValidation (entrypoint : Address) (simulationsCode : Bytes) (op : PackedUserOperation)
deriving DecidableEq

/-- What the method returns in its `Ok`. -/
@[reducible] def Query.Val : Query → Type
  | .baseFee => U256
  | .maxPriorityFee => U256
  | .pendingNonce _ => U64
  | .balanceOf _ _ => U256
  | .userOpHash _ _ => B256
  | .estimateHandleOpsGas _ _ _ => U64
  | .sendRawTransaction _ => B256
  | .waitForReceipt _ _ => Option ReceiptInfo
  | .tryCallForRevert _ _ _ => Option Bytes
  | .simulateValidation _ _ _ => ValidationResult

/-- The questions of the pipeline. -/
inductive Op where
  | rpc (q : Query)
  | lock
  | unlock
  | sinceEpoch
  | signEip1559 (tx : TxEip1559)
deriving DecidableEq

@[reducible] def Op.Ans : Op → Type
  | .rpc q => Except ProviderError q.Val
  | .lock => Unit
  | .unlock => Unit
  | .sinceEpoch => Option U64
  | .signEip1559 _ => Except SignerError Signature

/-- Where the future can be suspended: at an `.await`. Dropping the guard and reading the
clock are plain calls. -/
def Op.isAwait : Op → Bool
  | .unlock => false
  | .sinceEpoch => false
  | _ => true

abbrev BundlerTrace := Trace Op Op.Ans

variable {ε : Type}

/-- `provider.method(..).await?`, the error converted by `conv`. -/
def await (conv : ProviderError → ε) (q : Query) : Prog Op Op.Ans ε q.Val :=
  .ask (.rpc q) fun
    | .ok v => .ret v
    | .error e => .fail (conv e)

/-- `signer.sign_eip1559(tx).await?`. The answer is the signature alone: the one `Signer`,
`LocalSigner`, wraps the very `tx` it was given (`signer.rs:44-50`). -/
def signEip1559 (conv : SignerError → ε) (tx : TxEip1559) : Prog Op Op.Ans ε TxEnvelope :=
  .ask (.signEip1559 tx) fun
    | .ok sig => .ret ⟨tx, sig⟩
    | .error e => .fail (conv e)

/-- `unix_now` (`bundler.rs:378-382`). -/
def unixNow : Prog Op Op.Ans ε U64 := .ask .sinceEpoch fun d => .ret (d.getD 0)

/-! ## Runs of a single question -/

theorem run_await_ok {conv : ProviderError → ε} {q : Query} {t : BundlerTrace} {v : q.Val} :
    Run (await conv q) t (.ok v) ↔ t = [⟨.rpc q, .ok v⟩] := by
  rw [await, run_ask]
  constructor
  · rintro ⟨x, t', rfl, h⟩
    cases x with
    | ok w => obtain ⟨rfl, hw⟩ := run_ret.1 h; cases hw; rfl
    | error e => obtain ⟨-, hw⟩ := run_fail.1 h; cases hw
  · rintro rfl
    exact ⟨.ok v, [], rfl, run_ret.2 ⟨rfl, rfl⟩⟩

theorem run_await_error {conv : ProviderError → ε} {q : Query} {t : BundlerTrace} {e : ε} :
    Run (await conv q) t (.error e) ↔ ∃ pe, e = conv pe ∧ t = [⟨.rpc q, .error pe⟩] := by
  rw [await, run_ask]
  constructor
  · rintro ⟨x, t', rfl, h⟩
    cases x with
    | ok w => obtain ⟨-, hw⟩ := run_ret.1 h; cases hw
    | error pe => obtain ⟨rfl, hw⟩ := run_fail.1 h; cases hw; exact ⟨pe, rfl, rfl⟩
  · rintro ⟨pe, rfl, rfl⟩
    exact ⟨.error pe, [], rfl, run_fail.2 ⟨rfl, rfl⟩⟩

theorem asks_await {conv : ProviderError → ε} {q : Query} {t : BundlerTrace} {o : Op} :
    Asks (await conv q) t o ↔ t = [] ∧ o = .rpc q := by
  rw [await, asks_ask]
  constructor
  · rintro (h | ⟨x, t', rfl, h⟩)
    · exact h
    · cases x <;> simp at h
  · exact Or.inl

theorem run_signEip1559_ok {conv : SignerError → ε} {tx : TxEip1559} {t : BundlerTrace}
    {env : TxEnvelope} :
    Run (signEip1559 conv tx) t (.ok env) ↔
      env.tx = tx ∧ t = [⟨.signEip1559 tx, .ok env.signature⟩] := by
  rw [signEip1559, run_ask]
  constructor
  · rintro ⟨x, t', rfl, h⟩
    cases x with
    | ok sig => obtain ⟨rfl, hw⟩ := run_ret.1 h; cases hw; exact ⟨rfl, rfl⟩
    | error e => obtain ⟨-, hw⟩ := run_fail.1 h; cases hw
  · rintro ⟨rfl, rfl⟩
    exact ⟨.ok env.signature, [], rfl, run_ret.2 ⟨rfl, rfl⟩⟩

theorem run_signEip1559_error {conv : SignerError → ε} {tx : TxEip1559} {t : BundlerTrace} {e : ε} :
    Run (signEip1559 conv tx) t (.error e) ↔
      ∃ se, e = conv se ∧ t = [⟨.signEip1559 tx, .error se⟩] := by
  rw [signEip1559, run_ask]
  constructor
  · rintro ⟨x, t', rfl, h⟩
    cases x with
    | ok sig => obtain ⟨-, hw⟩ := run_ret.1 h; cases hw
    | error se => obtain ⟨rfl, hw⟩ := run_fail.1 h; cases hw; exact ⟨se, rfl, rfl⟩
  · rintro ⟨se, rfl, rfl⟩
    exact ⟨.error se, [], rfl, run_fail.2 ⟨rfl, rfl⟩⟩

theorem asks_signEip1559 {conv : SignerError → ε} {tx : TxEip1559} {t : BundlerTrace} {o : Op} :
    Asks (signEip1559 conv tx) t o ↔ t = [] ∧ o = .signEip1559 tx := by
  rw [signEip1559, asks_ask]
  constructor
  · rintro (h | ⟨x, t', rfl, h⟩)
    · exact h
    · cases x <;> simp at h
  · exact Or.inl

theorem run_unixNow {t : BundlerTrace} {r : Except ε U64} :
    Run (unixNow : Prog Op Op.Ans ε U64) t r ↔
      ∃ d, t = [⟨.sinceEpoch, d⟩] ∧ r = .ok (d.getD 0) := by
  rw [unixNow, run_ask]
  constructor
  · rintro ⟨d, t', rfl, h⟩
    obtain ⟨rfl, rfl⟩ := run_ret.1 h
    exact ⟨d, rfl, rfl⟩
  · rintro ⟨d, rfl, rfl⟩
    exact ⟨d, [], rfl, run_ret.2 ⟨rfl, rfl⟩⟩

theorem only_await {P : Op → Prop} {conv : ProviderError → ε} {q : Query} (h : P (.rpc q)) :
    Only P (await conv q) := by
  refine ⟨h, fun x => ?_⟩
  cases x <;> trivial

end EtheraBundler

import EtheraBundler.Lib.Budget
import EtheraBundler.Exits
import EtheraBundler.Mock
/-!
# What a call may ask for

Every question of a call is asked a bounded number of times, set by the batch and by
`max_batch_size` alone: not by the answers, nor by where the call is cut.

| here | there |
| --- | --- |
| `opBudget` | one turn of the loop (`bundler.rs:138-161`) |
| `checkBudget` | everything before the lock (`:129-182`) |
| `sendBudget`, `receiptBudget` | under `_guard` (`:189-216`), and after it (`:218-239`) |

A price list says what one question of each kind counts for: `1` for all of them counts
questions, `1` for a single kind counts the questions of that kind.

* `costs_buildInner` — what is left to ask, at any point of a call.
* `call_budget` — **the budget of a call**, and the exact bill of a successful one.
-/

namespace EtheraBundler

open Interact

/-- The kinds of questions. -/
inductive OpKind where
  | baseFee
  | maxPriorityFee
  | pendingNonce
  | balanceOf
  | userOpHash
  | estimateHandleOpsGas
  | sendRawTransaction
  | waitForReceipt
  | tryCallForRevert
  | simulateValidation
  | lock
  | unlock
  | sinceEpoch
  | signEip1559
deriving DecidableEq

def Query.kind : Query → OpKind
  | .baseFee => .baseFee
  | .maxPriorityFee => .maxPriorityFee
  | .pendingNonce _ => .pendingNonce
  | .balanceOf _ _ => .balanceOf
  | .userOpHash _ _ => .userOpHash
  | .estimateHandleOpsGas _ _ _ => .estimateHandleOpsGas
  | .sendRawTransaction _ => .sendRawTransaction
  | .waitForReceipt _ _ => .waitForReceipt
  | .tryCallForRevert _ _ _ => .tryCallForRevert
  | .simulateValidation _ _ _ => .simulateValidation

def Op.kind : Op → OpKind
  | .rpc q => q.kind
  | .lock => .lock
  | .unlock => .unlock
  | .sinceEpoch => .sinceEpoch
  | .signEip1559 _ => .signEip1559

variable (price : OpKind → Nat)

/-- What a question counts for. -/
def priceOf (o : Op) : Nat := price o.kind

/-- What one op of the batch may cost. -/
def opBudget : Nat := price .balanceOf + price .simulateValidation + price .userOpHash

/-- What the checks of `n` ops may cost. -/
def checkBudget (n : Nat) : Nat :=
  price .baseFee + price .maxPriorityFee + price .sinceEpoch + n * opBudget price + price .estimateHandleOpsGas

/-- What `signed` may cost. -/
def sendBudget (submit : Bool) : Nat :=
  price .pendingNonce + price .signEip1559 +
    if submit then price .lock + price .sendRawTransaction + price .unlock else 0

/-- What a receipt that says success costs. -/
def receiptCost (submit : Bool) : Nat := if submit then price .waitForReceipt else 0

/-- What `awaitReceipt` may cost: a failed receipt is followed by the replay. -/
def receiptBudget (submit : Bool) : Nat :=
  receiptCost price submit + if submit then price .tryCallForRevert else 0

/-- What a call with `n` ops may cost. -/
def callBudget (n : Nat) (submit : Bool) : Nat :=
  checkBudget price n + sendBudget price submit + receiptBudget price submit

variable {price} {A : Alloy} {b : Bundler} {ops : List UserOpV07} {opts : BuildOpts} {ε : Type}

/-! ## Piece by piece -/

theorem costs_await {conv : ProviderError → ε} {q : Query} :
    Costs (priceOf price) (await conv q) (price q.kind) := by
  refine ⟨0, rfl, fun x => ?_⟩
  cases x <;> trivial

theorem costs_rpc (q : Query) : Costs (priceOf price) (rpc q) (price q.kind) := costs_await

theorem costs_signEip1559 {conv : SignerError → ε} {tx : TxEip1559} :
    Costs (priceOf price) (signEip1559 conv tx) (price .signEip1559) := by
  refine ⟨0, rfl, fun x => ?_⟩
  cases x <;> trivial

theorem costs_unixNow : Costs (priceOf price) (unixNow : M U64) (price .sinceEpoch) :=
  ⟨0, rfl, fun _ => trivial⟩

theorem costs_checkOp {baseFee : U256} {nowUnix : U64} {i : Nat} {acc : LoopAcc} {op : UserOpV07} :
    Costs (priceOf price) (checkOp b baseFee nowUnix i acc op) (opBudget price) := by
  have hprefund (packed : PackedUserOperation) :
      Costs (priceOf price) (checkPrefund b i op packed) (0 + (price .balanceOf + 0)) := by
    exact Costs.bind costs_exit fun _ => Costs.bind (costs_rpc (.balanceOf _ _)) fun _ => costs_failIf
  have hsimulate (packed : PackedUserOperation) :
      Costs (priceOf price) (simulate b.cfg.entrypointAddress b.simulationsCode packed nowUnix)
        (price .simulateValidation + 0) := by
    exact Costs.bind (costs_await (q := .simulateValidation _ _ _)) fun _ => costs_exit
  have h : Costs (priceOf price) (checkOp b baseFee nowUnix i acc op)
      (0 + (0 + ((0 + (price .balanceOf + 0)) + ((price .simulateValidation + 0) + (price .userOpHash + 0))))) := by
    refine Costs.bind costs_exit fun _ => Costs.bind costs_exit fun packed => ?_
    refine Costs.bind (hprefund packed) fun _ => Costs.bind (hsimulate packed).mapFail fun _ => ?_
    exact Costs.bind (costs_rpc (.userOpHash _ _)) fun _ => costs_ret
  exact h.mono (by unfold opBudget; omega)

theorem costs_opLoop {baseFee : U256} {nowUnix : U64} : ∀ {ops : List UserOpV07} {i : Nat} {acc : LoopAcc},
    Costs (priceOf price) (opLoop b baseFee nowUnix i acc ops) (ops.length * opBudget price)
  | [], _, _ => costs_ret
  | op :: ops, i, acc => by
    refine (Costs.bind costs_checkOp fun _ => costs_opLoop).mono ?_
    rw [List.length_cons, Nat.add_mul]
    omega

theorem costs_prepare : Costs (priceOf price) (prepare A b ops) (checkBudget price ops.length) := by
  rw [prepare_eq]
  refine Costs.mono (n := price .baseFee + (price .maxPriorityFee + (price .sinceEpoch +
    (ops.length * opBudget price + (price .estimateHandleOpsGas + 0))))) ?_ (by unfold checkBudget; omega)
  refine Costs.bind (costs_rpc .baseFee) fun _ => Costs.bind (costs_rpc .maxPriorityFee) fun _ => ?_
  refine Costs.bind costs_unixNow fun _ => Costs.bind costs_opLoop fun _ => ?_
  exact Costs.bind (costs_rpc (.estimateHandleOpsGas _ _ _)) fun _ => costs_exit

theorem costs_signAndSend {p : Prepared} : Costs (priceOf price) (signAndSend A b opts p)
    (price .pendingNonce + price .signEip1559 + if opts.submit then price .sendRawTransaction else 0) := by
  have hbroadcast (tx : SignedTx) : Costs (priceOf price) (broadcast b opts tx)
      (if opts.submit then price .sendRawTransaction else 0) := by
    unfold broadcast
    by_cases hs : opts.submit = true
    · rw [if_pos hs, if_pos hs]
      exact Costs.bind (m := 0) (costs_rpc (.sendRawTransaction _)) fun _ => costs_failIf
    · rw [if_neg hs, if_neg hs]
      exact costs_ret
  refine Costs.mono (n := price .pendingNonce + (0 + (price .signEip1559 +
    ((if opts.submit then price .sendRawTransaction else 0) + 0)))) ?_ (by omega)
  refine Costs.bind (costs_rpc (.pendingNonce _)) fun _ => Costs.bind costs_exit fun _ => ?_
  refine Costs.bind costs_signEip1559 fun env => ?_
  exact Costs.bind (hbroadcast _) fun _ => costs_ret

theorem costs_signed {p : Prepared} :
    Costs (priceOf price) (signed A b opts p) (sendBudget price opts.submit) := by
  have h : Costs (priceOf price) (signAndSend A b opts p) _ := costs_signAndSend
  unfold signed sendBudget
  by_cases hs : opts.submit = true
  · rw [if_pos hs] at h ⊢
    rw [if_pos hs]
    refine h.withGuard.mono ?_
    show price .lock + (_ + price .unlock) ≤ _
    omega
  · rw [if_neg hs] at h ⊢
    rw [if_neg hs]
    exact h

theorem costs_awaitReceipt {callData : Bytes} {hash : B256} :
    Costs (priceOf price) (awaitReceipt A b opts callData hash) (receiptBudget price opts.submit) := by
  unfold awaitReceipt receiptBudget receiptCost
  by_cases hs : opts.submit = true
  · simp only [if_pos hs]
    refine Costs.bind (costs_rpc (.waitForReceipt _ _)) fun receipt => ?_
    rcases receipt with - | receipt
    · exact costs_fail
    simp only
    by_cases hr : receipt.success = true
    · rw [if_pos hr]
      exact costs_ret
    · rw [if_neg hr]
      exact Costs.bind (m := 0) (costs_rpc (.tryCallForRevert _ _ _)) fun _ => costs_fail
  · rw [if_neg hs]
    exact costs_ret

/-! ## The whole call -/

/-- A batch that is too large is asked nothing about. -/
theorem costs_buildInner :
    Costs (priceOf price) (buildInner A b ops opts)
      (callBudget price (min ops.length b.cfg.maxBatchSize) opts.submit) := by
  unfold buildInner
  rcases hsan : sanity b ops opts with e | u
  · exact costs_fail
  have hlen : min ops.length b.cfg.maxBatchSize = ops.length := by
    unfold sanity at hsan
    split at hsan
    · cases hsan
    split at hsan
    · cases hsan
    split at hsan
    · cases hsan
    · rename_i hle
      exact Nat.min_eq_left (by omega)
  rw [hlen]
  refine Costs.mono (n := 0 + (checkBudget price ops.length + (sendBudget price opts.submit +
    (receiptBudget price opts.submit + 0)))) ?_ (by unfold callBudget; omega)
  refine Costs.bind costs_exit fun _ => Costs.bind costs_prepare fun p => Costs.bind costs_signed fun tx => ?_
  exact Costs.bind costs_awaitReceipt fun _ => costs_ret

theorem spent_checked {baseFee : U256} {nowUnix : U64} (cs : List (CheckedOp b baseFee nowUnix)) :
    spent (priceOf price) (cs.flatMap (·.events)) = cs.length * opBudget price := by
  induction cs with
  | nil => simp
  | cons c cs ih =>
    rw [List.flatMap_cons, spent_append, ih, List.length_cons, Nat.add_mul]
    show price .balanceOf + (price .simulateValidation + (price .userOpHash + 0)) + _ = _
    unfold opBudget
    omega

theorem spent_events (s : Settled b ops) : spent (priceOf price) (s.events A) = checkBudget price ops.length := by
  have hlen : s.checked.length = ops.length := by
    have h := congrArg List.length s.ops_eq
    rwa [List.length_map] at h
  unfold Settled.events
  rw [spent_append, spent_append, spent_checked, hlen]
  show price .baseFee + (price .maxPriorityFee + (price .sinceEpoch + 0)) + _ +
    (price .estimateHandleOpsGas + 0) = _
  unfold checkBudget
  omega

/-- **The budget of a call.** For every price list: whatever a call is asked to build, however it is
answered and wherever it is cut, its questions so far cost no more than the budget of a batch of at
most `max_batch_size` ops; and a call that returns a transaction asked everything of that budget
but the replay, for each of its ops. -/
theorem call_budget (price : OpKind → Nat) (A : Alloy) (b : Bundler) (ops : List UserOpV07) (opts : BuildOpts)
    (t : BundlerTrace) (q : M SignedTxResp) (h : After (buildInner A b ops opts) t q) :
    spent (priceOf price) t ≤ callBudget price (min ops.length b.cfg.maxBatchSize) opts.submit ∧
    ∀ resp, q = .ret resp → spent (priceOf price) t =
      checkBudget price ops.length + sendBudget price opts.submit + receiptCost price opts.submit := by
  refine ⟨costs_buildInner.spent_le h, ?_⟩
  rintro resp rfl
  have hrun : Run (buildInner A b ops opts) t (.ok resp) := h
  obtain ⟨s, nonce, env, submitted, receipt, -, -, rfl⟩ := run_buildInner_ok hrun
  rw [spent_append, spent_append, spent_events]
  unfold guardEvents broadcastEvents receiptEvents sendBudget receiptCost
  by_cases hs : opts.submit = true
  · simp only [if_pos hs, spent_cons, spent_nil, List.cons_append, List.nil_append]
    show _ + (price .lock + (price .pendingNonce + (price .signEip1559 + (price .sendRawTransaction +
      (price .unlock + 0)))) + (price .waitForReceipt + 0)) = _
    omega
  · simp only [if_neg hs, spent_cons, spent_nil]
    show _ + (price .pendingNonce + (price .signEip1559 + 0) + 0) = _
    omega

/-- The submit of a single op that goes well asks 13 questions. -/
theorem call_budget_happy : ∃ t resp,
    Run (buildInner alloy testBundler [happyOp] submitOpts) t (.ok resp) ∧ t.length = 13 := by
  obtain ⟨resp, hresp⟩ : ∃ resp, (exec mockAnswer (buildInner alloy testBundler [happyOp] submitOpts)).2 =
    .ok resp := ⟨_, rfl⟩
  have hrun := exec_run mockAnswer (buildInner alloy testBundler [happyOp] submitOpts)
  rw [hresp] at hrun
  have h := (call_budget (fun _ => 1) alloy testBundler [happyOp] submitOpts _ _ hrun).2 resp rfl
  refine ⟨_, resp, hrun, ?_⟩
  rw [← spent_one]
  exact h

end EtheraBundler

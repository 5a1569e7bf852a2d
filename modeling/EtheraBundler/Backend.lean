import EtheraBundler.Budget
import EtheraBundler.Lib.Handler
import EtheraBundler.Receipt
/-!
# A call over JSON-RPC

`build_inner` asks an `EthProvider`. In production that is `AlloyProvider`, and each of its methods
is itself a program, over the requests of an RPC client.

| here | there |
| --- | --- |
| `NodeOp` | `inner.get_chain_id()` and the like, `ep.balanceOf(..).call()`, `ep.getUserOpHash(..).call()` |
| `AlloyProvider.chainId` … `AlloyProvider.sendRawTransaction` | `provider.rs:130-204`, `:222-229` |
| `AlloyProvider.method` | `impl EthProvider for AlloyProvider`, the methods the pipeline calls |
| `callOverRpc` | `build_inner` (`bundler.rs:108-252`) on an `AlloyProvider` |

`estimateHandleOpsGas`, `tryCallForRevert`, `simulateValidation` and `waitForReceipt` are those of
`Provider.lean` and `Receipt.lean`.

* `Alloyed` — what the answers of an `AlloyProvider` have in common, whatever the node says.
-/

namespace EtheraBundler

open Interact

/-! ## The methods -/

/-- `Header`, the field `base_fee` reads. -/
structure Block where
  baseFeePerGas : Option U64

/-- Requests of which the provider reads the value, or the error's `to_string()`. -/
inductive NodeOp where
  | getChainId
  | getBlockByNumberLatest
  | getMaxPriorityFeePerGas
  | getTransactionCountPending (addr : Address)
  | getBalance (addr : Address)
  | getCodeAt (addr : Address)
  | balanceOf (contract account : Address)
  | getUserOpHash (contract : Address) (op : PackedUserOperation)
  | sendRawTransaction (raw : Bytes)

@[reducible] def NodeOp.Val : NodeOp → Type
  | .getChainId => U64
  | .getBlockByNumberLatest => Option Block
  | .getMaxPriorityFeePerGas => U128
  | .getTransactionCountPending _ => U64
  | .getBalance _ => U256
  | .getCodeAt _ => Bytes
  | .balanceOf _ _ => U256
  | .getUserOpHash _ _ => B256
  | .sendRawTransaction _ => B256

@[reducible] def NodeOp.Ans (o : NodeOp) : Type := Except String o.Val

namespace AlloyProvider

/-- `request.await.map_err(|e| ProviderError::Transport(e.to_string()))`. -/
def request (o : NodeOp) : Prog NodeOp NodeOp.Ans ProviderError o.Val :=
  .ask o fun
    | .ok v => .ret v
    | .error e => .fail (.transport e)

/-- `chain_id` (`provider.rs:130-135`). -/
def chainId : Prog NodeOp NodeOp.Ans ProviderError U64 := request .getChainId

/-- `base_fee` (`provider.rs:137-147`): a block without a base fee counts as one of 0. -/
def baseFee : Prog NodeOp NodeOp.Ans ProviderError U256 := do
  match ← request .getBlockByNumberLatest with
  | none => .fail (.transport "latest block missing")
  | some block => return (block.baseFeePerGas.getD 0).setWidth 256

/-- `max_priority_fee` (`provider.rs:149-156`). -/
def maxPriorityFee : Prog NodeOp NodeOp.Ans ProviderError U256 := do
  let tip ← request .getMaxPriorityFeePerGas
  return tip.setWidth 256

/-- `pending_nonce` (`provider.rs:158-164`). -/
def pendingNonce (addr : Address) : Prog NodeOp NodeOp.Ans ProviderError U64 :=
  request (.getTransactionCountPending addr)

/-- `balance` (`provider.rs:166-171`). -/
def balance (addr : Address) : Prog NodeOp NodeOp.Ans ProviderError U256 := request (.getBalance addr)

/-- `get_code` (`provider.rs:173-178`). -/
def getCode (addr : Address) : Prog NodeOp NodeOp.Ans ProviderError Bytes := request (.getCodeAt addr)

/-- `balance_of` (`provider.rs:180-191`). -/
def balanceOf (entrypoint account : Address) : Prog NodeOp NodeOp.Ans ProviderError U256 :=
  request (.balanceOf entrypoint account)

/-- `user_op_hash` (`provider.rs:193-204`). -/
def userOpHash (entrypoint : Address) (op : PackedUserOperation) : Prog NodeOp NodeOp.Ans ProviderError B256 :=
  request (.getUserOpHash entrypoint op)

/-- `send_raw_transaction` (`provider.rs:222-229`). -/
def sendRawTransaction (raw : Bytes) : Prog NodeOp NodeOp.Ans ProviderError B256 :=
  request (.sendRawTransaction raw)

end AlloyProvider

/-! ## The whole call -/

/-- Everything a call asks of what is outside of it. -/
inductive RawOp where
  | node (o : NodeOp)
  | eth (o : Rpc)
  | receipt (o : ReceiptOp)
  | lock
  | unlock
  | sinceEpoch
  | signEip1559 (tx : TxEip1559)

@[reducible] def RawOp.Ans : RawOp → Type
  | .node o => o.Ans
  | .eth o => o.Ans
  | .receipt o => o.Ans
  | .lock => Unit
  | .unlock => Unit
  | .sinceEpoch => Option U64
  | .signEip1559 _ => Except SignerError Signature

abbrev RawTrace := Trace RawOp RawOp.Ans

/-- The ways out of a call over JSON-RPC other than `Ok`; `outOfFuel` is the model's own. -/
inductive RawExit where
  | call (e : Exit)
  | time (p : TimePanic)
  | outOfFuel
deriving DecidableEq

/-- The methods' errors are answers to the pipeline. -/
def answered (e : ProviderError) : Except RawExit ProviderError := .ok e

/-- A receipt wait can also panic, and then the call does. -/
def waitAnswered : WaitExit → Except RawExit ProviderError
  | .err e => .ok e
  | .panic p => .error (.time p)
  | .outOfFuel => .error .outOfFuel

variable {α : Type}

def overNode (p : Prog NodeOp NodeOp.Ans ProviderError α) : Prog RawOp RawOp.Ans RawExit (Except ProviderError α) :=
  (p.attempt answered).relabel .node fun _ y => y

def overEth (p : Prog Rpc Rpc.Ans ProviderError α) : Prog RawOp RawOp.Ans RawExit (Except ProviderError α) :=
  (p.attempt answered).relabel .eth fun _ y => y

def overReceipt (p : Prog ReceiptOp ReceiptOp.Ans WaitExit α) : Prog RawOp RawOp.Ans RawExit (Except ProviderError α) :=
  (p.attempt waitAnswered).relabel .receipt fun _ y => y

/-- `impl EthProvider for AlloyProvider` (`provider.rs:128-315`). -/
def AlloyProvider.method (A : Alloy) (fuel maxInstant : Nat) : (q : Query) →
    Prog RawOp RawOp.Ans RawExit (Except ProviderError q.Val)
  | .baseFee => overNode baseFee
  | .maxPriorityFee => overNode maxPriorityFee
  | .pendingNonce addr => overNode (pendingNonce addr)
  | .balanceOf entrypoint account => overNode (balanceOf entrypoint account)
  | .userOpHash entrypoint op => overNode (userOpHash entrypoint op)
  | .estimateHandleOpsGas src entrypoint callData => overEth (estimateHandleOpsGas src entrypoint callData)
  | .sendRawTransaction raw => overNode (sendRawTransaction raw)
  | .waitForReceipt hash timeoutSecs => overReceipt (waitForReceipt fuel maxInstant hash (secs timeoutSecs))
  | .tryCallForRevert src dest callData => overEth (tryCallForRevert src dest callData)
  | .simulateValidation entrypoint code op => overEth (simulateValidation A entrypoint code op)

/-- A question of the pipeline, put to the `AlloyProvider` or passed on as it is. -/
def surroundings (A : Alloy) (fuel maxInstant : Nat) : (o : Op) → Prog RawOp RawOp.Ans RawExit o.Ans
  | .rpc q => AlloyProvider.method A fuel maxInstant q
  | .lock => .ask .lock .ret
  | .unlock => .ask .unlock .ret
  | .sinceEpoch => .ask .sinceEpoch .ret
  | .signEip1559 tx => .ask (.signEip1559 tx) .ret

/-- `build_inner` on an `AlloyProvider`. -/
def callOverRpc (A : Alloy) (fuel maxInstant : Nat) (b : Bundler) (ops : List UserOpV07) (opts : BuildOpts) :
    Prog RawOp RawOp.Ans RawExit SignedTxResp :=
  ((buildInner A b ops opts).mapFail .call).via (surroundings A fuel maxInstant)

/-! ## What the methods answer -/

section Methods

variable {A : Alloy} {fuel maxInstant : Nat} {v : RawTrace}

abbrev nodeEvent (e : Event NodeOp NodeOp.Ans) : Event RawOp RawOp.Ans := ⟨.node e.1, e.2⟩

abbrev ethEvent (e : Event Rpc Rpc.Ans) : Event RawOp RawOp.Ans := ⟨.eth e.1, e.2⟩

abbrev receiptEvent (e : Event ReceiptOp ReceiptOp.Ans) : Event RawOp RawOp.Ans := ⟨.receipt e.1, e.2⟩

/-- Renaming the questions alone is a map over the trace. -/
theorem eq_map_of_renames {Op : Type} {Ans : Op → Type} {emb : Op → RawOp} {ret : (o : Op) → (emb o).Ans → Ans o}
    {f : Event Op Ans → Event RawOp RawOp.Ans} (hf : ∀ e e', Renames emb ret e e' → e' = f e) {t : Trace Op Ans}
    (h : List.Forall₂ (Renames emb ret) t v) : v = t.map f := by
  induction h with
  | nil => rfl
  | cons he _ ih => rw [List.map_cons, hf _ _ he, ih]

theorem run_overNode {p : Prog NodeOp NodeOp.Ans ProviderError α} {r : Except RawExit (Except ProviderError α)}
    (h : Run (overNode p) v r) : ∃ t x, v = t.map nodeEvent ∧ Run p t x ∧ r = .ok x := by
  obtain ⟨t, ht, hr⟩ := run_relabel h
  obtain ⟨x, hx, rfl⟩ := run_attempt.1 hr
  refine ⟨t, x, eq_map_of_renames ?_ ht, hx, ?_⟩
  · rintro ⟨o, x⟩ e' ⟨y, rfl, rfl⟩
    rfl
  · cases x <;> rfl

theorem run_overEth {p : Prog Rpc Rpc.Ans ProviderError α} {r : Except RawExit (Except ProviderError α)}
    (h : Run (overEth p) v r) : ∃ t x, v = t.map ethEvent ∧ Run p t x ∧ r = .ok x := by
  obtain ⟨t, ht, hr⟩ := run_relabel h
  obtain ⟨x, hx, rfl⟩ := run_attempt.1 hr
  refine ⟨t, x, eq_map_of_renames ?_ ht, hx, ?_⟩
  · rintro ⟨o, x⟩ e' ⟨y, rfl, rfl⟩
    rfl
  · cases x <;> rfl

theorem run_overReceipt {p : Prog ReceiptOp ReceiptOp.Ans WaitExit α} {r : Except RawExit (Except ProviderError α)}
    (h : Run (overReceipt p) v r) :
    ∃ t x, v = t.map receiptEvent ∧ Run p t x ∧ r = attempted waitAnswered x := by
  obtain ⟨t, ht, hr⟩ := run_relabel h
  obtain ⟨x, hx, rfl⟩ := run_attempt.1 hr
  refine ⟨t, x, eq_map_of_renames ?_ ht, hx, rfl⟩
  rintro ⟨o, x⟩ e' ⟨y, rfl, rfl⟩
  rfl

theorem run_request {o : NodeOp} {t : Trace NodeOp NodeOp.Ans} {r : Except ProviderError o.Val} :
    Run (AlloyProvider.request o) t r ↔ ∃ x : o.Ans, t = [⟨o, x⟩] ∧ r = x.mapError .transport := by
  rw [AlloyProvider.request, run_ask]
  constructor
  · rintro ⟨x, t', rfl, h⟩
    refine ⟨x, ?_⟩
    rcases x with e | w
    · obtain ⟨rfl, rfl⟩ := run_fail.1 h
      exact ⟨rfl, rfl⟩
    · obtain ⟨rfl, rfl⟩ := run_ret.1 h
      exact ⟨rfl, rfl⟩
  · rintro ⟨x, rfl, rfl⟩
    refine ⟨x, [], rfl, ?_⟩
    rcases x with e | w
    · exact run_fail.2 ⟨rfl, rfl⟩
    · exact run_ret.2 ⟨rfl, rfl⟩

/-- What an `AlloyProvider` can answer: a base fee is one word of a block header and a tip is 128
bits, a receipt is the one asked for, a replay is never an `Err`, and the only errors that are not
the client's own text are those of `simulate_validation`. -/
def AlloyAnswer : (q : Query) → Except ProviderError q.Val → Prop
  | .baseFee, .ok fee => fee.toNat < 2 ^ 64
  | .maxPriorityFee, .ok tip => tip.toNat < 2 ^ 128
  | .waitForReceipt hash _, .ok receipt => ∀ info, receipt = some info → info.txHash = hash
  | .tryCallForRevert _ _ _, .error _ => False
  | .simulateValidation _ _ _, .error _ => True
  | _, .error pe => ∃ msg, pe = .transport msg
  | _, .ok _ => True

/-- Every answer of the provider is one of an `AlloyProvider`. -/
def Alloyed (t : BundlerTrace) : Prop := ∀ q x, ⟨.rpc q, x⟩ ∈ t → AlloyAnswer q x

theorem toNat_setWidth_lt {n m w : Nat} (x : BitVec w) (hw : w ≤ m) : (x.setWidth n).toNat < 2 ^ m := by
  rw [BitVec.toNat_setWidth]
  have hle : x.toNat % 2 ^ n ≤ x.toNat := Nat.mod_le _ _
  have hlt : x.toNat < 2 ^ m := Nat.lt_of_lt_of_le x.isLt (Nat.pow_le_pow_right (by decide) hw)
  omega

/-- A method that is one request. -/
theorem run_overNode_request {o : NodeOp} {x : Except ProviderError o.Val}
    (h : Run (overNode (AlloyProvider.request o)) v (.ok x)) :
    ∃ y : o.Ans, v = [⟨.node o, y⟩] ∧ x = y.mapError .transport := by
  obtain ⟨t, x', rfl, hr, he⟩ := run_overNode h
  cases he
  obtain ⟨y, rfl, rfl⟩ := run_request.1 hr
  exact ⟨y, rfl, rfl⟩

theorem transport_of_request {o : NodeOp} {pe : ProviderError}
    (h : Run (overNode (AlloyProvider.request o)) v (.ok (.error pe))) : ∃ msg, pe = .transport msg := by
  obtain ⟨y, -, he⟩ := run_overNode_request h
  cases y with
  | error msg =>
    cases he
    exact ⟨msg, rfl⟩
  | ok w => cases he

/-- The ends of one round of the wait, whatever the clock. -/
theorem run_pollRound {hash : B256} {deadline backoff : Nat} {t : WaitTrace}
    {r : Except WaitExit (Option ReceiptInfo ⊕ Nat)} (h : Run (AlloyProvider.pollRound hash deadline backoff) t r) :
    (∀ info, r = .ok (.inl (some info)) → info.txHash = hash) ∧
      ∀ pe, r = .error (.err pe) → ∃ msg, pe = .transport msg := by
  unfold AlloyProvider.pollRound at h
  obtain ⟨x, t₁, rfl, h1⟩ := run_ask.1 h
  rcases x with e | - | receipt
  · obtain ⟨-, rfl⟩ := run_fail.1 h1
    refine ⟨by simp, fun pe hpe => ?_⟩
    cases hpe
    exact ⟨_, rfl⟩
  · obtain ⟨now, t₂, rfl, h2⟩ := run_ask.1 h1
    by_cases hd : now ≥ deadline
    · rw [if_pos hd] at h2
      obtain ⟨-, rfl⟩ := run_ret.1 h2
      exact ⟨by simp, by simp⟩
    rw [if_neg hd] at h2
    rcases run_bind.1 h2 with ⟨e, rfl, he⟩ | ⟨_, _, remaining, rfl, -, h3⟩
    · have hlt : now < deadline := Nat.lt_of_not_le hd
      have hsub : instantSub deadline now = .ok (deadline - now) := if_pos (Nat.le_of_lt hlt)
      rw [hsub] at he
      cases (run_exit.1 he).2
    obtain ⟨_, t₃, rfl, h4⟩ := run_ask.1 h3
    rcases run_bind.1 h4 with ⟨e, rfl, he⟩ | ⟨_, _, doubled, rfl, -, h5⟩
    · obtain ⟨-, hr⟩ := run_exit.1 he
      unfold durationMul at hr
      split at hr
      · cases hr
      · cases hr
        exact ⟨by simp, by simp⟩
    · obtain ⟨-, rfl⟩ := run_ret.1 h5
      exact ⟨by simp, by simp⟩
  · obtain ⟨-, rfl⟩ := run_ret.1 h1
    refine ⟨fun info hinfo => ?_, by simp⟩
    cases hinfo
    rfl

/-- The ends of a wait, whatever the clock. -/
theorem run_waitForReceipt {hash : B256} {timeout : Nat} {t : WaitTrace} {r : Except WaitExit (Option ReceiptInfo)}
    (h : Run (AlloyProvider.waitForReceipt fuel maxInstant hash timeout) t r) :
    (∀ info, r = .ok (some info) → info.txHash = hash) ∧ ∀ pe, r = .error (.err pe) → ∃ msg, pe = .transport msg := by
  unfold AlloyProvider.waitForReceipt at h
  obtain ⟨start, t₁, rfl, h1⟩ := run_ask.1 h
  rcases run_bind.1 h1 with ⟨e, rfl, he⟩ | ⟨_, _, deadline, rfl, -, h2⟩
  · obtain ⟨-, hr⟩ := run_exit.1 he
    unfold instantAdd at hr
    split at hr
    · cases hr
    · cases hr
      exact ⟨by simp, by simp⟩
  rcases run_loop h2 with rfl | ⟨backoff, u, ⟨a, rfl, hround⟩ | ⟨e, rfl, hround⟩⟩
  · exact ⟨by simp, by simp⟩
  · refine ⟨fun info hinfo => (run_pollRound hround).1 info ?_, by simp⟩
    cases hinfo
    rfl
  · refine ⟨by simp, fun pe hpe => (run_pollRound hround).2 pe ?_⟩
    cases hpe
    rfl

/-- **Every method keeps to what an `AlloyProvider` can answer.** -/
theorem method_answer {q : Query} {x : Except ProviderError q.Val}
    (h : Run (AlloyProvider.method A fuel maxInstant q) v (.ok x)) : AlloyAnswer q x := by
  cases q with
  | baseFee =>
    obtain ⟨t, x', rfl, hr, he⟩ := run_overNode h
    cases he
    unfold AlloyProvider.baseFee at hr
    rcases x with pe | fee
    · rcases run_bind_error.1 hr with hr | ⟨_, _, block, rfl, -, hr⟩
      · obtain ⟨y, -, hy⟩ := run_request.1 hr
        cases y with
        | error msg =>
          cases hy
          exact ⟨msg, rfl⟩
        | ok w => cases hy
      · rcases block with - | block
        · cases (run_fail.1 hr).2
          exact ⟨_, rfl⟩
        · cases (run_ret.1 hr).2
    · obtain ⟨_, _, block, rfl, -, hr⟩ := run_bind_ok.1 hr
      rcases block with - | block
      · cases (run_fail.1 hr).2
      · cases (run_ret.1 hr).2
        exact toNat_setWidth_lt _ (by decide)
  | maxPriorityFee =>
    obtain ⟨t, x', rfl, hr, he⟩ := run_overNode h
    cases he
    unfold AlloyProvider.maxPriorityFee at hr
    rcases x with pe | tip
    · rcases run_bind_error.1 hr with hr | ⟨_, _, tip, rfl, -, hr⟩
      · obtain ⟨y, -, hy⟩ := run_request.1 hr
        cases y with
        | error msg =>
          cases hy
          exact ⟨msg, rfl⟩
        | ok w => cases hy
      · cases (run_ret.1 hr).2
    · obtain ⟨_, _, tip', rfl, -, hr⟩ := run_bind_ok.1 hr
      cases (run_ret.1 hr).2
      exact toNat_setWidth_lt _ (by decide)
  | pendingNonce addr =>
    rcases x with pe | n
    · exact transport_of_request h
    · trivial
  | balanceOf entrypoint account =>
    rcases x with pe | n
    · exact transport_of_request h
    · trivial
  | userOpHash entrypoint op =>
    rcases x with pe | n
    · exact transport_of_request h
    · trivial
  | sendRawTransaction raw =>
    rcases x with pe | n
    · exact transport_of_request h
    · trivial
  | estimateHandleOpsGas src entrypoint callData =>
    rcases x with pe | gas
    · obtain ⟨t, x', rfl, hr, he⟩ := run_overEth h
      cases he
      obtain ⟨y, t', rfl, hy⟩ := run_ask.1 hr
      rcases y with e | gas
      · cases (run_fail.1 hy).2
        exact ⟨_, rfl⟩
      · cases (run_ret.1 hy).2
    · trivial
  | waitForReceipt hash timeoutSecs =>
    obtain ⟨t, x', rfl, hr, he⟩ := run_overReceipt h
    obtain ⟨hok, herr⟩ := run_waitForReceipt hr
    rcases x' with (pe | p | -) | receipt
    · cases he
      exact herr pe rfl
    · cases he
    · cases he
    · cases he
      intro info hinfo
      exact hok info (congrArg _ hinfo)
  | tryCallForRevert src dest callData =>
    rcases x with pe | data
    · obtain ⟨t, x', rfl, hr, he⟩ := run_overEth h
      cases he
      obtain ⟨y, t', rfl, hy⟩ := run_ask.1 hr
      rcases y with e | ret
      · cases (run_ret.1 hy).2
      · cases (run_ret.1 hy).2
    · trivial
  | simulateValidation entrypoint code op =>
    rcases x with pe | result
    · trivial
    · trivial

/-- The answers behind a run below are those of an `AlloyProvider`. -/
theorem alloyed_of_handled {t : BundlerTrace} (h : Handled (surroundings A fuel maxInstant) t v) : Alloyed t := by
  intro q x hm
  obtain ⟨u, u₁, u₂, -, hr⟩ := h.of_mem hm
  exact method_answer hr

end Methods

end EtheraBundler

import EtheraBundler.Exits
import EtheraBundler.Provider
/-!
# The error code of an EntryPoint rejection, route by route

An EntryPoint rejection (`FailedOp`, `FailedOpWithRevert`) reaches the bundler as revert data on
one of three requests: the `simulateValidation` call, the gas estimate of `handleOps`, the
replay of a mined `handleOps`. The first two lose the data in `e.to_string()`
(`provider.rs:206-220`, `:279-314`), the third one keeps it (`:261-277`).

* `Learned` — how `AlloyProvider` passes a reverting node on, route by route.
* `yields_simulation`, `yields_gasEstimate`, `yields_minedReplay` — the error a call then ends in.
* `codes_by_route` — **the codes**: internal error on the first two routes, the classified code
  on the third, for every rejection.
-/

namespace EtheraBundler

open Interact

variable {A : Alloy} {b : Bundler} {ops : List UserOpV07} {opts : BuildOpts} {t : BundlerTrace}

/-! ## Provider errors before the lock -/

/-- How `build_inner` reports the error of a provider call. -/
def reportedAs (q : Query) (pe : ProviderError) : BundlerError :=
  match q with
  | .simulateValidation _ _ _ => .validation (.provider pe)
  | _ => .provider pe

/-- The exit a provider error calls for. -/
def rpcFailure : Event Op Op.Ans → Option Exit
  | ⟨.rpc q, .error pe⟩ => some (.err (reportedAs q pe))
  | _ => none

theorem stopsOn_rpc {q : Query} (hq : ∀ pe, reportedAs q pe = .provider pe) : StopsOn rpcFailure (rpc q) := by
  intro x
  rcases x with pe | v
  · refine ⟨fun e he => ?_, fun hn => by cases hn⟩
    rw [rpcFailure, hq, Option.some.injEq] at he
    rw [← he]
  · exact ⟨fun e he => (by cases he), fun _ => trivial⟩

theorem stopsOn_checkOp {baseFee : U256} {nowUnix : U64} {i : Nat} {acc : LoopAcc} {op : UserOpV07} :
    StopsOn rpcFailure (checkOp b baseFee nowUnix i acc op) := by
  unfold checkOp
  refine StopsOn.bind stopsOn_exit fun _ => StopsOn.bind stopsOn_exit fun packed => StopsOn.bind ?_ fun _ => ?_
  · exact StopsOn.bind stopsOn_exit fun _ => StopsOn.bind (stopsOn_rpc fun _ => rfl) fun _ => stopsOn_failIf
  refine StopsOn.bind (fun x => ?_) fun _ => StopsOn.bind (stopsOn_rpc fun _ => rfl) fun _ => trivial
  rcases x with pe | v
  · exact ⟨fun e he => (by cases he; rfl), fun hn => (by cases hn)⟩
  · refine ⟨fun e he => (by cases he), fun _ => ?_⟩
    show StopsOn rpcFailure ((Prog.exit (judge v nowUnix)).mapFail _)
    rcases judge v nowUnix with e | report <;> trivial

theorem stopsOn_opLoop {baseFee : U256} {nowUnix : U64} : ∀ {ops : List UserOpV07} {i : Nat} {acc : LoopAcc},
    StopsOn rpcFailure (opLoop b baseFee nowUnix i acc ops)
  | [], _, _ => trivial
  | _ :: _, _, _ => StopsOn.bind stopsOn_checkOp fun _ => stopsOn_opLoop

/-- Before the lock the first provider error ends the call. -/
theorem stopsOn_prepare : StopsOn rpcFailure (prepare A b ops) := by
  rw [prepare_eq]
  refine StopsOn.bind (stopsOn_rpc fun _ => rfl) fun _ => StopsOn.bind (stopsOn_rpc fun _ => rfl) fun _ => ?_
  refine StopsOn.bind (fun x => ⟨fun e he => (by cases he), fun _ => trivial⟩) fun _ => ?_
  exact StopsOn.bind stopsOn_opLoop fun _ => StopsOn.bind (stopsOn_rpc fun _ => rfl) fun _ => stopsOn_exit

/-- No check of a settled batch was answered with an error. -/
theorem Settled.no_error {s : Settled b ops} {q : Query} {pe : ProviderError} :
    ⟨.rpc q, .error pe⟩ ∉ s.events A := by
  intro hm
  have hrun : Run (prepare A b ops) (s.events A) _ := run_prepare_ok.2 ⟨s, rfl, rfl⟩
  obtain ⟨t₁, t₂, ht⟩ := List.append_of_mem hm
  rw [ht] at hrun
  cases (stopsOn_prepare.run hrun rfl).2

/-- **A provider error on a check ends the call**, and is reported as it is. -/
theorem run_check_error {q : Query} {pe : ProviderError} {r : Except Exit SignedTxResp}
    (h : Run (buildInner A b ops opts) (t ++ [⟨.rpc q, .error pe⟩]) r) (hq : Op.isCheck (.rpc q)) :
    r = .error (.err (reportedAs q pe)) := by
  have hm : (⟨.rpc q, .error pe⟩ : Event Op Op.Ans) ∈ t ++ [⟨.rpc q, .error pe⟩] := by simp
  generalize ht : t ++ [⟨.rpc q, .error pe⟩] = t' at h hm
  cases run_buildInner_cases h with
  | insane e he => cases hm
  | unprepared t' e he =>
    rw [← ht] at he
    exact congrArg _ (Except.error.inj (stopsOn_prepare.run he rfl).2)
  | unsigned s u e hu =>
    rcases List.mem_append.1 hm with hm | hm
    · exact absurd hm Settled.no_error
    · exact absurd hq (not_isCheck_guardEvents hu.not_isCheck _ hm)
  | signed s u v tx r hu hv =>
    rcases List.mem_append.1 hm with hm | hm
    · exact absurd hm Settled.no_error
    rcases List.mem_append.1 hm with hm | hm
    · exact absurd hq (not_isCheck_guardEvents hu.not_isCheck _ hm)
    · exact absurd hq (not_isCheck_of_awaitsReceipt (hv.awaitsReceipt _ hm))

/-- **A replay that returned ends the call** in `HandleOpsReverted` with the decoded data. -/
theorem run_replayed {src dest : Address} {callData : Bytes} {data : Option Bytes}
    {r : Except Exit SignedTxResp}
    (h : Run (buildInner A b ops opts) (t ++ [⟨.rpc (.tryCallForRevert src dest callData), .ok data⟩]) r) :
    ∃ hash block, r = .error (.err (.handleOpsReverted hash block (revertReason A data))) := by
  have hm : (⟨.rpc (.tryCallForRevert src dest callData), .ok data⟩ : Event Op Op.Ans) ∈
    t ++ [⟨.rpc (.tryCallForRevert src dest callData), .ok data⟩] := by simp
  have hlate : Op.late (.rpc (.tryCallForRevert src dest callData)) := trivial
  generalize t ++ [⟨.rpc (.tryCallForRevert src dest callData), .ok data⟩] = t' at h hm
  cases run_buildInner_cases h with
  | insane e he => cases hm
  | unprepared t' e he => exact absurd (only_prepare.mem he hm) id
  | unsigned s u e hu =>
    rw [← List.append_nil (guardEvents opts u)] at hm
    rcases List.mem_append.1 ((mem_call_of_late hlate).1 hm) with hm | hm
    · cases hu <;> simp at hm
    · cases hm
  | signed s u v tx r hu hv =>
    rcases List.mem_append.1 ((mem_call_of_late hlate).1 hm) with hm | hm
    · cases hu <;> simp at hm
    · cases hv with
      | reverted receipt data' hs hr =>
        simp only [List.mem_cons, List.not_mem_nil, or_false] at hm
        rcases hm with hm | hm
        · cases hm
        · cases hm
          exact ⟨_, _, rfl⟩
      | _ => simp at hm

/-! ## Rejections and routes -/

/-- An EntryPoint rejection (`contracts.rs:71-72`). -/
inductive Rejection where
  | failedOp (opIndex : U256) (reason : String)
  | failedOpWithRevert (opIndex : U256) (reason : String) (inner : Bytes)

def Rejection.reason : Rejection → String
  | .failedOp _ reason | .failedOpWithRevert _ reason _ => reason

/-- Its ABI encoding: selector, then arguments. -/
def Rejection.revertData (A : Alloy) : Rejection → Bytes
  | .failedOp i reason => FailedOp.SELECTOR ++ A.failedOpEncode i reason
  | .failedOpWithRevert i reason inner => FailedOpWithRevert.SELECTOR ++ A.failedOpWithRevertEncode i reason inner

/-- `alloy` decodes what it encoded. -/
def Rejection.DecodesBack (A : Alloy) : Rejection → Prop
  | .failedOp i reason => A.failedOpDecode (A.failedOpEncode i reason) = some (i, reason)
  | .failedOpWithRevert i reason inner =>
    A.failedOpWithRevertDecode (A.failedOpWithRevertEncode i reason inner) = some (i, reason, inner)

/-- The requests on which the node can revert with a rejection. -/
inductive Route where
  | simulation
  | gasEstimate
  | minedReplay

/-- What `AlloyProvider` makes of a node that reverts with `data`, route by route. -/
inductive Learned (A : Alloy) (data : Bytes) : Route → Event Op Op.Ans → Prop where
  | simulation (entrypoint : Address) (code : Bytes) (op : PackedUserOperation) (tx : TransactionRequest)
    (overrides : List (Address × Bytes)) (e : RpcError) (r : Except ProviderError ValidationResult)
    (hdata : e.revertData = some data)
    (h : Run (AlloyProvider.simulateValidation A entrypoint code op) [⟨.call tx overrides, .error e⟩] r) :
    Learned A data .simulation ⟨.rpc (.simulateValidation entrypoint code op), r⟩
  | gasEstimate (src entrypoint : Address) (callData : Bytes) (tx : TransactionRequest) (e : RpcError)
    (r : Except ProviderError U64) (hdata : e.revertData = some data)
    (h : Run (AlloyProvider.estimateHandleOpsGas src entrypoint callData) [⟨.estimateGas tx, .error e⟩] r) :
    Learned A data .gasEstimate ⟨.rpc (.estimateHandleOpsGas src entrypoint callData), r⟩
  | minedReplay (src dest : Address) (callData : Bytes) (tx : TransactionRequest) (e : RpcError)
    (r : Except ProviderError (Option Bytes)) (hdata : e.revertData = some data)
    (h : Run (AlloyProvider.tryCallForRevert src dest callData) [⟨.call tx [], .error e⟩] r) :
    Learned A data .minedReplay ⟨.rpc (.tryCallForRevert src dest callData), r⟩

/-- A call that learned of the rejection on `route` ended in an error of code `c`. -/
def HasCode (A : Alloy) (rej : Rejection) (route : Route) (c : Int) : Prop :=
  ∃ (b : Bundler) (ops : List UserOpV07) (opts : BuildOpts) (t : BundlerTrace) (ev : Event Op Op.Ans)
    (e : BundlerError), Run (buildInner A b ops opts) (t ++ [ev]) (.error (.err e)) ∧
    Learned A (rej.revertData A) route ev ∧ e.classify.1 = c

theorem learned_simulation {data : Bytes} {ev : Event Op Op.Ans} (h : Learned A data .simulation ev) :
    ∃ entrypoint code op msg, ev = ⟨.rpc (.simulateValidation entrypoint code op), .error (.transport msg)⟩ := by
  cases h with
  | simulation entrypoint code op tx overrides e r hdata h =>
    obtain ⟨x, t', ht, h'⟩ := run_ask.1 h
    cases ht
    obtain ⟨-, rfl⟩ := run_fail.1 h'
    exact ⟨_, _, _, _, rfl⟩

theorem learned_gasEstimate {data : Bytes} {ev : Event Op Op.Ans} (h : Learned A data .gasEstimate ev) :
    ∃ src entrypoint callData msg,
      ev = ⟨.rpc (.estimateHandleOpsGas src entrypoint callData), .error (.transport msg)⟩ := by
  cases h with
  | gasEstimate src entrypoint callData tx e r hdata h =>
    obtain ⟨x, t', ht, h'⟩ := run_ask.1 h
    cases ht
    obtain ⟨-, rfl⟩ := run_fail.1 h'
    exact ⟨_, _, _, _, rfl⟩

theorem learned_minedReplay {data : Bytes} {ev : Event Op Op.Ans} (h : Learned A data .minedReplay ev) :
    ∃ src dest callData, ev = ⟨.rpc (.tryCallForRevert src dest callData), .ok (some data)⟩ := by
  cases h with
  | minedReplay src dest callData tx e r hdata h =>
    obtain ⟨x, t', ht, h'⟩ := run_ask.1 h
    cases ht
    obtain ⟨-, rfl⟩ := run_ret.1 h'
    exact ⟨_, _, _, by rw [hdata]⟩

/-! ## The codes -/

/-- The code of a mined rejection (`errors.rs:266-273`). -/
def minedCode (reason : String) : Int :=
  if startsWithAA3 reason then PAYMASTER_REJECTED else SIMULATE_VALIDATION_REJECTED

theorem take_selector (selector body : Bytes) (h : selector.length = 4) : (selector ++ body).take 4 = selector ∧
    (selector ++ body).drop 4 = body ∧ ¬ (selector ++ body).length < 4 := by
  refine ⟨List.take_left' h, List.drop_left' h, ?_⟩
  rw [List.length_append]
  omega

theorem classify_decoded {rej : Rejection} (h : rej.DecodesBack A) :
    (decodeHandleOpsRevert A (rej.revertData A)).classify.1 = minedCode rej.reason := by
  cases rej with
  | failedOp i reason =>
    obtain ⟨h1, h2, h3⟩ := take_selector FailedOp.SELECTOR (A.failedOpEncode i reason) rfl
    simp only [Rejection.DecodesBack] at h
    simp only [decodeHandleOpsRevert, Rejection.revertData, if_neg h3, h1, h2, if_true, h]
    rfl
  | failedOpWithRevert i reason inner =>
    obtain ⟨h1, h2, h3⟩ := take_selector FailedOpWithRevert.SELECTOR
      (A.failedOpWithRevertEncode i reason inner) rfl
    have hne : FailedOpWithRevert.SELECTOR ≠ FailedOp.SELECTOR := by decide
    simp only [Rejection.DecodesBack] at h
    simp only [decodeHandleOpsRevert, Rejection.revertData, if_neg h3, h1, h2, if_neg hne, if_true, h]
    rfl

theorem code_simulation {rej : Rejection} {c : Int} (h : HasCode A rej .simulation c) : c = INTERNAL_ERROR := by
  obtain ⟨b, ops, opts, t, ev, e, hrun, hlearn, rfl⟩ := h
  obtain ⟨entrypoint, code, op, msg, rfl⟩ := learned_simulation hlearn
  have he := run_check_error hrun trivial
  cases he
  rfl

theorem code_gasEstimate {rej : Rejection} {c : Int} (h : HasCode A rej .gasEstimate c) : c = INTERNAL_ERROR := by
  obtain ⟨b, ops, opts, t, ev, e, hrun, hlearn, rfl⟩ := h
  obtain ⟨src, entrypoint, callData, msg, rfl⟩ := learned_gasEstimate hlearn
  have he := run_check_error hrun trivial
  cases he
  rfl

theorem code_minedReplay {rej : Rejection} {c : Int} (hdec : rej.DecodesBack A)
    (h : HasCode A rej .minedReplay c) : c = minedCode rej.reason := by
  obtain ⟨b, ops, opts, t, ev, e, hrun, hlearn, rfl⟩ := h
  obtain ⟨src, dest, callData, rfl⟩ := learned_minedReplay hlearn
  obtain ⟨hash, block, he⟩ := run_replayed hrun
  cases he
  exact classify_decoded hdec

/-! ## Every route is taken -/

/-- The test-suite's node, failing the simulation. -/
def simulationRevertsAnswer : (o : Op) → o.Ans
  | .rpc (.simulateValidation _ _ _) => .error (.transport "execution reverted")
  | o => mockAnswer o

/-- The test-suite's node, failing the gas estimate. -/
def estimateRevertsAnswer : (o : Op) → o.Ans
  | .rpc (.estimateHandleOpsGas _ _ _) => .error (.transport "execution reverted")
  | o => mockAnswer o

/-- The test-suite's node, with the batch reverted on chain and its replay answering `data`. -/
def minedRevertsAnswer (data : Bytes) : (o : Op) → o.Ans
  | .rpc (.waitForReceipt hash _) => .ok (some ⟨hash, 1, false⟩)
  | .rpc (.tryCallForRevert _ _ _) => .ok (some data)
  | o => mockAnswer o

/-- The node's answer to a reverting request. -/
def revertWith (data : Bytes) : RpcError := ⟨"execution reverted", some data⟩

/-- A run against a table of answers, split at its last event. -/
theorem run_of_last (answer : (o : Op) → o.Ans) (p : M SignedTxResp) {ev : Event Op Op.Ans}
    {r : Except Exit SignedTxResp} (h : (exec answer p).1.getLast? = some ev) (hr : (exec answer p).2 = r) :
    ∃ t, Run p (t ++ [ev]) r := by
  obtain ⟨t, ht⟩ := List.getLast?_eq_some_iff.1 h
  have hrun := exec_run answer p
  rw [ht, hr] at hrun
  exact ⟨t, hrun⟩

theorem hasCode_simulation (rej : Rejection) : HasCode A rej .simulation INTERNAL_ERROR := by
  obtain ⟨t, hrun⟩ := run_of_last simulationRevertsAnswer
    (buildInner A testBundler [happyOp] submitOpts) rfl rfl
  exact ⟨_, _, _, t, _, _, hrun, .simulation _ _ _ ⟨none, ENTRYPOINT_V07, _⟩ _ (revertWith _) _ rfl
    (run_ask.2 ⟨_, [], rfl, run_fail.2 ⟨rfl, rfl⟩⟩), rfl⟩

theorem hasCode_gasEstimate (rej : Rejection) : HasCode A rej .gasEstimate INTERNAL_ERROR := by
  obtain ⟨t, hrun⟩ := run_of_last estimateRevertsAnswer
    (buildInner A testBundler [happyOp] submitOpts) rfl rfl
  exact ⟨_, _, _, t, _, _, hrun, .gasEstimate _ _ _ _ (revertWith _) _ rfl
    (run_ask.2 ⟨_, [], rfl, run_fail.2 ⟨rfl, rfl⟩⟩), rfl⟩

theorem hasCode_minedReplay {rej : Rejection} (hdec : rej.DecodesBack A) :
    HasCode A rej .minedReplay (minedCode rej.reason) := by
  obtain ⟨t, hrun⟩ := run_of_last (minedRevertsAnswer (rej.revertData A))
    (buildInner A testBundler [happyOp] submitOpts) rfl rfl
  exact ⟨_, _, _, t, _, _, hrun, .minedReplay _ _ _ _ (revertWith _) _ rfl
    (run_ask.2 ⟨_, [], rfl, run_ret.2 ⟨rfl, rfl⟩⟩), classify_decoded hdec⟩

/-! ## Route by route -/

/-- The reasons of the time range: `AA22` for the account, `AA32` for the paymaster. -/
def outOfTimeRange (reason : String) : Bool :=
  ['A', 'A', '2', '2'].isPrefixOf reason.toList || ['A', 'A', '3', '2'].isPrefixOf reason.toList

/-- The code the table gives a reason. -/
def documentedCode (reason : String) : Int :=
  if outOfTimeRange reason then OUT_OF_TIME_RANGE
  else if startsWithAA3 reason then PAYMASTER_REJECTED
  else SIMULATE_VALIDATION_REJECTED

/-- An error the bundler raises itself, on the parsed validation data or the deposit. -/
def BundlerError.OwnRejection : BundlerError → Prop
  | .validation (.provider _) => False
  | .validation _ | .insufficientDeposit _ _ _ _ => True
  | _ => False

/-- One rejection, one code: the same on every route, the same as for the bundler's own error
with that reason, never the internal one, and the documented one. -/
structure OneCode (A : Alloy) (rej : Rejection) : Prop where
  same : ∀ route route' c c', HasCode A rej route c → HasCode A rej route' c' → c = c'
  own : ∀ route c (e : BundlerError), HasCode A rej route c → e.OwnRejection →
    e.classify.2.get? "reason" = some (.str rej.reason) → e.classify.1 = c
  not_internal : ∀ route c, HasCode A rej route c → c ≠ INTERNAL_ERROR
  documented : ∀ route c, HasCode A rej route c → c = documentedCode rej.reason

/-- **The codes, route by route.** No rejection has one code: through the simulation and through
the gas estimate it is always the internal error, and only the replay of a mined batch is
classified, by its `AA3` prefix alone. -/
theorem codes_by_route (A : Alloy) (rej : Rejection) :
    ¬ OneCode A rej ∧
      (∀ c, HasCode A rej .simulation c ↔ c = INTERNAL_ERROR) ∧
      (∀ c, HasCode A rej .gasEstimate c ↔ c = INTERNAL_ERROR) ∧
      (rej.DecodesBack A → ∀ c, HasCode A rej .minedReplay c ↔ c = minedCode rej.reason) := by
  refine ⟨fun h => ?_, fun c => ⟨code_simulation, ?_⟩, fun c => ⟨code_gasEstimate, ?_⟩, fun hdec c =>
    ⟨code_minedReplay hdec, ?_⟩⟩
  · exact h.not_internal .simulation _ (hasCode_simulation rej) rfl
  · rintro rfl
    exact hasCode_simulation rej
  · rintro rfl
    exact hasCode_gasEstimate rej
  · rintro rfl
    exact hasCode_minedReplay hdec

/-- `FailedOp(0, "AA32 paymaster expired or not due")`: internal error from the simulation,
paymaster code from the chain, where the table has the time range. -/
def expiredPaymaster : Rejection := .failedOp 0 "AA32 paymaster expired or not due"

theorem expiredPaymaster_decodesBack : expiredPaymaster.DecodesBack alloy := by
  show alloy.failedOpDecode (alloy.failedOpEncode 0 "AA32 paymaster expired or not due") = some _
  decide +kernel

theorem expiredPaymaster_codes : HasCode alloy expiredPaymaster .simulation (-32603) ∧
    HasCode alloy expiredPaymaster .minedReplay (-32501) ∧ documentedCode expiredPaymaster.reason = -32503 := by
  obtain ⟨-, h1, -, h3⟩ := codes_by_route alloy expiredPaymaster
  exact ⟨(h1 _).2 rfl, (h3 expiredPaymaster_decodesBack _).2 (by decide), by decide⟩

theorem rejection_codes_differ :
    ¬ ∀ (A : Alloy) (rej : Rejection), rej.DecodesBack A → OneCode A rej := by
  intro hall
  have h := hall alloy expiredPaymaster expiredPaymaster_decodesBack
  exact h.not_internal .simulation _ (hasCode_simulation _) rfl

end EtheraBundler

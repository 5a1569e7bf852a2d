import EtheraBundler.OverRpc
/-!
# An accepted transaction, over JSON-RPC

Once the node has accepted a transaction, what its caller is told is decided by the node's answers
to `eth_getTransactionReceipt` alone: by the first of them that is not empty, if the deadline does
not come first. The replay of a failed transaction adds the reason, and cannot take anything away.

* `sendRaw_of_mem`, `receiptPart_of_handled` — which question a request belongs to.
* `run_sent` — what a call does after its transaction was accepted.
* `Decided` — the table from polls to outcomes.
* `over_rpc_decided` — **every accepted transaction is reported by that table.**
-/

namespace EtheraBundler

open Interact

variable {A : Alloy} {fuel maxInstant : Nat} {b : Bundler} {ops : List UserOpV07} {opts : BuildOpts}
  {t : BundlerTrace} {v : RawTrace}

/-! ## Whose request it is -/

theorem run_local {o : RawOp} {k : o.Ans → Prog RawOp RawOp.Ans RawExit o.Ans} {x : o.Ans} (hk : ∀ y, k y = .ret y)
    (h : Run (.ask o k) v (.ok x)) : v = [⟨o, x⟩] := by
  obtain ⟨y, v', rfl, hy⟩ := run_ask.1 h
  rw [hk] at hy
  obtain ⟨rfl, he⟩ := run_ret.1 hy
  cases he
  rfl

/-- A request of `overNode`'s own is one its program asked for. -/
theorem mem_overNode {α : Type} {P : NodeOp → Prop} {p : Prog NodeOp NodeOp.Ans ProviderError α} (hp : Only P p)
    {r : Except RawExit (Except ProviderError α)} (h : Run (overNode p) v r) {e : Event RawOp RawOp.Ans}
    (hm : e ∈ v) : ∃ o x, e = ⟨.node o, x⟩ ∧ P o := by
  obtain ⟨t, x, rfl, hr, -⟩ := run_overNode h
  obtain ⟨⟨o, y⟩, ho, rfl⟩ := List.mem_map.1 hm
  exact ⟨o, y, rfl, hp.mem hr ho⟩

theorem only_request {P : NodeOp → Prop} {o : NodeOp} (ho : P o) : Only P (AlloyProvider.request o) := by
  refine ⟨ho, fun x => ?_⟩
  rcases x with e | w
  · trivial
  · trivial

/-- `eth_sendRawTransaction` serves `send_raw_transaction` alone, with its error as a transport error. -/
theorem sendRaw_of_mem (hh : Handled (surroundings A fuel maxInstant) t v) {raw : Bytes} {y : Except String B256}
    (hm : ⟨.node (.sendRawTransaction raw), y⟩ ∈ v) :
    ⟨.rpc (.sendRawTransaction raw), y.mapError .transport⟩ ∈ t := by
  obtain ⟨o, x, u, ho, hu, -, hr⟩ := hh.mem hm
  have hother {α : Type} {p : Prog NodeOp NodeOp.Ans ProviderError α} {r : Except RawExit (Except ProviderError α)}
      (hp : Only (fun o => ∀ raw, o ≠ .sendRawTransaction raw) p) (h : Run (overNode p) u r) : False := by
    obtain ⟨o', x', he, hne⟩ := mem_overNode hp h hu
    cases he
    exact hne raw rfl
  have heth {α : Type} {p : Prog Rpc Rpc.Ans ProviderError α} {r : Except RawExit (Except ProviderError α)}
      (h : Run (overEth p) u r) : False := by
    obtain ⟨t', x', rfl, -, -⟩ := run_overEth h
    obtain ⟨e, -, he⟩ := List.mem_map.1 hu
    cases he
  have hlocal {o : RawOp} {k : o.Ans → Prog RawOp RawOp.Ans RawExit o.Ans} {x : o.Ans} (hk : ∀ y, k y = .ret y)
      (hne : o ≠ .node (.sendRawTransaction raw)) (h : Run (.ask o k) u (.ok x)) : False := by
    rw [run_local hk h, List.mem_singleton] at hu
    exact hne (congrArg Sigma.fst hu).symm
  cases o with
  | lock => exact absurd hr (hlocal (fun _ => rfl) (by simp))
  | unlock => exact absurd hr (hlocal (fun _ => rfl) (by simp))
  | sinceEpoch => exact absurd hr (hlocal (fun _ => rfl) (by simp))
  | signEip1559 tx => exact absurd hr (hlocal (fun _ => rfl) (by simp))
  | rpc q =>
    cases q with
    | sendRawTransaction raw' =>
      obtain ⟨y', rfl, rfl⟩ := run_overNode_request hr
      rw [List.mem_singleton] at hu
      cases hu
      exact ho
    | waitForReceipt hash n =>
      obtain ⟨t', x', rfl, -, -⟩ := run_overReceipt hr
      obtain ⟨e, -, he⟩ := List.mem_map.1 hu
      cases he
    | estimateHandleOpsGas src entrypoint callData => exact (heth hr).elim
    | tryCallForRevert src dest callData => exact (heth hr).elim
    | simulateValidation entrypoint code op => exact (heth hr).elim
    | baseFee =>
      refine (hother ?_ hr).elim
      refine Only.bind (only_request (by simp)) fun block => ?_
      rcases block with - | block
      · trivial
      · trivial
    | maxPriorityFee => exact (hother (Only.bind (only_request (by simp)) fun _ => only_ret) hr).elim
    | pendingNonce addr => exact (hother (only_request (by simp)) hr).elim
    | balanceOf entrypoint account => exact (hother (only_request (by simp)) hr).elim
    | userOpHash entrypoint op => exact (hother (only_request (by simp)) hr).elim

/-- The signature a call got is the signer's. -/
theorem mem_of_signed (hh : Handled (surroundings A fuel maxInstant) t v) {tx : TxEip1559}
    {x : Except SignerError Signature} (hm : ⟨.signEip1559 tx, x⟩ ∈ t) : ⟨.signEip1559 tx, x⟩ ∈ v := by
  obtain ⟨u, u₁, u₂, rfl, hr⟩ := hh.of_mem hm
  rw [run_local (fun _ => rfl) hr]
  simp

def Op.isWait : Op → Prop
  | .rpc (.waitForReceipt _ _) => True
  | _ => False

/-- Questions other than the receipt wait read no clock and poll no receipt. -/
theorem receiptPart_of_surroundings {o : Op} (ho : ¬ o.isWait) {x : o.Ans}
    (h : Run (surroundings A fuel maxInstant o) v (.ok x)) : receiptPart v = [] := by
  have hnode {α : Type} {p : Prog NodeOp NodeOp.Ans ProviderError α} {r : Except RawExit (Except ProviderError α)}
      (h : Run (overNode p) v r) : receiptPart v = [] := by
    obtain ⟨t, x, rfl, -, -⟩ := run_overNode h
    exact receiptPart_node t
  have heth {α : Type} {p : Prog Rpc Rpc.Ans ProviderError α} {r : Except RawExit (Except ProviderError α)}
      (h : Run (overEth p) v r) : receiptPart v = [] := by
    obtain ⟨t, x, rfl, -, -⟩ := run_overEth h
    exact receiptPart_eth t
  cases o with
  | lock => rw [run_local (fun _ => rfl) h]; rfl
  | unlock => rw [run_local (fun _ => rfl) h]; rfl
  | sinceEpoch => rw [run_local (fun _ => rfl) h]; rfl
  | signEip1559 tx => rw [run_local (fun _ => rfl) h]; rfl
  | rpc q =>
    cases q with
    | waitForReceipt hash n => exact absurd trivial ho
    | estimateHandleOpsGas src entrypoint callData => exact heth h
    | tryCallForRevert src dest callData => exact heth h
    | simulateValidation entrypoint code op => exact heth h
    | baseFee => exact hnode h
    | maxPriorityFee => exact hnode h
    | pendingNonce addr => exact hnode h
    | balanceOf entrypoint account => exact hnode h
    | userOpHash entrypoint op => exact hnode h
    | sendRawTransaction raw => exact hnode h

theorem receiptPart_of_handled (hh : Handled (surroundings A fuel maxInstant) t v) (ht : ∀ e ∈ t, ¬ e.1.isWait) :
    receiptPart v = [] := by
  induction hh with
  | nil => rfl
  | cons hx _ ih =>
    rw [receiptPart_append, receiptPart_of_surroundings (ht _ List.mem_cons_self) hx,
      ih fun e he => ht e (List.mem_cons_of_mem _ he)]
    rfl

/-! ## After the acceptance -/

theorem mem_unsigned_of_late {s : Settled b ops} {u : BundlerTrace} {ev : Event Op Op.Ans} (h : ev.1.late) :
    ev ∈ s.events A ++ guardEvents opts u ↔ ev ∈ u := by
  have hcall : ev ∈ s.events A ++ (guardEvents opts u ++ []) ↔ ev ∈ u ++ [] := mem_call_of_late h
  simpa only [List.append_nil] using hcall

/-- What a call does once its transaction is accepted: it trips over the node's hash, in a build that
compares it, or waits for the receipt of its own. -/
theorem run_sent {r : Except Exit SignedTxResp} {raw : Bytes} {submitted : B256}
    (h : Run (buildInner A b ops opts) t r) (hsent : ⟨.rpc (.sendRawTransaction raw), .ok submitted⟩ ∈ t) :
    ∃ (s : Settled b ops) (env : TxEnvelope), raw = A.encoded2718 env ∧ signedWith env ∈ t ∧
      env.tx.input = s.callData A ∧
      ((b.build.debugAssertions = true ∧ submitted ≠ A.txHash env ∧ r = .error (.panic .submittedHashMismatch)) ∨
        ∃ u w r', opts.submit = true ∧ t = u ++ w ∧ (∀ e ∈ u, ¬ e.1.isWait) ∧
          ReceiptRun A b opts (s.callData A) (A.txHash env) w r' ∧
          r = r'.map fun _ => response b (s.prepared A) (.of A env)) := by
  have hlate : Op.late (.rpc (.sendRawTransaction raw)) := trivial
  have hinput {s : Settled b ops} {nonce : U64} {tx : TxEip1559} (hb : buildTx b (s.prepared A) nonce = .ok tx) :
      tx.input = s.callData A := by
    rw [buildTx_ok] at hb
    cases hb
    rfl
  cases run_buildInner_cases h with
  | insane e he => cases hsent
  | unprepared t e he => exact absurd (only_prepare.mem he hsent) id
  | unsigned s u e hu =>
    have hm := (mem_unsigned_of_late hlate).1 hsent
    cases hu with
    | nonceFailed pe => simp at hm
    | unbuildable nonce e he => simp at hm
    | signFailed nonce tx se htx => simp at hm
    | sendFailed nonce env pe hs htx => simp at hm
    | mismatched nonce env submitted' hs htx hd hne =>
      simp only [List.mem_cons, List.not_mem_nil, or_false] at hm
      rcases hm with hm | hm | hm
      · cases hm
      · cases hm
      · cases hm
        have hlate' : (signedWith env).1.late := trivial
        have hsigned : signedWith env ∈ s.events A ++ guardEvents opts [nonceRead b nonce, signedWith env,
            ⟨.rpc (.sendRawTransaction (A.encoded2718 env)), .ok submitted⟩] :=
          (mem_unsigned_of_late hlate').2 (by simp)
        exact ⟨s, env, rfl, hsigned, hinput htx, Or.inl ⟨hd, hne, rfl⟩⟩
  | signed s u w tx r' hu hw =>
    have hm := (mem_call_of_late hlate).1 hsent
    have hmu : ⟨.rpc (.sendRawTransaction raw), .ok submitted⟩ ∈ u := by
      rcases List.mem_append.1 hm with hm | hm
      · exact hm
      · exact absurd (hw.awaitsReceipt _ hm) id
    cases hu with
    | signOnly nonce env hs htx => simp at hmu
    | sent nonce env submitted' hs htx hd =>
      have hraw : raw = A.encoded2718 env := by
        simp only [List.mem_cons, List.not_mem_nil, or_false] at hmu
        rcases hmu with hmu | hmu | hmu
        · cases hmu
        · cases hmu
        · cases hmu
          rfl
      have hlate' : (signedWith env).1.late := trivial
      refine ⟨s, env, hraw, (mem_call_of_late hlate').2 (by simp), hinput htx, Or.inr ?_⟩
      refine ⟨_, w, r', hs, (List.append_assoc _ _ _).symm, ?_, hw, rfl⟩
      rintro ⟨o, x⟩ he
      rcases List.mem_append.1 he with he | he
      · have hcheck := Settled.isCheck_of_mem he
        cases o with
        | rpc q =>
          cases q with
          | waitForReceipt hash n => exact absurd hcheck id
          | _ => exact id
        | _ => exact id
      · unfold guardEvents at he
        rw [if_pos hs] at he
        simp only [List.cons_append, List.nil_append, List.mem_cons, List.not_mem_nil, or_false] at he
        rcases he with he | he | he | he | he
        all_goals
          obtain rfl := congrArg Sigma.fst he
          exact id

/-! ## The table -/

def RawOp.isSend : RawOp → Bool
  | .node (.sendRawTransaction _) => true
  | _ => false

theorem RawOp.isSend_iff {o : RawOp} : o.isSend = true ↔ ∃ raw, o = .node (.sendRawTransaction raw) := by
  constructor
  · intro h
    unfold RawOp.isSend at h
    split at h
    · exact ⟨_, rfl⟩
    · cases h
  · rintro ⟨raw, rfl⟩
    rfl

/-- `try_call_for_revert` on the raw answer. -/
def replayData : Except RpcError Bytes → Option Bytes
  | .ok _ => none
  | .error e => e.revertData

/-- The replay of a transaction, with the node's answer. -/
abbrev replayEvent (b : Bundler) (env : TxEnvelope) (y : Except RpcError Bytes) : Event RawOp RawOp.Ans :=
  ⟨.eth (.call ⟨some b.signerAddress, b.cfg.entrypointAddress, env.tx.input⟩ []), y⟩

/-- What the caller is told of an accepted transaction, by the first poll that was not empty. -/
inductive Decided (A : Alloy) (b : Bundler) (env : TxEnvelope) (v : RawTrace) :
    Option PollAnswer → Except RawExit SignedTxResp → Prop where
  | mined (receipt : TransactionReceipt) (resp : SignedTxResp) (h : receipt.status = true)
    (hraw : resp.raw = A.encoded2718 env) (hhash : resp.hash = A.txHash env) :
    Decided A b env v (some (.ok (some receipt))) (.ok resp)
  | reverted (receipt : TransactionReceipt) (y : Except RpcError Bytes) (h : receipt.status = false)
    (hy : replayEvent b env y ∈ v) :
    Decided A b env v (some (.ok (some receipt))) (.error (.call (.err (.handleOpsReverted (A.txHash env)
      (receipt.blockNumber.getD 0) (revertReason A (replayData y))))))
  | unseen : Decided A b env v none (.error (.call (.err (.receiptTimeout (A.txHash env)))))
  | failed (e : RpcError) :
    Decided A b env v (some (.error e)) (.error (.call (.err (.provider (.transport e.display)))))

/-- The wait that was answered, and how. -/
theorem wait_answered {hash : B256} {x : Except ProviderError (Option ReceiptInfo)}
    (hfuel : maxPolls RECEIPT_TIMEOUT ≤ fuel) (hv : Steady v)
    (h : Run (AlloyProvider.method A fuel maxInstant (.waitForReceipt hash RECEIPT_TIMEOUT)) v (.ok x)) :
    ∃ start, WaitOutcome maxInstant start hash (secs RECEIPT_TIMEOUT) (receiptPart v) (x.mapError .err) := by
  obtain ⟨w, x', rfl, hr, he⟩ := run_overReceipt h
  unfold Steady at hv
  rw [receiptPart_receipt] at hv ⊢
  obtain ⟨-, -, hend⟩ := after_waitForReceipt hr hv hfuel
  obtain ⟨start, -, hout⟩ := hend x' rfl
  refine ⟨start, ?_⟩
  rcases x' with (pe | p | -) | receipt
  · cases he
    exact hout
  · cases he
  · cases he
  · cases he
    exact hout

/-- The replay that was answered. -/
theorem replay_answered {src dest : Address} {callData : Bytes} {data : Option Bytes}
    (h : Run (AlloyProvider.method A fuel maxInstant (.tryCallForRevert src dest callData)) v (.ok (.ok data))) :
    ∃ y, ⟨.eth (.call ⟨some src, dest, callData⟩ []), y⟩ ∈ v ∧ data = replayData y := by
  obtain ⟨t, x, rfl, hr, he⟩ := run_overEth h
  cases he
  obtain ⟨y, t', rfl, hy⟩ := run_ask.1 hr
  refine ⟨y, List.mem_map.2 ⟨_, List.mem_cons_self, rfl⟩, ?_⟩
  rcases y with e | ret
  · cases (run_ret.1 hy).2
    rfl
  · cases (run_ret.1 hy).2
    rfl

/-- **The node's receipts decide what the caller of an accepted transaction is told.** In a build
that compares the hashes, a node that answered another one ends the call; a deadline past the end of
the platform's clock ends it; otherwise the first poll that is not empty tells the outcome, and if
there is none, the deadline does. -/
theorem over_rpc_decided (A : Alloy) (fuel maxInstant : Nat) (b : Bundler) (ops : List UserOpV07) (opts : BuildOpts)
    (hfuel : maxPolls RECEIPT_TIMEOUT ≤ fuel) (v : RawTrace) (r : Except RawExit SignedTxResp)
    (h : Run (callOverRpc A fuel maxInstant b ops opts) v r) (hv : Steady v) (raw : Bytes) (submitted : B256)
    (hsent : ⟨.node (.sendRawTransaction raw), .ok submitted⟩ ∈ v) :
    ∃ env, raw = A.encoded2718 env ∧ ⟨.signEip1559 env.tx, .ok env.signature⟩ ∈ v ∧
      ((b.build.debugAssertions = true ∧ submitted ≠ A.txHash env ∧
          r = .error (.call (.panic .submittedHashMismatch))) ∨
        (∃ start, ⟨.receipt .now, start⟩ ∈ v ∧ maxInstant < start + secs RECEIPT_TIMEOUT ∧
          r = .error (.time .instantOverflow)) ∨
        Decided A b env v (firstAnswer (receiptPart v)) r) := by
  unfold callOverRpc at h
  rcases run_via.1 h with ⟨t, hh, hr⟩ | ⟨t, v₁, v₂, o, e, rfl, hh, hasks, he, rfl⟩
  · obtain ⟨r', hr', rfl⟩ := run_mapFail.1 hr
    obtain ⟨s, env, rfl, hsigned, hinput, hend⟩ := run_sent hr' (sendRaw_of_mem hh hsent)
    refine ⟨env, rfl, mem_of_signed hh hsigned, ?_⟩
    rcases hend with ⟨hd, hne, rfl⟩ | ⟨u, w, r'', hsubmit, rfl, hu, hw, rfl⟩
    · exact Or.inl ⟨hd, hne, rfl⟩
    refine Or.inr (Or.inr ?_)
    obtain ⟨vu, vw, rfl, hhu, hhw⟩ := handled_append.1 hh
    rw [receiptPart_append, receiptPart_of_handled hhu hu, List.nil_append]
    -- The wait comes first, and nothing after it polls.
    have hwait {x : Except ProviderError (Option ReceiptInfo)} {rest : BundlerTrace}
        (hhw : Handled (surroundings A fuel maxInstant)
          (⟨.rpc (.waitForReceipt (A.txHash env) RECEIPT_TIMEOUT), x⟩ :: rest) vw) (hrest : ∀ e ∈ rest, ¬ e.1.isWait) :
        ∃ start, WaitOutcome maxInstant start (A.txHash env) (secs RECEIPT_TIMEOUT) (receiptPart vw)
          (x.mapError .err) := by
      obtain ⟨wu, wr, rfl, hx, hwr⟩ := handled_cons.1 hhw
      rw [receiptPart_append, receiptPart_of_handled hwr hrest, List.append_nil]
      exact wait_answered (A := A) hfuel hv.split.2.split.1 hx
    cases hw with
    | signOnly hs =>
      rw [hs] at hsubmit
      cases hsubmit
    | waitFailed pe hs =>
      obtain ⟨start, hout⟩ := hwait hhw (by simp)
      obtain ⟨e, hfirst, rfl⟩ := (hout.err pe).1 rfl
      rw [hfirst]
      exact .failed e
    | timeout hs =>
      obtain ⟨start, hout⟩ := hwait hhw (by simp)
      rw [firstAnswer_of_empty (hout.timed_out rfl).1]
      exact .unseen
    | succeeded receipt hs hok =>
      obtain ⟨start, hout⟩ := hwait hhw (by simp)
      obtain ⟨found, hfirst, rfl⟩ := (hout.receipt receipt).1 rfl
      rw [hfirst]
      exact .mined found _ hok rfl rfl
    | replayFailed receipt pe hs hok =>
      have halloy := alloyed_of_handled hh (.tryCallForRevert b.signerAddress b.cfg.entrypointAddress (s.callData A))
        (.error pe) (by simp)
      exact absurd halloy id
    | reverted receipt data hs hok =>
      obtain ⟨start, hout⟩ := hwait hhw (by simp [Op.isWait])
      obtain ⟨found, hfirst, rfl⟩ := (hout.receipt receipt).1 rfl
      rw [hfirst]
      obtain ⟨wu, wr, rfl, -, hwr⟩ := handled_cons.1 hhw
      obtain ⟨wd, wn, rfl, hd, -⟩ := handled_cons.1 hwr
      have hreplay : Run (AlloyProvider.method A fuel maxInstant
          (.tryCallForRevert b.signerAddress b.cfg.entrypointAddress (s.callData A))) wd (.ok (.ok data)) := hd
      obtain ⟨y, hy, rfl⟩ := replay_answered hreplay
      refine .reverted found y hok ?_
      rw [replayEvent, hinput]
      exact List.mem_append_right _ (List.mem_append_right _ (List.mem_append_left _ hy))
  · have hin : ⟨.node (.sendRawTransaction raw), .ok submitted⟩ ∈ v₁ := by
      rcases List.mem_append.1 hsent with hm | hm
      · exact hm
      · obtain ⟨hash, n, w, x, -, rfl, -, -⟩ := surroundings_error he
        obtain ⟨e, -, hev⟩ := List.mem_map.1 hm
        cases hev
    obtain ⟨k, hk⟩ := asks_mapFail.1 hasks
    obtain ⟨env, rfl, hsigned, -⟩ := broadcast_of_send_ok hk (sendRaw_of_mem hh hin)
    obtain ⟨rfl, start, hstart, hmax⟩ := wait_gives_up hfuel hasks he hv.split.2
    refine ⟨env, rfl, List.mem_append_left _ (mem_of_signed hh hsigned), Or.inr (Or.inl ?_)⟩
    exact ⟨start, List.mem_append_right _ hstart, hmax, rfl⟩

set_option maxRecDepth 4000 in
/-- The first poll finds the receipt of a successful transaction. -/
theorem over_rpc_decided_happy : ∃ v resp, Run mockCallOverRpc v (.ok resp) ∧
    ∃ env, ⟨.signEip1559 env.tx, .ok env.signature⟩ ∈ v ∧ resp.hash = alloy.txHash env := by
  obtain ⟨resp, hresp⟩ := exec_mockCallOverRpc
  have hrun := exec_run rawMockAnswer mockCallOverRpc
  have hany : (exec rawMockAnswer mockCallOverRpc).1.any (fun e => e.1.isSend) = true := rfl
  rw [hresp] at hrun
  obtain ⟨⟨o, x⟩, hm, ho⟩ := List.any_eq_true.1 hany
  obtain ⟨raw, rfl⟩ := RawOp.isSend_iff.1 ho
  obtain rfl := exec_mem hm
  obtain ⟨env, -, hsign, ⟨-, -, he⟩ | ⟨-, -, -, he⟩ | hdec⟩ := over_rpc_decided alloy (maxPolls RECEIPT_TIMEOUT)
    (secs 3600) testBundler [happyOp] submitOpts (Nat.le_refl _) _ _ hrun steady_mockCallOverRpc raw _ hm
  · cases he
  · cases he
  · generalize hr : (Except.ok resp : Except RawExit SignedTxResp) = r at hdec
    cases hdec with
    | mined receipt resp' _ _ hhash =>
      cases hr
      exact ⟨_, resp, hrun, env, hsign, hhash⟩
    | reverted receipt y _ _ => cases hr

end EtheraBundler

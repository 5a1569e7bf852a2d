import EtheraBundler.Gate
/-!
# How a call ends

One constructor per way through the part of `build_inner` after the checks, with the events and
the outcome it leaves; the inversion lemmas say that there is no other way.

* `SubmitRun`, `run_signAndSend_cases` — under `_guard` (`bundler.rs:195-215`).
* `ReceiptRun`, `run_awaitReceipt_cases` — after it (`bundler.rs:218-239`).
* `CallRun`, `run_buildInner_cases` — a whole call.
* `sent_reported_iff` — **a broadcast transaction reaches the caller exactly when** no provider
  error follows the broadcast.
-/

namespace EtheraBundler

open BigEndian Interact

variable {A : Alloy} {b : Bundler} {ops : List UserOpV07} {opts : BuildOpts} {p : Prepared} {t : BundlerTrace}

/-! ## Under the guard -/

/-- The runs of `signAndSend`. -/
inductive SubmitRun (A : Alloy) (b : Bundler) (opts : BuildOpts) (p : Prepared) :
    BundlerTrace → Except Exit SignedTx → Prop where
  | nonceFailed (pe : ProviderError) :
    SubmitRun A b opts p [⟨.rpc (.pendingNonce b.signerAddress), .error pe⟩] (.error (.err (.provider pe)))
  | unbuildable (nonce : U64) (e : BundlerError) (h : buildTx b p nonce = .error e) :
    SubmitRun A b opts p [nonceRead b nonce] (.error (.err e))
  | signFailed (nonce : U64) (tx : TxEip1559) (se : SignerError) (h : buildTx b p nonce = .ok tx) :
    SubmitRun A b opts p [nonceRead b nonce, ⟨.signEip1559 tx, .error se⟩] (.error (.err (.signer se)))
  | sendFailed (nonce : U64) (env : TxEnvelope) (pe : ProviderError) (hs : opts.submit = true)
    (h : buildTx b p nonce = .ok env.tx) :
    SubmitRun A b opts p [nonceRead b nonce, signedWith env,
      ⟨.rpc (.sendRawTransaction (A.encoded2718 env)), .error pe⟩] (.error (.err (.provider pe)))
  | mismatched (nonce : U64) (env : TxEnvelope) (submitted : B256) (hs : opts.submit = true)
    (h : buildTx b p nonce = .ok env.tx) (hd : b.build.debugAssertions = true)
    (hne : submitted ≠ A.txHash env) :
    SubmitRun A b opts p [nonceRead b nonce, signedWith env,
      ⟨.rpc (.sendRawTransaction (A.encoded2718 env)), .ok submitted⟩] (.error (.panic .submittedHashMismatch))
  | sent (nonce : U64) (env : TxEnvelope) (submitted : B256) (hs : opts.submit = true)
    (h : buildTx b p nonce = .ok env.tx)
    (hd : b.build.debugAssertions = true → submitted = A.txHash env) :
    SubmitRun A b opts p [nonceRead b nonce, signedWith env,
      ⟨.rpc (.sendRawTransaction (A.encoded2718 env)), .ok submitted⟩] (.ok (.of A env))
  | signOnly (nonce : U64) (env : TxEnvelope) (hs : opts.submit = false)
    (h : buildTx b p nonce = .ok env.tx) :
    SubmitRun A b opts p [nonceRead b nonce, signedWith env] (.ok (.of A env))

theorem run_signAndSend_cases {r : Except Exit SignedTx} (h : Run (signAndSend A b opts p) t r) :
    SubmitRun A b opts p t r := by
  unfold signAndSend at h
  rcases r with e | tx
  · rcases run_bind_error.1 h with h1 | ⟨t₁, t₂, nonce, rfl, h1, h2⟩
    · obtain ⟨pe, rfl, rfl⟩ := run_await_error.1 h1
      exact .nonceFailed pe
    have ht₁ : t₁ = [nonceRead b nonce] := run_await_ok.1 h1
    subst ht₁
    rcases run_bind_error.1 h2 with h3 | ⟨t₃, t₄, tx, rfl, h3, h4⟩
    · obtain ⟨rfl, e', he, rfl⟩ := run_orErr_error.1 h3
      exact .unbuildable nonce e' he
    obtain ⟨rfl, hb⟩ := run_orErr_ok.1 h3
    rcases run_bind_error.1 h4 with h5 | ⟨t₅, t₆, env, rfl, h5, h6⟩
    · obtain ⟨se, rfl, rfl⟩ := run_signEip1559_error.1 h5
      exact .signFailed nonce tx se hb
    obtain ⟨rfl, rfl⟩ := run_signEip1559_ok.1 h5
    rcases run_bind_error.1 h6 with h7 | ⟨_, _, _, -, -, h7⟩
    · unfold broadcast at h7
      by_cases hs : opts.submit = true
      · rw [if_pos hs] at h7
        rcases run_bind_error.1 h7 with h8 | ⟨t₇, t₈, submitted, rfl, h8, h9⟩
        · obtain ⟨pe, rfl, rfl⟩ := run_await_error.1 h8
          exact .sendFailed nonce env pe hs hb
        have ht₇ : t₇ = [⟨.rpc (.sendRawTransaction (SignedTx.of A env).raw), .ok submitted⟩] :=
          run_await_ok.1 h8
        subst ht₇
        obtain ⟨rfl, hr⟩ := run_failIf.1 h9
        split at hr
        · rename_i hc
          cases hr
          exact .mismatched nonce env submitted hs hb hc.1 hc.2
        · cases hr
      · rw [if_neg hs] at h7
        cases (run_ret.1 h7).2
    · cases (run_ret.1 h7).2
  · obtain ⟨nonce, env, submitted, hb, rfl, rfl, hd⟩ := run_signAndSend_ok.1 h
    unfold broadcastEvents
    by_cases hs : opts.submit = true
    · rw [if_pos hs]
      exact .sent nonce env submitted hs hb (hd hs)
    · rw [if_neg hs]
      exact .signOnly nonce env (by simpa using hs) hb

/-! ## After the guard -/

/-- The runs of `awaitReceipt`. -/
inductive ReceiptRun (A : Alloy) (b : Bundler) (opts : BuildOpts) (callData : Bytes) (hash : B256) :
    BundlerTrace → Except Exit Unit → Prop where
  | signOnly (hs : opts.submit = false) : ReceiptRun A b opts callData hash [] (.ok ())
  | waitFailed (pe : ProviderError) (hs : opts.submit = true) :
    ReceiptRun A b opts callData hash [⟨.rpc (.waitForReceipt hash RECEIPT_TIMEOUT), .error pe⟩]
      (.error (.err (.provider pe)))
  | timeout (hs : opts.submit = true) :
    ReceiptRun A b opts callData hash [⟨.rpc (.waitForReceipt hash RECEIPT_TIMEOUT), .ok none⟩]
      (.error (.err (.receiptTimeout hash)))
  | succeeded (receipt : ReceiptInfo) (hs : opts.submit = true) (h : receipt.success = true) :
    ReceiptRun A b opts callData hash [⟨.rpc (.waitForReceipt hash RECEIPT_TIMEOUT), .ok (some receipt)⟩]
      (.ok ())
  | replayFailed (receipt : ReceiptInfo) (pe : ProviderError) (hs : opts.submit = true)
    (h : receipt.success = false) :
    ReceiptRun A b opts callData hash [⟨.rpc (.waitForReceipt hash RECEIPT_TIMEOUT), .ok (some receipt)⟩,
      ⟨.rpc (.tryCallForRevert b.signerAddress b.cfg.entrypointAddress callData), .error pe⟩]
      (.error (.err (.provider pe)))
  | reverted (receipt : ReceiptInfo) (data : Option Bytes) (hs : opts.submit = true)
    (h : receipt.success = false) :
    ReceiptRun A b opts callData hash [⟨.rpc (.waitForReceipt hash RECEIPT_TIMEOUT), .ok (some receipt)⟩,
      ⟨.rpc (.tryCallForRevert b.signerAddress b.cfg.entrypointAddress callData), .ok data⟩]
      (.error (.err (.handleOpsReverted hash receipt.blockNumber (revertReason A data))))

theorem run_awaitReceipt_cases {callData : Bytes} {hash : B256} {r : Except Exit Unit}
    (h : Run (awaitReceipt A b opts callData hash) t r) : ReceiptRun A b opts callData hash t r := by
  rcases r with e | u
  · unfold awaitReceipt at h
    by_cases hs : opts.submit = true
    · rw [if_pos hs] at h
      rcases run_bind_error.1 h with h1 | ⟨t₁, t₂, receipt, rfl, h1, h2⟩
      · obtain ⟨pe, rfl, rfl⟩ := run_await_error.1 h1
        exact .waitFailed pe hs
      have ht₁ : t₁ = [⟨.rpc (.waitForReceipt hash RECEIPT_TIMEOUT), .ok receipt⟩] := run_await_ok.1 h1
      subst ht₁
      rcases receipt with - | receipt
      · obtain ⟨rfl, he⟩ := run_fail.1 h2
        cases he
        exact .timeout hs
      simp only at h2
      by_cases hr : receipt.success = true
      · rw [if_pos hr] at h2
        cases (run_ret.1 h2).2
      rw [if_neg hr] at h2
      rcases run_bind_error.1 h2 with h3 | ⟨t₃, t₄, data, rfl, h3, h4⟩
      · obtain ⟨pe, rfl, rfl⟩ := run_await_error.1 h3
        exact .replayFailed receipt pe hs (by simpa using hr)
      have ht₃ : t₃ = [⟨.rpc (.tryCallForRevert b.signerAddress b.cfg.entrypointAddress callData), .ok data⟩] :=
        run_await_ok.1 h3
      subst ht₃
      obtain ⟨rfl, he⟩ := run_fail.1 h4
      cases he
      exact .reverted receipt data hs (by simpa using hr)
    · rw [if_neg hs] at h
      cases (run_ret.1 h).2
  · rcases run_awaitReceipt_ok.1 h with ⟨hs, rfl⟩ | ⟨hs, receipt, hr, rfl⟩
    · exact .signOnly hs
    · exact .succeeded receipt hs hr

/-! ## A whole call -/

/-- The runs of `buildInner`. -/
inductive CallRun (A : Alloy) (b : Bundler) (ops : List UserOpV07) (opts : BuildOpts) :
    BundlerTrace → Except Exit SignedTxResp → Prop where
  | insane (e : BundlerError) (h : sanity b ops opts = .error e) : CallRun A b ops opts [] (.error (.err e))
  | unprepared (t : BundlerTrace) (e : Exit) (h : Run (prepare A b ops) t (.error e)) :
    CallRun A b ops opts t (.error e)
  | unsigned (s : Settled b ops) (u : BundlerTrace) (e : Exit)
    (h : SubmitRun A b opts (s.prepared A) u (.error e)) :
    CallRun A b ops opts (s.events A ++ guardEvents opts u) (.error e)
  | signed (s : Settled b ops) (u v : BundlerTrace) (tx : SignedTx) (r : Except Exit Unit)
    (h : SubmitRun A b opts (s.prepared A) u (.ok tx)) (h' : ReceiptRun A b opts (s.callData A) tx.hash v r) :
    CallRun A b ops opts (s.events A ++ (guardEvents opts u ++ v)) (r.map fun _ => response b (s.prepared A) tx)

theorem run_buildInner_cases {r : Except Exit SignedTxResp} (h : Run (buildInner A b ops opts) t r) :
    CallRun A b ops opts t r := by
  unfold buildInner at h
  rcases r with e | resp
  · rcases run_bind_error.1 h with h1 | ⟨_, t, _, rfl, h1, h2⟩
    · obtain ⟨rfl, e', he, rfl⟩ := run_orErr_error.1 h1
      exact .insane e' he
    obtain ⟨rfl, -⟩ := run_orErr_ok.1 h1
    rcases run_bind_error.1 h2 with h3 | ⟨_, t, p, rfl, h3, h4⟩
    · exact .unprepared t e h3
    obtain ⟨s, rfl, rfl⟩ := run_prepare_ok.1 h3
    rcases run_bind_error.1 h4 with h5 | ⟨_, t, tx, rfl, h5, h6⟩
    · obtain ⟨u, rfl, hu⟩ := run_signed.1 h5
      exact .unsigned s u e (run_signAndSend_cases hu)
    obtain ⟨u, rfl, hu⟩ := run_signed.1 h5
    rcases run_bind_error.1 h6 with h7 | ⟨_, _, _, -, -, h7⟩
    · exact .signed s u t tx (.error e) (run_signAndSend_cases hu) (run_awaitReceipt_cases h7)
    · cases (run_ret.1 h7).2
  · obtain ⟨_, t, _, rfl, h1, h2⟩ := run_bind_ok.1 h
    obtain ⟨rfl, -⟩ := run_orErr_ok.1 h1
    obtain ⟨_, t, p, rfl, h3, h4⟩ := run_bind_ok.1 h2
    obtain ⟨s, rfl, rfl⟩ := run_prepare_ok.1 h3
    obtain ⟨_, t, tx, rfl, h5, h6⟩ := run_bind_ok.1 h4
    obtain ⟨u, rfl, hu⟩ := run_signed.1 h5
    obtain ⟨v, _, w, rfl, h7, h8⟩ := run_bind_ok.1 h6
    obtain ⟨rfl, hr⟩ := run_ret.1 h8
    cases hr
    rw [List.append_nil]
    exact .signed s u v tx (.ok w) (run_signAndSend_cases hu) (run_awaitReceipt_cases h7)

/-! ## Nothing broadcast is lost -/

/-- `send_raw_transaction` returned `Ok` for the signed envelope. -/
def Broadcast (A : Alloy) (t : BundlerTrace) (env : TxEnvelope) : Prop :=
  signedWith env ∈ t ∧ ∃ submitted, ⟨.rpc (.sendRawTransaction (A.encoded2718 env)), .ok submitted⟩ ∈ t

/-- The outcome tells the caller the transaction hash. -/
def Reported (hash : B256) : Except Exit SignedTxResp → Prop
  | .ok resp => resp.hash = hash
  | .error (.err e) => e.CarriesTxHash hash
  | .error (.panic _) => False

/-- What the node must do after a broadcast: answer the receipt poll and the replay without a
provider error and, where `debug_assert_eq!` is compiled in, echo the hash of the envelope. -/
structure ReceiptAnswered (A : Alloy) (b : Bundler) (t : BundlerTrace) : Prop where
  wait : ∀ hash n pe, ⟨.rpc (.waitForReceipt hash n), .error pe⟩ ∉ t
  replay : ∀ src dest callData pe, ⟨.rpc (.tryCallForRevert src dest callData), .error pe⟩ ∉ t
  echo : b.build.debugAssertions = true → ∀ env submitted, signedWith env ∈ t →
    ⟨.rpc (.sendRawTransaction (A.encoded2718 env)), .ok submitted⟩ ∈ t → submitted = A.txHash env

/-- The questions only asked under the guard or after it. -/
def Op.late : Op → Prop
  | .signEip1559 _ | .rpc (.sendRawTransaction _) | .rpc (.waitForReceipt _ _)
  | .rpc (.tryCallForRevert _ _ _) => True
  | _ => False

theorem not_isCheck_of_late {o : Op} (h : o.late) : ¬ o.isCheck := by
  unfold Op.late at h
  split at h <;> first | exact id | exact absurd h id

theorem Settled.isCheck_of_mem {s : Settled b ops} {ev : Event Op Op.Ans} (h : ev ∈ s.events A) : ev.1.isCheck :=
  only_prepare.mem (run_prepare_ok.2 ⟨s, rfl, rfl⟩) h

theorem mem_call_of_late {s : Settled b ops} {u v : BundlerTrace} {ev : Event Op Op.Ans} (h : ev.1.late) :
    ev ∈ s.events A ++ (guardEvents opts u ++ v) ↔ ev ∈ u ++ v := by
  have hs : ev ∉ s.events A := fun hm => not_isCheck_of_late h (Settled.isCheck_of_mem hm)
  have hg : ev ∈ guardEvents opts u ↔ ev ∈ u := by
    unfold guardEvents
    by_cases hsub : opts.submit = true
    · rw [if_pos hsub]
      have h1 : ev ≠ ⟨.lock, ()⟩ := by rintro rfl; exact h
      have h2 : ev ≠ ⟨.unlock, ()⟩ := by rintro rfl; exact h
      simp [h1, h2]
    · rw [if_neg hsub]
  simp only [List.mem_append, hs, hg, false_or]

theorem broadcast_call {s : Settled b ops} {u v : BundlerTrace} {env : TxEnvelope} :
    Broadcast A (s.events A ++ (guardEvents opts u ++ v)) env ↔ Broadcast A (u ++ v) env := by
  refine and_congr (mem_call_of_late trivial) (exists_congr fun _ => mem_call_of_late trivial)

/-- The node's duties are about the late events alone. -/
theorem ReceiptAnswered.of_late {t' : BundlerTrace} (h : ReceiptAnswered A b t)
    (hm : ∀ ev : Event Op Op.Ans, ev.1.late → (ev ∈ t' → ev ∈ t)) : ReceiptAnswered A b t' where
  wait hash n pe hx := h.wait hash n pe (hm ⟨.rpc (.waitForReceipt hash n), .error pe⟩ trivial hx)
  replay src dest d pe hx := h.replay src dest d pe (hm ⟨.rpc (.tryCallForRevert src dest d), .error pe⟩ trivial hx)
  echo hd env x h1 h2 := h.echo hd env x (hm (signedWith env) trivial h1)
    (hm ⟨.rpc (.sendRawTransaction (A.encoded2718 env)), .ok x⟩ trivial h2)

theorem receiptAnswered_call {s : Settled b ops} {u v : BundlerTrace} :
    ReceiptAnswered A b (s.events A ++ (guardEvents opts u ++ v)) ↔ ReceiptAnswered A b (u ++ v) :=
  ⟨fun h => h.of_late fun _ he hm => (mem_call_of_late he).2 hm,
    fun h => h.of_late fun _ he hm => (mem_call_of_late he).1 hm⟩

/-- Where nothing was sent and no receipt asked for, there is nothing to report. -/
theorem reported_iff_of_quiet {r : Except Exit SignedTxResp}
    (hsend : ∀ raw x, ⟨.rpc (.sendRawTransaction raw), .ok x⟩ ∉ t)
    (hwait : ∀ hash n pe, ⟨.rpc (.waitForReceipt hash n), .error pe⟩ ∉ t)
    (hreplay : ∀ src dest d pe, ⟨.rpc (.tryCallForRevert src dest d), .error pe⟩ ∉ t) :
    (∀ env, Broadcast A t env → Reported (A.txHash env) r) ↔ ReceiptAnswered A b t := by
  refine iff_of_true ?_ ⟨hwait, hreplay, ?_⟩
  · rintro env ⟨-, x, hx⟩
    exact absurd hx (hsend _ _)
  · intro _ env x _ hx
    exact absurd hx (hsend _ _)

theorem reported_iff_of_checks {r : Except Exit SignedTxResp} (h : ∀ ev ∈ t, ev.1.isCheck) :
    (∀ env, Broadcast A t env → Reported (A.txHash env) r) ↔ ReceiptAnswered A b t :=
  reported_iff_of_quiet (fun _ _ hx => h _ hx) (fun _ _ _ hx => h _ hx) (fun _ _ _ _ hx => h _ hx)

/-- A provider error carries no transaction hash. -/
theorem not_reported_provider {hash : B256} {pe : ProviderError} :
    ¬ Reported hash (.error (.err (.provider pe))) := by
  intro h
  have hnone := txHash_get?_eq_none (e := .provider pe) (by simp) (by simp)
  rw [Reported, BundlerError.CarriesTxHash, hnone] at h
  cases h

/-- Only the events under the guard and after it decide. -/
theorem reported_iff_call (s : Settled b ops) (opts : BuildOpts) {u v : BundlerTrace}
    {r : Except Exit SignedTxResp}
    (h : (∀ env, Broadcast A (u ++ v) env → Reported (A.txHash env) r) ↔ ReceiptAnswered A b (u ++ v)) :
    (∀ env, Broadcast A (s.events A ++ (guardEvents opts u ++ v)) env → Reported (A.txHash env) r) ↔
      ReceiptAnswered A b (s.events A ++ (guardEvents opts u ++ v)) := by
  simp only [broadcast_call, receiptAnswered_call]
  exact h

theorem eq_of_signedWith {env env' : TxEnvelope} (h : signedWith env = signedWith env') : env = env' := by
  obtain ⟨tx, sig⟩ := env
  obtain ⟨tx', sig'⟩ := env'
  cases h
  rfl

/-- The events of a broadcast that went through, up to the end of the guard. -/
def sentEvents (A : Alloy) (b : Bundler) (nonce : U64) (env : TxEnvelope) (submitted : B256) : BundlerTrace :=
  [nonceRead b nonce, signedWith env, ⟨.rpc (.sendRawTransaction (A.encoded2718 env)), .ok submitted⟩]

theorem broadcast_sentEvents {nonce : U64} {env : TxEnvelope} {submitted : B256} (v : BundlerTrace) :
    Broadcast A (sentEvents A b nonce env submitted ++ v) env :=
  ⟨by simp [sentEvents], submitted, by simp [sentEvents]⟩

/-- A receipt wait or a replay, whatever the answer. -/
def Op.awaitsReceipt : Op → Prop
  | .rpc (.waitForReceipt _ _) | .rpc (.tryCallForRevert _ _ _) => True
  | _ => False

theorem not_isCheck_of_awaitsReceipt {o : Op} (h : o.awaitsReceipt) : ¬ o.isCheck := by
  unfold Op.awaitsReceipt at h
  split at h <;> first | exact id | exact absurd h id

theorem SubmitRun.not_isCheck {p : Prepared} {u : BundlerTrace} {r : Except Exit SignedTx}
    (h : SubmitRun A b opts p u r) : ∀ ev ∈ u, ¬ ev.1.isCheck := by
  intro ev hm hc
  cases h
  all_goals
    simp only [List.mem_cons, List.not_mem_nil, or_false] at hm
  case nonceFailed | unbuildable => rw [hm] at hc; exact hc
  case signFailed | signOnly => rcases hm with rfl | rfl <;> exact hc
  all_goals rcases hm with rfl | rfl | rfl <;> exact hc

theorem ReceiptRun.awaitsReceipt {callData : Bytes} {hash : B256} {v : BundlerTrace} {r : Except Exit Unit}
    (h : ReceiptRun A b opts callData hash v r) : ∀ ev ∈ v, ev.1.awaitsReceipt := by
  intro ev hm
  cases h
  all_goals
    simp only [List.mem_cons, List.not_mem_nil, or_false] at hm
  case waitFailed | timeout | succeeded => rw [hm]; trivial
  all_goals rcases hm with rfl | rfl <;> trivial

theorem not_isCheck_guardEvents {u : BundlerTrace} (h : ∀ ev ∈ u, ¬ ev.1.isCheck) :
    ∀ ev ∈ guardEvents opts u, ¬ ev.1.isCheck := by
  intro ev hm
  unfold guardEvents at hm
  by_cases hs : opts.submit = true
  · rw [if_pos hs] at hm
    simp only [List.cons_append, List.mem_cons, List.mem_append, List.not_mem_nil, or_false] at hm
    rcases hm with rfl | hm | rfl
    · exact id
    · exact h ev hm
    · exact id
  · rw [if_neg hs] at hm
    exact h ev hm

/-- With a good answer to the wait and the replay both sides hold. -/
theorem reported_iff_of_answered {nonce : U64} {env : TxEnvelope} {submitted : B256} {v : BundlerTrace}
    {r : Except Exit SignedTxResp} (hd : b.build.debugAssertions = true → submitted = A.txHash env)
    (hv : ∀ ev ∈ v, ev.1.awaitsReceipt)
    (hwait : ∀ hash n pe, ⟨.rpc (.waitForReceipt hash n), .error pe⟩ ∉ v)
    (hreplay : ∀ src dest d pe, ⟨.rpc (.tryCallForRevert src dest d), .error pe⟩ ∉ v)
    (hr : Reported (A.txHash env) r) :
    (∀ env', Broadcast A (sentEvents A b nonce env submitted ++ v) env' → Reported (A.txHash env') r) ↔
      ReceiptAnswered A b (sentEvents A b nonce env submitted ++ v) := by
  have hsign : ∀ env', signedWith env' ∈ sentEvents A b nonce env submitted ++ v → env' = env := by
    intro env' hm
    rcases List.mem_append.1 hm with hm | hm
    · simp only [sentEvents, List.mem_cons, List.not_mem_nil, or_false] at hm
      rcases hm with hm | hm | hm
      · cases hm
      · exact eq_of_signedWith hm
      · cases hm
    · exact absurd (hv _ hm) id
  have hsend : ∀ raw x, ⟨.rpc (.sendRawTransaction raw), .ok x⟩ ∈ sentEvents A b nonce env submitted ++ v →
      x = submitted := by
    intro raw x hm
    rcases List.mem_append.1 hm with hm | hm
    · simp only [sentEvents, List.mem_cons, List.not_mem_nil, or_false] at hm
      rcases hm with hm | hm | hm
      · cases hm
      · cases hm
      · cases hm; rfl
    · exact absurd (hv _ hm) id
  refine iff_of_true ?_ ⟨fun hash n pe hm => ?_, fun src dest d pe hm => ?_, fun hdbg env' x h1 h2 => ?_⟩
  · rintro env' ⟨hm, -⟩
    rw [hsign env' hm]
    exact hr
  · rcases List.mem_append.1 hm with hm | hm
    · simp [sentEvents] at hm
    · exact hwait hash n pe hm
  · rcases List.mem_append.1 hm with hm | hm
    · simp [sentEvents] at hm
    · exact hreplay src dest d pe hm
  · rw [hsign env' h1, hsend _ x h2]
    exact hd hdbg

/-- **A broadcast transaction reaches the caller exactly when the node answers what follows.**
For every batch and every behaviour of the provider: the hash of whatever was broadcast is in
the outcome if and only if no provider error follows the broadcast. -/
theorem sent_reported_iff {A : Alloy} {b : Bundler} {ops : List UserOpV07} {opts : BuildOpts}
    {t : BundlerTrace} {r : Except Exit SignedTxResp} (h : Run (buildInner A b ops opts) t r) :
    (∀ env, Broadcast A t env → Reported (A.txHash env) r) ↔ ReceiptAnswered A b t := by
  cases run_buildInner_cases h with
  | insane e he => exact reported_iff_of_checks (by simp)
  | unprepared t e he => exact reported_iff_of_checks fun ev hm => only_prepare.mem he hm
  | unsigned s u e hu =>
    suffices hu' : (∀ env, Broadcast A u env → Reported (A.txHash env) (.error e)) ↔ ReceiptAnswered A b u by
      have hcall := reported_iff_call s opts (v := []) (by rwa [List.append_nil])
      rwa [List.append_nil] at hcall
    cases hu with
    | nonceFailed pe => exact reported_iff_of_quiet (by simp) (by simp) (by simp)
    | unbuildable nonce e he => exact reported_iff_of_quiet (by simp) (by simp) (by simp)
    | signFailed nonce tx se htx => exact reported_iff_of_quiet (by simp) (by simp) (by simp)
    | sendFailed nonce env pe hs htx => exact reported_iff_of_quiet (by simp) (by simp) (by simp)
    | mismatched nonce env submitted hs htx hd hne =>
      refine iff_of_false (fun hrep => ?_) fun hans => ?_
      · exact hrep env (broadcast_sentEvents [])
      · exact hne (hans.echo hd env submitted (by simp) (by simp))
  | signed s u v tx r hu hv =>
    apply reported_iff_call
    cases hu with
    | signOnly nonce env hs htx =>
      cases hv with
      | signOnly _ => exact reported_iff_of_quiet (by simp) (by simp) (by simp)
      | waitFailed _ hs' | timeout hs' | succeeded _ hs' _ | replayFailed _ _ hs' _ | reverted _ _ hs' _ =>
        rw [hs] at hs'
        cases hs'
    | sent nonce env submitted hs htx hd =>
      cases hv with
      | signOnly hs' =>
        rw [hs] at hs'
        cases hs'
      | waitFailed pe _ =>
        refine iff_of_false (fun hrep => ?_) fun hans => ?_
        · exact not_reported_provider (hrep env (broadcast_sentEvents _))
        · exact hans.wait (A.txHash env) RECEIPT_TIMEOUT pe (by simp [SignedTx.of])
      | timeout _ =>
        refine reported_iff_of_answered hd ?_ (by simp) (by simp) (receiptTimeout_carriesTxHash _)
        simp [Op.awaitsReceipt]
      | succeeded receipt _ _ =>
        refine reported_iff_of_answered hd ?_ (by simp) (by simp) rfl
        simp [Op.awaitsReceipt]
      | replayFailed receipt pe _ _ =>
        refine iff_of_false (fun hrep => ?_) fun hans => ?_
        · exact not_reported_provider (hrep env (broadcast_sentEvents _))
        · exact hans.replay b.signerAddress b.cfg.entrypointAddress (s.callData A) pe (by simp)
      | reverted receipt data _ _ =>
        refine reported_iff_of_answered hd ?_ (by simp) (by simp) (handleOpsReverted_carriesTxHash _ _ _)
        simp [Op.awaitsReceipt]

/-- On the happy path nothing is lost. -/
theorem sent_reported_iff_happy : ∃ t r, Run (buildInner alloy testBundler [happyOp] submitOpts) t r ∧
    ∀ env, Broadcast alloy t env → Reported (alloy.txHash env) r := by
  refine ⟨_, _, exec_run mockAnswer _, (sent_reported_iff (exec_run mockAnswer _)).2 ⟨?_, ?_, ?_⟩⟩
  · intro hash n pe hm
    cases exec_mem hm
  · intro src dest d pe hm
    cases exec_mem hm
  · intro hdbg
    cases hdbg

/-- What was accepted had been signed. -/
theorem broadcast_of_send_ok {q : M SignedTxResp} {raw : Bytes} {submitted : B256}
    (h : After (buildInner A b ops opts) t q) (hm : ⟨.rpc (.sendRawTransaction raw), .ok submitted⟩ ∈ t) :
    ∃ env, raw = A.encoded2718 env ∧ Broadcast A t env := by
  obtain ⟨t₁, t₂, rfl, hasks⟩ := h.asks_of_mem hm
  obtain ⟨t', env, rfl, rfl, -⟩ := asks_send hasks
  exact ⟨env, rfl, by simp, submitted, by simp⟩

/-- `send_raw_transaction` was answered `Ok`. -/
def isSendOk : Event Op Op.Ans → Bool
  | ⟨.rpc (.sendRawTransaction _), .ok _⟩ => true
  | _ => false

theorem isSendOk_iff {ev : Event Op Op.Ans} :
    isSendOk ev = true ↔ ∃ raw x, ev = ⟨.rpc (.sendRawTransaction raw), .ok x⟩ := by
  constructor
  · intro h
    unfold isSendOk at h
    split at h
    · exact ⟨_, _, rfl⟩
    · cases h
  · rintro ⟨raw, x, rfl⟩
    rfl

/-- The happy path up to the receipt, whose poll then meets a broken connection. -/
def waitFailsAnswer : (o : Op) → o.Ans
  | .rpc (.waitForReceipt _ _) => .error (.transport "connection reset")
  | o => mockAnswer o

/-- The node accepted the transaction, and the caller gets an error without its hash. -/
theorem sent_not_reported :
    ¬ ∀ (A : Alloy) (b : Bundler) (ops : List UserOpV07) (opts : BuildOpts) (t : BundlerTrace)
      (r : Except Exit SignedTxResp), Run (buildInner A b ops opts) t r →
      ∀ env, Broadcast A t env → Reported (A.txHash env) r := by
  intro hall
  have hrun := exec_run waitFailsAnswer (buildInner alloy testBundler [happyOp] submitOpts)
  have hsend : (exec waitFailsAnswer (buildInner alloy testBundler [happyOp] submitOpts)).1.any isSendOk = true := by
    decide
  have hr : (exec waitFailsAnswer (buildInner alloy testBundler [happyOp] submitOpts)).2 =
      .error (.err (.provider (.transport "connection reset"))) := by rfl
  obtain ⟨ev, hm, ho⟩ := List.any_eq_true.1 hsend
  obtain ⟨raw, x, rfl⟩ := isSendOk_iff.1 ho
  obtain ⟨env, -, hb⟩ := broadcast_of_send_ok hrun hm
  have hrep := hall _ _ _ _ _ _ hrun env hb
  rw [hr] at hrep
  exact not_reported_provider hrep

end EtheraBundler

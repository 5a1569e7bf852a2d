import EtheraBundler.Exits
/-!
# The gas margin

`estimated.saturating_add(estimated * u64::from(self.cfg.gas_margin_pct) / 100)`
(`bundler.rs:175`). The sum saturates; the product in front of the division is a plain `*`, so
it panics under overflow checks and wraps without them.

* `exactGas` — the limit in unbounded integers, stopped at the largest word.
* `gasWithMargin_exact_iff` — the inputs on which the code computes it.
* `UsesGas`, `run_buildInner_gas` — a call signs and returns the limit it computed, or panics
  on computing it.
* `run_buildInner_checked` — a call whose product fits goes the same way with overflow checks.
* `gasMargin_exact_iff` — **the margin does not overflow exactly when** `estimated * pct` fits
  in 64 bits.
-/

namespace EtheraBundler

open Interact Saturating

/-! ## One estimate -/

/-- The gas limit in unbounded integers. -/
def exactGas (estimated pct : Nat) : Nat := min (2 ^ 64 - 1) (estimated + estimated * pct / 100)

theorem exactGas_mono {e e' pct pct' : Nat} (he : e' ≤ e) (hpct : pct' ≤ pct) : exactGas e' pct' ≤ exactGas e pct := by
  have h1 : e' * pct' ≤ e * pct := Nat.mul_le_mul he hpct
  have h2 : e' * pct' / 100 ≤ e * pct / 100 := Nat.div_le_div_right h1
  unfold exactGas
  omega

variable {A : Alloy} {b : Bundler} {ops : List UserOpV07} {opts : BuildOpts} {t : BundlerTrace} {estimated : U64}

/-- `u64::from(self.cfg.gas_margin_pct)` loses nothing. -/
theorem toNat_pct (pct : U32) : (pct.setWidth 64).toNat = pct.toNat := by
  rw [BitVec.toNat_setWidth]
  apply Nat.mod_eq_of_lt
  have := pct.isLt
  omega

/-- The sum stops at the largest word whatever the product came to. -/
theorem toNat_margin (estimated pct : U64) : (satAdd estimated (estimated * pct / 100)).toNat =
    min (2 ^ 64 - 1) (estimated.toNat + estimated.toNat * pct.toNat % 2 ^ 64 / 100) := by
  rw [toNat_satAdd, BitVec.toNat_udiv, BitVec.toNat_mul]
  rfl

/-- Without overflow checks the product is taken modulo `2 ^ 64`. -/
theorem gasWithMargin_unchecked (estimated : U64) (h : b.build.overflowChecks = false) :
    ∃ gas, gasWithMargin b estimated = .ok gas ∧ gas.toNat = min (2 ^ 64 - 1)
      (estimated.toNat + estimated.toNat * b.cfg.gasMarginPct.toNat % 2 ^ 64 / 100) := by
  refine ⟨satAdd estimated (estimated * b.cfg.gasMarginPct.setWidth 64 / 100), ?_, ?_⟩
  · unfold gasWithMargin
    simp [h]
  · rw [toNat_margin, toNat_pct]

theorem gasWithMargin_of_fits (h : estimated.toNat * b.cfg.gasMarginPct.toNat < 2 ^ 64) :
    ∃ gas, gasWithMargin b estimated = .ok gas ∧
      gas.toNat = exactGas estimated.toNat b.cfg.gasMarginPct.toNat := by
  refine ⟨satAdd estimated (estimated * b.cfg.gasMarginPct.setWidth 64 / 100), ?_, ?_⟩
  · unfold gasWithMargin
    simp only [toNat_pct]
    rw [if_neg]
    omega
  · rw [toNat_margin, toNat_pct, Nat.mod_eq_of_lt h]
    rfl

/-- With overflow checks a product past 64 bits panics. -/
theorem gasWithMargin_of_overflow (h : 2 ^ 64 ≤ estimated.toNat * b.cfg.gasMarginPct.toNat)
    (hb : b.build.overflowChecks = true) : gasWithMargin b estimated = .error .mulOverflow := by
  unfold gasWithMargin
  simp only [toNat_pct]
  rw [if_pos ⟨hb, h⟩]

/-- **The limit is right** while the product fits, and past that only where the sum of a release
build saturates on the wrapped product already. -/
theorem gasWithMargin_exact_iff :
    (∃ gas, gasWithMargin b estimated = .ok gas ∧
      gas.toNat = exactGas estimated.toNat b.cfg.gasMarginPct.toNat) ↔
    estimated.toNat * b.cfg.gasMarginPct.toNat < 2 ^ 64 ∨
      (b.build.overflowChecks = false ∧
        2 ^ 64 - 1 ≤ estimated.toNat + estimated.toNat * b.cfg.gasMarginPct.toNat % 2 ^ 64 / 100) := by
  by_cases hfit : estimated.toNat * b.cfg.gasMarginPct.toNat < 2 ^ 64
  · exact iff_of_true (gasWithMargin_of_fits hfit) (Or.inl hfit)
  rcases hb : b.build.overflowChecks with - | -
  · obtain ⟨gas, hg, hv⟩ := gasWithMargin_unchecked estimated hb
    constructor
    · rintro ⟨gas', hg', hv'⟩
      rw [hg] at hg'
      cases hg'
      refine Or.inr ⟨rfl, ?_⟩
      rw [hv] at hv'
      unfold exactGas at hv'
      omega
    · rintro (h | ⟨-, h⟩)
      · exact absurd h hfit
      · refine ⟨gas, hg, ?_⟩
        rw [hv]
        unfold exactGas
        omega
  · refine iff_of_false ?_ ?_
    · rintro ⟨gas, hg, -⟩
      rw [gasWithMargin_of_overflow (by omega) hb] at hg
      cases hg
    · rintro (h | ⟨h, -⟩)
      · exact hfit h
      · cases h

/-! ## A whole call -/

/-- The provider answered the gas estimate of the call with `estimated`. -/
def Estimated (t : BundlerTrace) (estimated : U64) : Prop :=
  ∃ src dest callData, ⟨.rpc (.estimateHandleOpsGas src dest callData), .ok estimated⟩ ∈ t

theorem Estimated.inl {u : BundlerTrace} (h : Estimated t estimated) : Estimated (t ++ u) estimated := by
  obtain ⟨src, dest, callData, hm⟩ := h
  exact ⟨src, dest, callData, List.mem_append_left u hm⟩

theorem Estimated.inr {u : BundlerTrace} (h : Estimated t estimated) : Estimated (u ++ t) estimated := by
  obtain ⟨src, dest, callData, hm⟩ := h
  exact ⟨src, dest, callData, List.mem_append_right u hm⟩

/-- Where a call that computed the limit `gas` uses it. -/
structure UsesGas (gas : U64) (t : BundlerTrace) (r : Except Exit SignedTxResp) : Prop where
  no_panic : r ≠ .error (.panic .mulOverflow)
  signed : ∀ tx x, ⟨.signEip1559 tx, x⟩ ∈ t → tx.gasLimit = gas
  response : ∀ resp, r = .ok resp → resp.gas = gas.setWidth 256

/-- The turns of the loop ask for no estimate. -/
theorem not_estimate_mem_turns {baseFee : U256} {nowUnix : U64} (cs : List (CheckedOp b baseFee nowUnix))
    {src dest : Address} {callData : Bytes} {x : Except ProviderError U64} :
    ⟨.rpc (.estimateHandleOpsGas src dest callData), x⟩ ∉ cs.flatMap (·.events) := by
  intro hm
  obtain ⟨c, -, hc⟩ := List.mem_flatMap.1 hm
  simp [CheckedOp.events] at hc

/-- The estimate of a batch that got through the loop is the one answered last. -/
theorem answer_of_estimated {baseFee suggestedTip : U256} {clock : Option U64}
    (cs : List (CheckedOp b baseFee (clock.getD 0))) {x : Except ProviderError U64}
    (h : Estimated (readEvents baseFee suggestedTip clock ++ (cs.flatMap (·.events) ++ [estimateEvent A b cs x]))
      estimated) : x = .ok estimated := by
  obtain ⟨src, dest, callData, hm⟩ := h
  rcases List.mem_append.1 hm with hm | hm
  · simp [readEvents] at hm
  rcases List.mem_append.1 hm with hm | hm
  · exact absurd hm (not_estimate_mem_turns cs)
  · rw [List.mem_singleton] at hm
    cases hm
    rfl

theorem Settled.estimated_eq {s : Settled b ops} (h : Estimated (s.events A) estimated) : s.estimated = estimated := by
  have hx := answer_of_estimated (A := A) s.checked (x := .ok s.estimated) h
  exact Except.ok.inj hx

/-- What came before the lock in a call whose estimate was answered. -/
theorem run_prepare_estimated {r : Except Exit Prepared} (h : Run (prepare A b ops) t r) (he : Estimated t estimated) :
    ∃ (baseFee suggestedTip : U256) (clock : Option U64) (cs : List (CheckedOp b baseFee (clock.getD 0))),
      t = readEvents baseFee suggestedTip clock ++
        (cs.flatMap (·.events) ++ [estimateEvent A b cs (.ok estimated)]) ∧
      r = settle A b baseFee suggestedTip (cs.foldl CheckedOp.pushTo .empty) estimated := by
  cases run_prepare_cases h with
  | baseFeeFailed pe =>
    obtain ⟨src, dest, callData, hm⟩ := he
    simp at hm
  | tipFailed baseFee pe =>
    obtain ⟨src, dest, callData, hm⟩ := he
    simp at hm
  | rejected baseFee suggestedTip clock u e hloop =>
    obtain ⟨src, dest, callData, hm⟩ := he
    rcases List.mem_append.1 hm with hm | hm
    · simp [readEvents] at hm
    · exact absurd (only_opLoop.mem hloop hm) id
  | estimateFailed baseFee suggestedTip clock cs hops pe => cases answer_of_estimated cs he
  | estimated baseFee suggestedTip clock cs hops estimated' =>
    cases answer_of_estimated cs he
    exact ⟨baseFee, suggestedTip, clock, cs, rfl, rfl⟩

/-- A call that stopped before the lock either panicked on its estimate or computed a limit and
failed for another reason. -/
theorem run_prepare_gas {x : Exit} (h : Run (prepare A b ops) t (.error x)) (he : Estimated t estimated) :
    (∃ p, gasWithMargin b estimated = .error p ∧ x = .panic p) ∨
    ∃ gas, gasWithMargin b estimated = .ok gas ∧ x ≠ .panic .mulOverflow := by
  obtain ⟨baseFee, suggestedTip, clock, cs, -, hr⟩ := run_prepare_estimated h he
  rcases settle_cases A b baseFee suggestedTip (cs.foldl CheckedOp.pushTo .empty) estimated with
    ⟨p, hg, hs⟩ | ⟨gas, hg, hs | ⟨tip, cap, -, -, hs⟩⟩
  · rw [hs] at hr
    cases hr
    exact Or.inl ⟨p, hg, rfl⟩
  · rw [hs] at hr
    cases hr
    exact Or.inr ⟨gas, hg, by simp⟩
  · refine Or.inr ⟨gas, hg, ?_⟩
    rintro rfl
    rcases hf : chooseOuterFees b baseFee suggestedTip tip cap with e | fees
    · rw [hs, hf] at hr
      cases hr
    · rw [hs, hf] at hr
      cases hr

/-- The estimate was answered before the lock. -/
theorem estimated_call {s : Settled b ops} {u v : BundlerTrace} {r : Except Exit SignedTx}
    (hu : SubmitRun A b opts (s.prepared A) u r) (hv : ∀ ev ∈ v, ev.1.awaitsReceipt)
    (h : Estimated (s.events A ++ (guardEvents opts u ++ v)) estimated) : s.estimated = estimated := by
  obtain ⟨src, dest, callData, hm⟩ := h
  have hcheck : Op.isCheck (.rpc (.estimateHandleOpsGas src dest callData)) := trivial
  rcases List.mem_append.1 hm with hm | hm
  · exact Settled.estimated_eq (A := A) ⟨src, dest, callData, hm⟩
  rcases List.mem_append.1 hm with hm | hm
  · exact absurd hcheck (not_isCheck_guardEvents hu.not_isCheck _ hm)
  · exact absurd hcheck (not_isCheck_of_awaitsReceipt (hv _ hm))

/-- Everything signed under the guard carries the limit settled before it. -/
theorem SubmitRun.gasLimit {s : Settled b ops} {u : BundlerTrace} {r : Except Exit SignedTx}
    (h : SubmitRun A b opts (s.prepared A) u r) {tx : TxEip1559} {x : Except SignerError Signature}
    (hm : ⟨.signEip1559 tx, x⟩ ∈ u) : tx.gasLimit = s.gas := by
  have hgas (nonce : U64) (tx' : TxEip1559) (hb : buildTx b (s.prepared A) nonce = .ok tx') :
      tx'.gasLimit = s.gas := by
    rw [buildTx_ok] at hb
    cases hb
    rfl
  cases h with
  | nonceFailed pe => simp at hm
  | unbuildable nonce e he => simp at hm
  | signFailed nonce tx' se hb =>
    simp only [List.mem_cons, List.not_mem_nil, or_false] at hm
    rcases hm with hm | hm
    · cases hm
    · cases hm
      exact hgas nonce tx hb
  | sendFailed nonce env pe hs hb | mismatched nonce env submitted hs hb hd hne | sent nonce env submitted hs hb hd =>
    simp only [List.mem_cons, List.not_mem_nil, or_false] at hm
    rcases hm with hm | hm | hm
    · cases hm
    · cases hm
      exact hgas nonce env.tx hb
    · cases hm
  | signOnly nonce env hs hb =>
    simp only [List.mem_cons, List.not_mem_nil, or_false] at hm
    rcases hm with hm | hm
    · cases hm
    · cases hm
      exact hgas nonce env.tx hb

/-- **The limit a call computed** is the one it signs and returns. -/
theorem run_buildInner_gas {r : Except Exit SignedTxResp} (h : Run (buildInner A b ops opts) t r)
    (he : Estimated t estimated) :
    (∃ p, gasWithMargin b estimated = .error p ∧ r = .error (.panic p)) ∨
    ∃ gas, gasWithMargin b estimated = .ok gas ∧ UsesGas gas t r := by
  cases run_buildInner_cases h with
  | insane e hs =>
    obtain ⟨src, dest, callData, hm⟩ := he
    cases hm
  | unprepared t x hx =>
    rcases run_prepare_gas hx he with ⟨p, hg, rfl⟩ | ⟨gas, hg, hne⟩
    · exact Or.inl ⟨p, hg, rfl⟩
    refine Or.inr ⟨gas, hg, ?_, ?_, ?_⟩
    · intro hr
      cases hr
      exact hne rfl
    · intro tx x hm
      exact absurd (only_prepare.mem hx hm) id
    · intro resp hr
      cases hr
  | unsigned s u x hu =>
    rw [← List.append_nil (guardEvents opts u)] at he ⊢
    have hs := estimated_call hu (by simp) he
    refine Or.inr ⟨s.gas, hs ▸ s.gas_eq, ?_, ?_, ?_⟩
    · intro hr
      cases hr
      cases hu
    · intro tx y hm
      have hlate : Op.late (.signEip1559 tx) := trivial
      rcases List.mem_append.1 ((mem_call_of_late hlate).1 hm) with hm | hm
      · exact hu.gasLimit hm
      · cases hm
    · intro resp hr
      cases hr
  | signed s u v tx r hu hv =>
    have hs := estimated_call hu hv.awaitsReceipt he
    refine Or.inr ⟨s.gas, hs ▸ s.gas_eq, ?_, ?_, ?_⟩
    · intro hr
      cases hv <;> cases hr
    · intro tx' y hm
      have hlate : Op.late (.signEip1559 tx') := trivial
      rcases List.mem_append.1 ((mem_call_of_late hlate).1 hm) with hm | hm
      · exact hu.gasLimit hm
      · exact absurd (hv.awaitsReceipt _ hm) id
    · intro resp hr
      rcases r with e | w
      · cases hr
      · cases hr
        rfl

/-- A call whose product fits computes the exact limit. -/
theorem run_buildInner_exactGas {r : Except Exit SignedTxResp} (h : Run (buildInner A b ops opts) t r)
    (he : Estimated t estimated) (hfit : estimated.toNat * b.cfg.gasMarginPct.toNat < 2 ^ 64) :
    ∃ gas, gas.toNat = exactGas estimated.toNat b.cfg.gasMarginPct.toNat ∧ UsesGas gas t r := by
  obtain ⟨gas, hg, hv⟩ := gasWithMargin_of_fits hfit
  rcases run_buildInner_gas h he with ⟨p, hg', -⟩ | ⟨gas', hg', huse⟩
  · rw [hg] at hg'
    cases hg'
  · rw [hg] at hg'
    cases hg'
    exact ⟨gas, hv, huse⟩

/-- An overflow under overflow checks ends the call in the panic of the multiplication. -/
theorem run_buildInner_mulOverflow {r : Except Exit SignedTxResp} (h : Run (buildInner A b ops opts) t r)
    (he : Estimated t estimated) (hb : b.build.overflowChecks = true)
    (hov : 2 ^ 64 ≤ estimated.toNat * b.cfg.gasMarginPct.toNat) : r = .error (.panic .mulOverflow) := by
  have hp := gasWithMargin_of_overflow hov hb
  rcases run_buildInner_gas h he with ⟨p, hg, rfl⟩ | ⟨gas, hg, -⟩
  · rw [hp] at hg
    cases hg
    rfl
  · rw [hp] at hg
    cases hg

/-! ## The same call with overflow checks -/

/-- The same bundler, built with overflow checks: arithmetic that would wrap panics. -/
def Bundler.checked (b : Bundler) : Bundler := { b with build := { b.build with overflowChecks := true } }

/-- The loop has no arithmetic that the checks would stop. -/
theorem opLoop_checked {baseFee : U256} {nowUnix : U64} : ∀ {ops : List UserOpV07} {i : Nat} {acc : LoopAcc},
    opLoop b.checked baseFee nowUnix i acc ops = opLoop b baseFee nowUnix i acc ops
  | [], _, _ => rfl
  | op :: ops, i, acc => by
    show checkOp b baseFee nowUnix i acc op >>= _ = checkOp b baseFee nowUnix i acc op >>= _
    simp only [opLoop_checked]

theorem gasWithMargin_checked (h : estimated.toNat * b.cfg.gasMarginPct.toNat < 2 ^ 64) :
    gasWithMargin b.checked estimated = gasWithMargin b estimated := by
  have hpct : ¬ 2 ^ 64 ≤ estimated.toNat * (b.cfg.gasMarginPct.setWidth 64).toNat := by
    rw [toNat_pct]
    omega
  unfold gasWithMargin
  simp only
  rw [if_neg fun hc => hpct hc.2, if_neg fun hc => hpct hc.2]
  rfl

theorem settle_checked {baseFee suggestedTip : U256} {acc : LoopAcc}
    (h : estimated.toNat * b.cfg.gasMarginPct.toNat < 2 ^ 64) :
    settle A b.checked baseFee suggestedTip acc estimated = settle A b baseFee suggestedTip acc estimated := by
  unfold settle
  rw [gasWithMargin_checked h]
  rfl

theorem run_prepare_checked {r : Except Exit Prepared} (h : Run (prepare A b ops) t r)
    (hfit : ∀ e, Estimated t e → e.toNat * b.cfg.gasMarginPct.toNat < 2 ^ 64) :
    Run (prepare A b.checked ops) t r := by
  rw [prepare_eq] at h ⊢
  refine h.bind_congr (fun _ _ _ _ => id) fun _ t₁ baseFee ht₁ _ h₁ => ?_
  refine h₁.bind_congr (fun _ _ _ _ => id) fun _ t₂ suggestedTip ht₂ _ h₂ => ?_
  refine h₂.bind_congr (fun _ _ _ _ => id) fun _ t₃ nowUnix ht₃ _ h₃ => ?_
  refine h₃.bind_congr ?_ fun _ t₄ acc ht₄ _ h₄ => ?_
  · intro _ _ _ _ hloop
    rw [opLoop_checked]
    exact hloop
  refine h₄.bind_congr (fun _ _ _ _ => id) fun t₅ t₆ estimated ht₅ hest h₅ => ?_
  -- the answer to the estimate is the only thing the checks look at
  have he : Estimated t₅ estimated := ⟨_, _, _, by rw [run_await_ok.1 hest]; exact List.mem_singleton_self _⟩
  subst ht₅ ht₄ ht₃ ht₂ ht₁
  rw [settle_checked (hfit estimated he.inl.inr.inr.inr.inr)]
  exact h₅

/-- The node answers one estimate in a call. -/
theorem Estimated.unique {estimated' : U64} {r : Except Exit SignedTxResp} (h : Run (buildInner A b ops opts) t r)
    (he : Estimated t estimated) (he' : Estimated t estimated') : estimated = estimated' := by
  cases run_buildInner_cases h with
  | insane e hs =>
    obtain ⟨src, dest, callData, hm⟩ := he
    cases hm
  | unprepared t x hx =>
    obtain ⟨baseFee, suggestedTip, clock, cs, rfl, -⟩ := run_prepare_estimated hx he
    exact Except.ok.inj (answer_of_estimated cs he')
  | unsigned s u x hu =>
    rw [← List.append_nil (guardEvents opts u)] at he he'
    rw [← estimated_call hu (by simp) he, estimated_call hu (by simp) he']
  | signed s u v tx r hu hv =>
    rw [← estimated_call hu hv.awaitsReceipt he, estimated_call hu hv.awaitsReceipt he']

/-- **Overflow checks change nothing** in a call whose product fits. -/
theorem run_buildInner_checked {r : Except Exit SignedTxResp} (h : Run (buildInner A b ops opts) t r)
    (he : Estimated t estimated) (hfit : estimated.toNat * b.cfg.gasMarginPct.toNat < 2 ^ 64) :
    Run (buildInner A b.checked ops opts) t r := by
  have hall (e : U64) (h' : Estimated t e) : e.toNat * b.cfg.gasMarginPct.toNat < 2 ^ 64 := by
    rw [← he.unique h h']
    exact hfit
  unfold buildInner at h ⊢
  refine h.bind_congr (fun _ _ _ _ => id) fun _ t₁ _ ht _ h₁ => ?_
  refine h₁.bind_congr ?_ fun _ _ _ _ _ => id
  rintro t₂ t₃ x rfl hx
  subst ht
  exact run_prepare_checked hx fun e h' => hall e h'.inl.inr

/-! ## The margin -/

/-- What the margin owes a call: nothing wraps, so that the same call built with overflow checks
goes the same way, and nothing panics; the limit signed and returned is the exact one; and a call
with a smaller estimate and a smaller margin gets no larger limit. -/
structure MarginExact (A : Alloy) (b : Bundler) (ops : List UserOpV07) (opts : BuildOpts) (estimated : U64)
    (t : BundlerTrace) (r : Except Exit SignedTxResp) : Prop where
  no_wrap : Run (buildInner A b.checked ops opts) t r
  no_panic : r ≠ .error (.panic .mulOverflow)
  signed : ∀ tx x, ⟨.signEip1559 tx, x⟩ ∈ t →
    tx.gasLimit.toNat = exactGas estimated.toNat b.cfg.gasMarginPct.toNat
  response : ∀ resp, r = .ok resp → resp.gas.toNat = exactGas estimated.toNat b.cfg.gasMarginPct.toNat
  monotone : ∀ (A' : Alloy) (b' : Bundler) (ops' : List UserOpV07) (opts' : BuildOpts) (t' : BundlerTrace)
    (r' : Except Exit SignedTxResp) (estimated' : U64), Run (buildInner A' b' ops' opts') t' r' →
    Estimated t' estimated' → estimated' ≤ estimated → b'.cfg.gasMarginPct ≤ b.cfg.gasMarginPct →
    ∀ tx' x' tx x, ⟨.signEip1559 tx', x'⟩ ∈ t' → ⟨.signEip1559 tx, x⟩ ∈ t → tx'.gasLimit ≤ tx.gasLimit

/-- **The gas margin**, over every estimate and every configured margin: it is exact, does not
wrap or panic and is monotone exactly when the product in front of the division fits in 64 bits. -/
theorem gasMargin_exact_iff {r : Except Exit SignedTxResp} (h : Run (buildInner A b ops opts) t r)
    (he : Estimated t estimated) :
    MarginExact A b ops opts estimated t r ↔ estimated.toNat * b.cfg.gasMarginPct.toNat < 2 ^ 64 := by
  constructor
  · intro hexact
    by_contra hov
    -- the call built with overflow checks stops at the multiplication
    exact hexact.no_panic (run_buildInner_mulOverflow hexact.no_wrap he rfl (Nat.le_of_not_lt hov))
  · intro hfit
    obtain ⟨gas, hv, huse⟩ := run_buildInner_exactGas h he hfit
    refine ⟨run_buildInner_checked h he hfit, huse.no_panic, ?_, ?_, ?_⟩
    · intro tx x hm
      rw [huse.signed tx x hm, hv]
    · intro resp hr
      rw [huse.response resp hr, BitVec.toNat_setWidth, ← hv]
      apply Nat.mod_eq_of_lt
      have := gas.isLt
      omega
    · intro A' b' ops' opts' t' r' estimated' h' he' hest hpct tx' x' tx x hm' hm
      have hfit' : estimated'.toNat * b'.cfg.gasMarginPct.toNat < 2 ^ 64 :=
        Nat.lt_of_le_of_lt (Nat.mul_le_mul hest hpct) hfit
      obtain ⟨gas', hv', huse'⟩ := run_buildInner_exactGas h' he' hfit'
      rw [huse'.signed tx' x' hm', huse.signed tx x hm, BitVec.le_def, hv', hv]
      exact exactGas_mono hest hpct

/-! ## Two estimates from the test-suite's node -/

/-- The test-suite's 250000 with its 10 % margin. -/
theorem gasMargin_exact_iff_happy : ∃ t r, Run (buildInner alloy testBundler [happyOp] submitOpts) t r ∧
    Estimated t 250000 ∧ MarginExact alloy testBundler [happyOp] submitOpts 250000 t r := by
  have hrun := exec_run mockAnswer (buildInner alloy testBundler [happyOp] submitOpts)
  have hest : Estimated (exec mockAnswer (buildInner alloy testBundler [happyOp] submitOpts)).1 250000 :=
    ⟨_, _, _, List.mem_of_getElem? (i := 6) rfl⟩
  exact ⟨_, _, hrun, hest, (gasMargin_exact_iff hrun hest).2 (by decide)⟩

/-- The test-suite's node, with a gas estimate of `2 ^ 62`. -/
def largeEstimateAnswer : (o : Op) → o.Ans
  | .rpc (.estimateHandleOpsGas _ _ _) => .ok 4611686018427387904
  | o => mockAnswer o

/-- A release build returns 4703919738795935662, where the estimate plus 10 % of it is
5072854620270126694. -/
theorem gasMargin_wraps :
    ¬ ∀ (A : Alloy) (b : Bundler) (ops : List UserOpV07) (opts : BuildOpts) (t : BundlerTrace)
      (r : Except Exit SignedTxResp) (estimated : U64), Run (buildInner A b ops opts) t r →
      Estimated t estimated → MarginExact A b ops opts estimated t r := by
  intro hall
  have hrun := exec_run largeEstimateAnswer (buildInner alloy testBundler [happyOp] submitOpts)
  have hexact := hall _ _ _ _ _ _ 4611686018427387904 hrun ⟨_, _, _, List.mem_of_getElem? (i := 6) rfl⟩
  have hgas : (exec largeEstimateAnswer (buildInner alloy testBundler [happyOp] submitOpts)).2.map (·.gas) =
      .ok 4703919738795935662 := rfl
  rcases hr : (exec largeEstimateAnswer (buildInner alloy testBundler [happyOp] submitOpts)).2 with e | resp
  · rw [hr] at hgas
    cases hgas
  · rw [hr] at hgas
    have hresp : resp.gas = 4703919738795935662 := Except.ok.inj hgas
    have hval := hexact.response resp hr
    rw [hresp] at hval
    exact absurd hval (by decide)

end EtheraBundler

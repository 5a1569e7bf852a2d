import EtheraBundler.FeePolicy
import EtheraBundler.GasMargin
import EtheraBundler.Mock
import EtheraBundler.Order
import EtheraBundler.Prefund
import EtheraBundler.Windows
/-!
# What a call is for

The surroundings of a call (the node, the signer, the clock) as a table of answers, and what the call
makes of them, in integers: no loop, no accumulator, no machine word.

* `OpMeets` — an op that is taken, with the packed op and the hash it is taken as.
* `Meets` — a call that returns, and with what.
* `exec_checks_iff` — the turns of the loop, op by op.
* `call_meets` — **a call is what it is for**: `build_inner` returns a response exactly when `Meets` says
  so, and that one.
* `submit_iff_signOnly` — **a sign-only call says what a submit would return**.
-/

namespace EtheraBundler

open BigEndian Interact Saturating

variable {A : Alloy} {b : Bundler} {env : (o : Op) → o.Ans} {ops : List UserOpV07} {opts : BuildOpts}

/-! ## One op -/

/-- An op that is taken as `packed`, under `hash`, when the base fee is `baseFee` and the time `now`. -/
structure OpMeets (env : (o : Op) → o.Ans) (b : Bundler) (baseFee : U256) (now : U64) (op : UserOpV07)
    (packed : PackedUserOperation) (hash : B256) : Prop where
  packable : Packable op
  packs : PacksTo op packed
  min_le_tip : b.cfg.minPriorityFeeWei.toNat ≤ op.maxPriorityFeePerGas.toNat
  tip_le_cap : op.maxPriorityFeePerGas.toNat ≤ op.maxFeePerGas.toNat
  cap_covers : baseFee.toNat + b.cfg.minPriorityFeeWei.toNat ≤ op.maxFeePerGas.toNat
  /-- The sponsor's deposit covers the prefund. -/
  funded : ∃ sponsor required deposit, exactPrefund op packed = some (sponsor, required) ∧
    env (.rpc (.balanceOf b.cfg.entrypointAddress sponsor)) = .ok deposit ∧ min (2 ^ 256 - 1) required ≤ deposit.toNat
  /-- Neither word has an aggregator, and both windows are open. -/
  validated : ∃ raw, env (.rpc (.simulateValidation b.cfg.entrypointAddress b.simulationsCode packed)) = .ok raw ∧
    ∀ data ∈ [raw.returnInfo.accountValidationData, raw.returnInfo.paymasterValidationData],
      (WindowFields.of data).aggregator = 0 ∧ (WindowFields.of data).OpenAt now.toNat
  hashed : env (.rpc (.userOpHash b.cfg.entrypointAddress packed)) = .ok hash

theorem feesOk_iff {baseFee : U256} {op : UserOpV07} (hp : Packable op) : FeesOk b op baseFee ↔
    b.cfg.minPriorityFeeWei.toNat ≤ op.maxPriorityFeePerGas.toNat ∧
      op.maxPriorityFeePerGas.toNat ≤ op.maxFeePerGas.toNat ∧
      baseFee.toNat + b.cfg.minPriorityFeeWei.toNat ≤ op.maxFeePerGas.toNat := by
  rw [← satAdd_le_iff hp.maxFeePerGas, ← BitVec.le_def, ← BitVec.le_def]
  exact ⟨fun h => ⟨h.min_le_tip, h.tip_le_cap, h.cap_covers⟩, fun h => ⟨h.2.1, h.1, h.2.2⟩⟩

theorem prefundRequirement_iff {op : UserOpV07} {packed : PackedUserOperation} {sponsor : Address} {deposit : U256} :
    (∃ required, prefundRequirement op packed = .ok (sponsor, required) ∧ required ≤ deposit) ↔
      ∃ amount, exactPrefund op packed = some (sponsor, amount) ∧ min (2 ^ 256 - 1) amount ≤ deposit.toNat := by
  rcases prefundRequirement_cases op packed with ⟨hnone, e, he⟩ | ⟨sponsor', amount, required, hsome, hok, hreq⟩
  · simp [hnone, he]
  · have hcap : cap 256 amount = min (2 ^ 256 - 1) amount := rfl
    rw [hsome, hok]
    constructor
    · rintro ⟨_, he, hle⟩
      cases he
      refine ⟨amount, rfl, ?_⟩
      rw [← hcap, ← hreq]
      exact hle
    · rintro ⟨_, he, hle⟩
      cases he
      refine ⟨required, rfl, ?_⟩
      rw [BitVec.le_def, hreq, hcap]
      exact hle

theorem judge_ok_iff {raw : ValidationResult} {now : U64} : (∃ report, judge raw now = .ok report) ↔
    ∀ data ∈ [raw.returnInfo.accountValidationData, raw.returnInfo.paymasterValidationData],
      (WindowFields.of data).aggregator = 0 ∧ (WindowFields.of data).OpenAt now.toNat := by
  rw [(judge_exact raw now).ok_iff]
  simp only [List.mem_cons, List.not_mem_nil, or_false, forall_eq_or_imp, forall_eq]
  constructor
  · rintro ⟨h1, h2, h3, h4⟩
    exact ⟨⟨h1, h3⟩, h2, h4⟩
  · rintro ⟨⟨h1, h3⟩, h2, h4⟩
    exact ⟨h1, h2, h3, h4⟩

/-- **One turn of the loop**, without the loop. -/
theorem opMeets_iff {baseFee : U256} {now : U64} {op : UserOpV07} {packed : PackedUserOperation} {hash : B256} :
    (∃ c : CheckedOp b baseFee now, AnsweredBy env c.events ∧ c.op = op ∧ c.packed = packed ∧ c.hash = hash) ↔
      OpMeets env b baseFee now op packed hash := by
  constructor
  · rintro ⟨c, hans, rfl, rfl, rfl⟩
    obtain ⟨hpackable, hpacks⟩ := pack_ok.1 c.pack_eq
    obtain ⟨hmin, htip, hcap⟩ := (feesOk_iff hpackable).1 c.fees_ok
    obtain ⟨amount, hexact, hle⟩ := prefundRequirement_iff.1 ⟨c.required, c.prefund_eq, c.covered⟩
    refine ⟨hpackable, hpacks, hmin, htip, hcap, ⟨c.sponsor, amount, c.deposit, hexact, ?_, hle⟩,
      ⟨c.validation, ?_, judge_ok_iff.1 c.accepted⟩, ?_⟩
    · exact (hans _ _ (by simp [CheckedOp.events])).symm
    · exact (hans _ _ (by simp [CheckedOp.events])).symm
    · exact (hans _ _ (by simp [CheckedOp.events])).symm
  · intro h
    obtain ⟨sponsor, amount, deposit, hexact, hdeposit, hle⟩ := h.funded
    obtain ⟨required, hprefund, hcovered⟩ := prefundRequirement_iff.2 ⟨amount, hexact, hle⟩
    obtain ⟨raw, hraw, hwords⟩ := h.validated
    refine ⟨⟨op, packed, sponsor, required, deposit, raw, hash,
      (feesOk_iff h.packable).2 ⟨h.min_le_tip, h.tip_le_cap, h.cap_covers⟩, pack_ok.2 ⟨h.packable, h.packs⟩,
      hprefund, hcovered, judge_ok_iff.2 hwords⟩, ?_, rfl, rfl, rfl⟩
    intro o x hm
    simp only [CheckedOp.events, List.mem_cons, List.not_mem_nil, or_false] at hm
    rcases hm with hm | hm | hm
    · cases hm
      exact hdeposit.symm
    · cases hm
      exact hraw.symm
    · cases hm
      exact h.hashed.symm

/-- **The turns of the loop**, op by op. -/
theorem exec_checks_iff {baseFee : U256} {now : U64} {out : List (PackedUserOperation × B256)} :
    (∃ cs : List (CheckedOp b baseFee now), cs.map (·.op) = ops ∧ (∀ c ∈ cs, AnsweredBy env c.events) ∧
      out = cs.map fun c => (c.packed, c.hash)) ↔
    List.Forall₂ (fun op o => OpMeets env b baseFee now op o.1 o.2) ops out := by
  induction ops generalizing out with
  | nil =>
    rw [List.forall₂_nil_left_iff]
    constructor
    · rintro ⟨cs, hcs, -, rfl⟩
      rw [List.map_eq_nil_iff.1 hcs]
      rfl
    · rintro rfl
      exact ⟨[], rfl, fun c hc => (by cases hc), rfl⟩
  | cons op ops ih =>
    rw [List.forall₂_cons_left_iff]
    constructor
    · rintro ⟨cs, hcs, hans, rfl⟩
      obtain ⟨c, cs, rfl, hop, hrest⟩ := List.map_eq_cons_iff.1 hcs
      refine ⟨_, _, opMeets_iff.1 ⟨c, hans c List.mem_cons_self, hop, rfl, rfl⟩, ih.1 ⟨cs, hrest, ?_, rfl⟩, rfl⟩
      exact fun d hd => hans d (List.mem_cons_of_mem _ hd)
    · rintro ⟨⟨packed, hash⟩, out, hmeets, hrest, rfl⟩
      obtain ⟨c, hc, rfl, hpacked, hhash⟩ := opMeets_iff.2 hmeets
      obtain ⟨cs, rfl, hcs, rfl⟩ := ih.2 hrest
      refine ⟨c :: cs, rfl, fun d hd => ?_, by rw [List.map_cons, hpacked, hhash]⟩
      rcases List.mem_cons.1 hd with rfl | hd
      · exact hc
      · exact hcs d hd

/-! ## The batch -/

/-- What is decided about a batch, without a loop and without an accumulator. -/
structure BatchMeets (env : (o : Op) → o.Ans) (b : Bundler) (ops : List UserOpV07) (baseFee suggestedTip : U256)
    (taken : List (PackedUserOperation × B256)) (outerTip outerFeeCap : Nat) : Prop where
  baseFee_eq : env (.rpc .baseFee) = .ok baseFee
  suggestedTip_eq : env (.rpc .maxPriorityFee) = .ok suggestedTip
  taken : List.Forall₂ (fun op o => OpMeets env b baseFee ((env .sinceEpoch).getD 0) op o.1 o.2) ops taken
  fits : TipFits baseFee suggestedTip ops
  feeCap : IsLeast (batchValues (·.maxFeePerGas) ops) outerFeeCap
  tip : ∃ minTip, IsLeast (batchValues (·.maxPriorityFeePerGas) ops) minTip ∧
    outerTip = min (max b.cfg.minPriorityFeeWei.toNat suggestedTip.toNat) minTip

theorem policy_of_opMeets {baseFee : U256} {now : U64} {taken : List (PackedUserOperation × B256)}
    (h : List.Forall₂ (fun op o => OpMeets env b baseFee now op o.1 o.2) ops taken) :
    ∀ op ∈ ops, FeesOk b op baseFee ∧ Packable op := by
  intro op hop
  obtain ⟨i, hi, rfl⟩ := List.getElem_of_mem hop
  have hm := h.get hi (h.length_eq ▸ hi)
  exact ⟨(feesOk_iff hm.packable).2 ⟨hm.min_le_tip, hm.tip_le_cap, hm.cap_covers⟩, hm.packable⟩

theorem foldl_updateMin_eq_some_iff {field : UserOpV07 → U256} {m : U256} :
    (ops.map field).foldl updateMin none = some m ↔ IsLeast (batchValues field ops) m.toNat := by
  constructor
  · exact foldl_updateMin_isLeast
  · intro h
    obtain ⟨op, hop, -⟩ := h.1
    have hne : ops.map field ≠ [] := List.ne_nil_of_mem (List.mem_map_of_mem hop)
    obtain ⟨m', -, hm', -⟩ := foldl_updateMin hne
    rw [hm', Option.some.injEq]
    exact BitVec.eq_of_toNat_eq ((foldl_updateMin_isLeast hm').unique h)

theorem exec_checkBatch_iff {o : BatchOutcome} : (exec env (checkBatch b ops)).2 = .ok o ↔
    ∃ baseFee suggestedTip taken, BatchMeets env b ops baseFee suggestedTip taken o.outerTip.toNat
      o.outerFeeCap.toNat ∧
      o.packedOps = taken.map (·.1) ∧ o.userOpHashes = taken.map (·.2) := by
  rw [exec_checkBatch_ok]
  constructor
  · rintro ⟨baseFee, suggestedTip, hb, hs, cs, rfl, hans, tip, cap, ht, hc, hf, hp, hh⟩
    have htaken := exec_checks_iff.1 ⟨cs, rfl, hans, rfl⟩
    have htips : ((cs.map (·.op)).map (·.maxPriorityFeePerGas)).foldl updateMin none = some tip := by
      rw [List.map_map]
      exact ht
    have hcaps : ((cs.map (·.op)).map (·.maxFeePerGas)).foldl updateMin none = some cap := by
      rw [List.map_map]
      exact hc
    obtain ⟨hotip, hocap⟩ := Prod.mk.inj (chooseOuterFees_ok.1 hf).1
    refine ⟨baseFee, suggestedTip, _, ⟨hb, hs, htaken, ?_, ?_, _, foldl_updateMin_isLeast htips, ?_⟩, ?_, ?_⟩
    · exact (exists_outerFees_iff (policy_of_opMeets htaken) htips hcaps).1 ⟨_, hf⟩
    · rw [hocap]
      exact foldl_updateMin_isLeast hcaps
    · rw [hotip, toNat_minU256, toNat_maxU256]
    · rw [hp, List.map_map]
      rfl
    · rw [hh, List.map_map]
      rfl
  · rintro ⟨baseFee, suggestedTip, taken, h, hp, hh⟩
    obtain ⟨cs, rfl, hans, rfl⟩ := exec_checks_iff.2 h.taken
    obtain ⟨minTip, hleast, htip⟩ := h.tip
    have hlt : minTip < 2 ^ 256 := by
      obtain ⟨op, -, rfl⟩ := hleast.1
      exact op.maxPriorityFeePerGas.isLt
    have hnum : (BitVec.ofNat 256 minTip).toNat = minTip := by rw [BitVec.toNat_ofNat, Nat.mod_eq_of_lt hlt]
    have htips := foldl_updateMin_eq_some_iff.2 (hnum.symm ▸ hleast)
    have hcaps := foldl_updateMin_eq_some_iff.2 h.feeCap
    obtain ⟨fees, hf⟩ := (exists_outerFees_iff (policy_of_opMeets h.taken) htips hcaps).2 h.fits
    have hfees : fees = (o.outerTip, o.outerFeeCap) := by
      rw [(chooseOuterFees_ok.1 hf).1, Prod.mk.injEq]
      refine ⟨BitVec.eq_of_toNat_eq ?_, rfl⟩
      rw [toNat_minU256, toNat_maxU256, hnum, htip]
    rw [List.map_map] at htips hcaps
    rw [List.map_map] at hp hh
    rw [hfees] at hf
    exact ⟨baseFee, suggestedTip, h.baseFee_eq, h.suggestedTip_eq, cs, rfl, hans, _, _, htips, hcaps, hf, hp, hh⟩

/-! ## The transaction -/

theorem gasWithMargin_ok_iff {estimated gas : U64} : gasWithMargin b estimated = .ok gas ↔
    (b.build.overflowChecks = true → estimated.toNat * b.cfg.gasMarginPct.toNat < 2 ^ 64) ∧
      gas.toNat = min (2 ^ 64 - 1) (estimated.toNat + estimated.toNat * b.cfg.gasMarginPct.toNat % 2 ^ 64 / 100) := by
  rw [← toNat_pct, ← toNat_margin, BitVec.toNat_inj, eq_comm (a := gas)]
  unfold gasWithMargin
  by_cases h : b.build.overflowChecks = true ∧ 2 ^ 64 ≤ estimated.toNat * (b.cfg.gasMarginPct.setWidth 64).toNat
  · rw [if_pos h]
    refine iff_of_false (fun he => (by cases he)) fun hc => ?_
    have hlt := hc.1 h.1
    omega
  · rw [if_neg h, Except.ok.injEq]
    refine (and_iff_right fun hb => ?_).symm
    by_contra hge
    exact h ⟨hb, Nat.le_of_not_lt hge⟩

theorem u128FromU256_ok_iff {v : U256} {field : String} {w : U128} :
    u128FromU256 v field = .ok w ↔ w.toNat = v.toNat := by
  unfold u128FromU256
  by_cases h : v.toNat < 2 ^ 128
  · rw [if_pos h, Except.ok.injEq, ← BitVec.toNat_inj, BitVec.toNat_setWidth, Nat.mod_eq_of_lt h, eq_comm]
  · rw [if_neg h]
    refine iff_of_false (fun he => (by cases he)) fun he => h ?_
    rw [← he]
    exact w.isLt

/-- The transaction of a call: the nonce is the signer's, the rest is settled. -/
structure TxMeets (b : Bundler) (p : Prepared) (nonce : U64) (tx : TxEip1559) : Prop where
  chainId : tx.chainId = b.cfg.chainId
  nonce : tx.nonce = nonce
  gasLimit : tx.gasLimit = p.gas
  maxFeePerGas : tx.maxFeePerGas.toNat = p.outerFeeCap.toNat
  maxPriorityFeePerGas : tx.maxPriorityFeePerGas.toNat = p.outerTip.toNat
  kind : tx.to = .call b.cfg.entrypointAddress
  value : tx.value = 0
  accessList : tx.accessList = []
  input : tx.input = p.callData

theorem buildTx_iff {p : Prepared} {nonce : U64} {tx : TxEip1559} :
    buildTx b p nonce = .ok tx ↔ TxMeets b p nonce tx := by
  unfold buildTx
  constructor
  · intro h
    rcases h1 : u128FromU256 p.outerFeeCap "outer maxFeePerGas" with e | cap
    · rw [h1] at h
      cases h
    rcases h2 : u128FromU256 p.outerTip "outer maxPriorityFeePerGas" with e | tip
    · rw [h1, h2] at h
      cases h
    rw [h1, h2] at h
    cases h
    exact ⟨rfl, rfl, rfl, u128FromU256_ok_iff.1 h1, u128FromU256_ok_iff.1 h2, rfl, rfl, rfl, rfl⟩
  · intro h
    rw [u128FromU256_ok_iff.2 h.maxFeePerGas, u128FromU256_ok_iff.2 h.maxPriorityFeePerGas]
    obtain ⟨chainId, nonce', gasLimit, cap, tip, kind, value, accessList, input⟩ := tx
    obtain ⟨rfl, rfl, rfl, -, -, rfl, rfl, rfl, rfl⟩ := h
    rfl

/-! ## The exchange -/

theorem exec_signEip1559_ok {conv : SignerError → Exit} {tx : TxEip1559} {envelope : TxEnvelope} :
    (exec env (signEip1559 conv tx)).2 = .ok envelope ↔
      envelope.tx = tx ∧ env (.signEip1559 tx) = .ok envelope.signature := by
  show (exec env (.ask (.signEip1559 tx) _)).2 = .ok envelope ↔ _
  rw [exec]
  rcases env (.signEip1559 tx) with e | sig
  · simp [exec]
  · obtain ⟨tx', sig'⟩ := envelope
    simp [exec, eq_comm]

/-- A guard changes nothing of how a program ends. -/
theorem exec_withGuard {acquire release : Op} {α : Type} {p : M α} :
    (exec env (Prog.withGuard acquire release p)).2 = (exec env p).2 := by
  show (exec env (p.thenRelease release)).2 = _
  induction p with
  | ret a => rfl
  | fail e => rfl
  | ask o k ih => exact ih (env o)

theorem exec_failIf_ok {c : Prop} [Decidable c] {e : Exit} {u : Unit} :
    (exec env (Prog.failIf c e : M Unit)).2 = .ok u ↔ ¬ c := by
  unfold Prog.failIf
  by_cases hc : c
  · simp [hc, exec]
  · simp [hc, exec]

theorem exec_broadcast_ok {tx : SignedTx} {u : Unit} : (exec env (broadcast b opts tx)).2 = .ok u ↔
    (opts.submit = true → ∃ submitted, env (.rpc (.sendRawTransaction tx.raw)) = .ok submitted ∧
      (b.build.debugAssertions = true → submitted = tx.hash)) := by
  unfold broadcast
  by_cases hs : opts.submit = true
  · rw [if_pos hs, exec_bind_ok]
    simp only [exec_failIf_ok, not_and, not_not]
    constructor
    · rintro ⟨submitted, hsent, hecho⟩ -
      exact ⟨submitted, exec_rpc_ok.1 hsent, hecho⟩
    · intro h
      obtain ⟨submitted, hsent, hecho⟩ := h hs
      exact ⟨submitted, exec_rpc_ok.2 hsent, hecho⟩
  · rw [if_neg hs]
    exact iff_of_true rfl fun h => absurd h hs

theorem exec_awaitReceipt_ok {callData : Bytes} {hash : B256} {u : Unit} :
    (exec env (awaitReceipt A b opts callData hash)).2 = .ok u ↔
      (opts.submit = true → ∃ receipt, env (.rpc (.waitForReceipt hash RECEIPT_TIMEOUT)) = .ok (some receipt) ∧
        receipt.success = true) := by
  unfold awaitReceipt
  by_cases hs : opts.submit = true
  swap
  · rw [if_neg hs]
    exact iff_of_true rfl fun h => absurd h hs
  rw [if_pos hs, exec_bind_ok]
  constructor
  · rintro ⟨receipt, hr, h⟩ -
    rcases receipt with - | receipt
    · cases h
    refine ⟨receipt, exec_rpc_ok.1 hr, ?_⟩
    by_contra hf
    simp only [hf, if_false, exec_bind_ok] at h
    obtain ⟨_, -, h⟩ := h
    cases h
  · intro h
    obtain ⟨receipt, hr, hsuccess⟩ := h hs
    refine ⟨some receipt, exec_rpc_ok.2 hr, ?_⟩
    simp only [hsuccess, if_true]
    rfl

/-- What is signed, and what becomes of it. -/
theorem exec_signed_ok {p : Prepared} {tx : SignedTx} : (exec env (signed A b opts p)).2 = .ok tx ↔
    ∃ nonce envelope, env (.rpc (.pendingNonce b.signerAddress)) = .ok nonce ∧ TxMeets b p nonce envelope.tx ∧
      env (.signEip1559 envelope.tx) = .ok envelope.signature ∧
      (opts.submit = true → ∃ submitted, env (.rpc (.sendRawTransaction (A.encoded2718 envelope))) = .ok submitted ∧
        (b.build.debugAssertions = true → submitted = A.txHash envelope)) ∧ tx = .of A envelope := by
  have hguard : (exec env (signed A b opts p)).2 = (exec env (signAndSend A b opts p)).2 := by
    unfold signed
    by_cases hs : opts.submit = true
    · rw [if_pos hs, exec_withGuard]
    · rw [if_neg hs]
  rw [hguard, signAndSend]
  simp only [exec_bind_ok, exec_orErr_ok, buildTx_iff, exec_signEip1559_ok, exec_broadcast_ok]
  constructor
  · rintro ⟨nonce, hn, _, htx, envelope, ⟨rfl, hsig⟩, -, hsent, h⟩
    cases h
    exact ⟨nonce, envelope, exec_rpc_ok.1 hn, htx, hsig, hsent, rfl⟩
  · rintro ⟨nonce, envelope, hn, htx, hsig, hsent, rfl⟩
    exact ⟨nonce, exec_rpc_ok.2 hn, envelope.tx, htx, envelope, ⟨rfl, hsig⟩, (), hsent, rfl⟩

/-! ## The call -/

/-- What a call learnt, and what it signed. -/
structure Bundle where
  baseFee : U256
  suggestedTip : U256
  taken : List (PackedUserOperation × B256)
  estimated : U64
  envelope : TxEnvelope

/-- A call that returns `resp`: what its request and its surroundings must be, and what it did. -/
structure Meets (env : (o : Op) → o.Ans) (A : Alloy) (b : Bundler) (ops : List UserOpV07) (opts : BuildOpts)
    (k : Bundle) (resp : SignedTxResp) : Prop where
  chain : opts.chainId = b.cfg.chainId
  nonempty : ops ≠ []
  size : ops.length ≤ b.cfg.maxBatchSize
  batch : BatchMeets env b ops k.baseFee k.suggestedTip k.taken k.envelope.tx.maxPriorityFeePerGas.toNat
    k.envelope.tx.maxFeePerGas.toNat
  input : k.envelope.tx.input = A.handleOpsAbiEncode (k.taken.map (·.1)) b.signerAddress
  estimated_eq : env (.rpc (.estimateHandleOpsGas b.signerAddress b.cfg.entrypointAddress k.envelope.tx.input)) =
    .ok k.estimated
  /-- The product wraps where overflow checks are off. -/
  gasLimit : k.envelope.tx.gasLimit.toNat =
    min (2 ^ 64 - 1) (k.estimated.toNat + k.estimated.toNat * b.cfg.gasMarginPct.toNat % 2 ^ 64 / 100)
  no_overflow : b.build.overflowChecks = true → k.estimated.toNat * b.cfg.gasMarginPct.toNat < 2 ^ 64
  nonce : env (.rpc (.pendingNonce b.signerAddress)) = .ok k.envelope.tx.nonce
  chainId : k.envelope.tx.chainId = b.cfg.chainId
  kind : k.envelope.tx.to = .call b.cfg.entrypointAddress
  value : k.envelope.tx.value = 0
  accessList : k.envelope.tx.accessList = []
  signature : env (.signEip1559 k.envelope.tx) = .ok k.envelope.signature
  sent : opts.submit = true → ∃ submitted,
    env (.rpc (.sendRawTransaction (A.encoded2718 k.envelope))) = .ok submitted ∧
      (b.build.debugAssertions = true → submitted = A.txHash k.envelope)
  landed : opts.submit = true → ∃ receipt,
    env (.rpc (.waitForReceipt (A.txHash k.envelope) RECEIPT_TIMEOUT)) = .ok (some receipt) ∧ receipt.success = true
  resp_eq : resp =
    { raw := A.encoded2718 k.envelope
      hash := A.txHash k.envelope
      «to» := b.cfg.entrypointAddress
      chainId := b.cfg.chainId
      gas := k.envelope.tx.gasLimit.setWidth 256
      maxFeePerGas := k.envelope.tx.maxFeePerGas.setWidth 256
      maxPriorityFeePerGas := k.envelope.tx.maxPriorityFeePerGas.setWidth 256
      userOpHashes := k.taken.map (·.2) }

theorem sanity_ok_iff : sanity b ops opts = .ok () ↔
    opts.chainId = b.cfg.chainId ∧ ops ≠ [] ∧ ops.length ≤ b.cfg.maxBatchSize := by
  unfold sanity
  by_cases h1 : opts.chainId = b.cfg.chainId
  swap
  · simp [h1]
  by_cases h2 : ops = []
  · simp [h1, h2]
  · simp [h1, h2]

theorem setWidth_of_toNat_eq {v : U256} {w : U128} (h : w.toNat = v.toNat) : w.setWidth 256 = v := by
  apply BitVec.eq_of_toNat_eq
  rw [BitVec.toNat_setWidth, h, Nat.mod_eq_of_lt v.isLt]

theorem toNat_setWidth_256 (w : U128) : (w.setWidth 256).toNat = w.toNat := by
  rw [BitVec.toNat_setWidth, Nat.mod_eq_of_lt]
  have hlt := w.isLt
  omega

/-- **A call is what it is for.** In surroundings whose answers depend on the question alone, whatever
they answer: `build_inner` returns a response exactly when the request is for this chain and of a size
that is taken, each op of it meets the policy, its prefund and its validation, the caps have room for a
tip, and what follows is granted; and then it returns the response that `Meets` describes. -/
theorem call_meets (env : (o : Op) → o.Ans) (A : Alloy) (b : Bundler) (ops : List UserOpV07) (opts : BuildOpts)
    (resp : SignedTxResp) :
    (exec env (buildInner A b ops opts)).2 = .ok resp ↔ ∃ k, Meets env A b ops opts k resp := by
  unfold buildInner
  simp only [exec_bind_ok, exec_orErr_ok, exec_prepare_ok, exec_checkBatch_iff, exec_signed_ok, exec_awaitReceipt_ok,
    gasWithMargin_ok_iff]
  constructor
  · rintro ⟨_, hsane, _, ⟨o, estimated, gas, ⟨baseFee, suggestedTip, taken, hbatch, hpacked, hhashes⟩, hest,
      ⟨hover, hgas⟩, rfl⟩, _, ⟨nonce, envelope, hn, htx, hsig, hsent, rfl⟩, _, hlanded, h⟩
    obtain ⟨hchain, hne, hsize⟩ := sanity_ok_iff.1 hsane
    have hcap : envelope.tx.maxFeePerGas.toNat = o.outerFeeCap.toNat := htx.maxFeePerGas
    have htip : envelope.tx.maxPriorityFeePerGas.toNat = o.outerTip.toNat := htx.maxPriorityFeePerGas
    have hinput : envelope.tx.input = A.handleOpsAbiEncode (taken.map (·.1)) b.signerAddress := by
      rw [htx.input, hpacked]
    refine ⟨⟨baseFee, suggestedTip, taken, estimated, envelope⟩, hchain, hne, hsize, ?_, hinput, ?_, ?_, hover, ?_,
      htx.chainId, htx.kind, htx.value, htx.accessList, hsig, hsent, hlanded, ?_⟩
    · rw [hcap, htip]
      exact hbatch
    · rw [hinput, ← hpacked]
      exact hest
    · rw [htx.gasLimit]
      exact hgas
    · rw [htx.nonce]
      exact hn
    · cases h
      rw [setWidth_of_toNat_eq hcap, setWidth_of_toNat_eq htip, htx.gasLimit, ← hhashes]
      rfl
  · rintro ⟨⟨baseFee, suggestedTip, taken, estimated, envelope⟩, h⟩
    have hcap : envelope.tx.maxFeePerGas.toNat = (envelope.tx.maxFeePerGas.setWidth 256).toNat :=
      (toNat_setWidth_256 _).symm
    have htip : envelope.tx.maxPriorityFeePerGas.toNat = (envelope.tx.maxPriorityFeePerGas.setWidth 256).toNat :=
      (toNat_setWidth_256 _).symm
    have hbatch := h.batch
    rw [hcap, htip] at hbatch
    have hest := h.estimated_eq
    rw [h.input] at hest
    refine ⟨(), sanity_ok_iff.2 ⟨h.chain, h.nonempty, h.size⟩, _,
      ⟨⟨taken.map (·.1), taken.map (·.2), envelope.tx.maxPriorityFeePerGas.setWidth 256,
        envelope.tx.maxFeePerGas.setWidth 256⟩, estimated, envelope.tx.gasLimit,
        ⟨baseFee, suggestedTip, taken, hbatch, rfl, rfl⟩, hest, ⟨h.no_overflow, h.gasLimit⟩, rfl⟩, _,
      ⟨envelope.tx.nonce, envelope, h.nonce, ?_, h.signature, h.sent, rfl⟩, (), h.landed, ?_⟩
    · exact ⟨h.chainId, rfl, rfl, hcap, htip, h.kind, h.value, h.accessList, h.input⟩
    · rw [h.resp_eq]
      rfl

/-- The surroundings of the tests let a call through. -/
example : (exec mockAnswer (buildInner alloy testBundler [happyOp] submitOpts)).2.toBool = true := by decide

/-- **A sign-only call says what a submit would return.** In the same surroundings a submit returns a response
exactly when a sign-only call returns that one, its raw transaction is accepted and its receipt is good. -/
theorem submit_iff_signOnly (env : (o : Op) → o.Ans) (A : Alloy) (b : Bundler) (ops : List UserOpV07) (chainId : U64)
    (resp : SignedTxResp) :
    (exec env (buildInner A b ops ⟨chainId, true⟩)).2 = .ok resp ↔
      (exec env (buildInner A b ops ⟨chainId, false⟩)).2 = .ok resp ∧
      (∃ submitted, env (.rpc (.sendRawTransaction resp.raw)) = .ok submitted ∧
        (b.build.debugAssertions = true → submitted = resp.hash)) ∧
      ∃ receipt, env (.rpc (.waitForReceipt resp.hash RECEIPT_TIMEOUT)) = .ok (some receipt) ∧
        receipt.success = true := by
  unfold buildInner
  simp only [exec_bind_ok, exec_orErr_ok, exec_signed_ok, exec_awaitReceipt_ok]
  constructor
  · rintro ⟨_, hsane, p, hp, _, ⟨nonce, envelope, hn, htx, hsig, hsent, rfl⟩, _, hlanded, h⟩
    cases h
    refine ⟨⟨(), hsane, p, hp, _, ⟨nonce, envelope, hn, htx, hsig, ?_, rfl⟩, (), ?_, rfl⟩, hsent trivial,
      hlanded trivial⟩
    · intro hs
      cases hs
    · intro hs
      cases hs
  · rintro ⟨⟨_, hsane, p, hp, _, ⟨nonce, envelope, hn, htx, hsig, -, rfl⟩, _, -, h⟩, hsent, hlanded⟩
    cases h
    exact ⟨(), hsane, p, hp, _, ⟨nonce, envelope, hn, htx, hsig, fun _ => hsent, rfl⟩, (), fun _ => hlanded, rfl⟩

end EtheraBundler

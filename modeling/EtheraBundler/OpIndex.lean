import EtheraBundler.Exits
import EtheraBundler.FeePolicy
/-!
# Which op a rejection names

An error raised for one op of a batch reaches the caller as a payload of `classify`
(`errors.rs:109-213`). The fee policy and the deposit check put the op's index into it;
`PackError` and `ValidationError` have no field for one, and the outer fee check, which is about
no single op, puts in `usize::MAX` (`bundler.rs:339`).

* `OpFails` — the ways an op can fail its turn, on the answers the turn got.
* `FailsAt` — the ops before index `i` got through, op `i` failed.
* `run_prepare_failsAt` — what a call then ends in.
* `run_prepare_names` — an error that names an op names one of the batch, or is the outer one.
* `opIndex_right_iff` — **the payload names the right op exactly when** the first failing op
  fails the fee policy or the deposit check and the outer fees, if it gets to them, are accepted.
-/

namespace EtheraBundler

open Interact

/-- The payload of `e` carries `n` as its `opIndex`. -/
def NamesOp (e : BundlerError) (n : Nat) : Prop := e.classify.2.get? "opIndex" = some (.num n)

instance (e : BundlerError) (n : Nat) : Decidable (NamesOp e n) := inferInstanceAs (Decidable (_ = _))

/-! ## One op -/

/-- What an op can fail on by itself. -/
inductive Fault where
  | feePolicy
  | packing
  | paymasterData
  | deposit
  | validation
deriving DecidableEq

/-- The faults whose errors have an `op_index`. -/
def Fault.indexed : Fault → Bool
  | feePolicy | deposit => true
  | packing | paymasterData | validation => false

/-- An op fails its turn with the answers `u`: the checks in the order of the loop, each after
those before it passed. -/
inductive OpFails (b : Bundler) (baseFee : U256) (nowUnix : U64) (op : UserOpV07) :
    BundlerTrace → Fault → Prop where
  | feePolicy (h : ¬ FeesOk b op baseFee) : OpFails b baseFee nowUnix op [] .feePolicy
  | packing (hf : FeesOk b op baseFee) (e : PackError) (h : pack op = .error e) :
    OpFails b baseFee nowUnix op [] .packing
  | paymasterData (hf : FeesOk b op baseFee) (packed : PackedUserOperation) (hp : pack op = .ok packed)
    (e : PackError) (h : prefundRequirement op packed = .error e) :
    OpFails b baseFee nowUnix op [] .paymasterData
  | deposit (hf : FeesOk b op baseFee) (packed : PackedUserOperation) (hp : pack op = .ok packed)
    (sponsor : Address) (required deposit : U256)
    (hq : prefundRequirement op packed = .ok (sponsor, required)) (h : deposit < required) :
    OpFails b baseFee nowUnix op [⟨.rpc (.balanceOf b.cfg.entrypointAddress sponsor), .ok deposit⟩] .deposit
  | validation (hf : FeesOk b op baseFee) (packed : PackedUserOperation) (hp : pack op = .ok packed)
    (sponsor : Address) (required deposit : U256)
    (hq : prefundRequirement op packed = .ok (sponsor, required)) (hd : required ≤ deposit)
    (raw : ValidationResult) (e : ValidationError) (h : judge raw nowUnix = .error e) :
    OpFails b baseFee nowUnix op [⟨.rpc (.balanceOf b.cfg.entrypointAddress sponsor), .ok deposit⟩,
      ⟨.rpc (.simulateValidation b.cfg.entrypointAddress b.simulationsCode packed), .ok raw⟩] .validation

variable {A : Alloy} {b : Bundler} {ops : List UserOpV07} {opts : BuildOpts} {t u : BundlerTrace}
  {baseFee : U256} {nowUnix : U64}

theorem not_namesOp_pack {e : PackError} {n : Nat} : ¬ NamesOp (.pack e) n := by
  simp [NamesOp, BundlerError.classify, Payload.get?]

theorem not_namesOp_validation {e : ValidationError} {n : Nat} : ¬ NamesOp (.validation e) n := by
  cases e <;> simp [NamesOp, BundlerError.classify, Payload.get?]

theorem not_namesOp_provider {e : ProviderError} {n : Nat} : ¬ NamesOp (.provider e) n := by
  simp [NamesOp, BundlerError.classify, Payload.get?]

theorem not_namesOp_signer {e : SignerError} {n : Nat} : ¬ NamesOp (.signer e) n := by
  simp [NamesOp, BundlerError.classify, Payload.get?]

/-- Every error of the fee policy names the op it is about. -/
theorem namesOp_checkPerOpFees {i : Nat} {op : UserOpV07} {e : BundlerError}
    (h : checkPerOpFees b i op baseFee = .error e) (n : Nat) : NamesOp e n ↔ n = i := by
  unfold checkPerOpFees at h
  simp only at h
  split at h
  · cases h
    simp [NamesOp, BundlerError.classify, Payload.get?, eq_comm]
  split at h
  · cases h
    simp [NamesOp, BundlerError.classify, Payload.get?, eq_comm]
  split at h
  · cases h
    simp [NamesOp, BundlerError.classify, Payload.get?, eq_comm]
  · cases h

theorem namesOp_insufficientDeposit {i n : Nat} {sponsor required deposit : String} :
    NamesOp (.insufficientDeposit i sponsor required deposit) n ↔ n = i := by
  simp [NamesOp, BundlerError.classify, Payload.get?, eq_comm]

/-- The rest of the turn of an op that passes the fee policy and packs. -/
theorem run_checkOp_of_packed {i : Nat} {acc : LoopAcc} {op : UserOpV07} {packed : PackedUserOperation}
    {r : Except Exit LoopAcc} (hf : FeesOk b op baseFee) (hp : pack op = .ok packed)
    (h : Run (do
      checkPrefund b i op packed
      let _ ← (simulate b.cfg.entrypointAddress b.simulationsCode packed nowUnix).mapFail fun e => .err (.validation e)
      let hash ← rpc (.userOpHash b.cfg.entrypointAddress packed)
      return acc.push op packed hash) u r) : Run (checkOp b baseFee nowUnix i acc op) u r := by
  refine run_bind.2 (Or.inr ⟨[], u, (), rfl, run_orErr_ok.2 ⟨rfl, checkPerOpFees_ok_iff.2 hf⟩, ?_⟩)
  exact run_bind.2 (Or.inr ⟨[], u, packed, rfl, run_orErr_ok.2 ⟨rfl, hp⟩, h⟩)

/-- **A failing turn** ends the loop in an error that names the op if the fault is an indexed one
and no op otherwise. -/
theorem run_checkOp_fails {op : UserOpV07} {fault : Fault} (h : OpFails b baseFee nowUnix op u fault) (i : Nat)
    (acc : LoopAcc) : ∃ e, Run (checkOp b baseFee nowUnix i acc op) u (.error (.err e)) ∧
      ∀ n, NamesOp e n ↔ fault.indexed = true ∧ n = i := by
  cases h with
  | feePolicy h =>
    rcases hc : checkPerOpFees b i op baseFee with e | ⟨⟩
    · refine ⟨e, run_bind_error.2 (Or.inl (run_orErr_error.2 ⟨rfl, e, hc, rfl⟩)), fun n => ?_⟩
      rw [namesOp_checkPerOpFees hc]
      exact (and_iff_right rfl).symm
    · exact absurd (checkPerOpFees_ok_iff.1 hc) h
  | packing hf e h =>
    refine ⟨.pack e, run_bind_error.2 (Or.inr ⟨[], [], (), rfl, ?_, ?_⟩), fun n => ?_⟩
    · exact run_orErr_ok.2 ⟨rfl, checkPerOpFees_ok_iff.2 hf⟩
    · exact run_bind_error.2 (Or.inl (run_orErr_error.2 ⟨rfl, e, h, rfl⟩))
    · simp [not_namesOp_pack, Fault.indexed]
  | paymasterData hf packed hp e h =>
    refine ⟨.pack e, run_checkOp_of_packed hf hp ?_, fun n => ?_⟩
    · refine run_bind_error.2 (Or.inl (run_bind_error.2 (Or.inl ?_)))
      exact run_orErr_error.2 ⟨rfl, e, h, rfl⟩
    · simp [not_namesOp_pack, Fault.indexed]
  | deposit hf packed hp sponsor required deposit hq h =>
    refine ⟨.insufficientDeposit i (debugHex sponsor) (decimal required) (decimal deposit),
      run_checkOp_of_packed hf hp ?_, fun n => ?_⟩
    · refine run_bind_error.2 (Or.inl (run_bind_error.2 (Or.inr ?_)))
      refine ⟨[], _, (sponsor, required), rfl, run_orErr_ok.2 ⟨rfl, hq⟩, run_bind_error.2 (Or.inr ?_)⟩
      exact ⟨[_], [], deposit, rfl, run_await_ok.2 rfl, run_failIf.2 ⟨rfl, by rw [if_pos h]⟩⟩
    · rw [namesOp_insufficientDeposit]
      exact (and_iff_right rfl).symm
  | validation hf packed hp sponsor required deposit hq hd raw e h =>
    refine ⟨.validation e, run_checkOp_of_packed hf hp ?_, fun n => ?_⟩
    · refine run_bind_error.2 (Or.inr ⟨[_], [_], (), rfl, ?_, run_bind_error.2 (Or.inl ?_)⟩)
      · exact run_checkPrefund_ok.2 ⟨sponsor, required, deposit, hq, hd, rfl⟩
      · exact run_mapFail_error.2 ⟨e, rfl, run_simulate_error.2 (Or.inr ⟨raw, rfl, h⟩)⟩
    · simp [not_namesOp_validation, Fault.indexed]

/-! ## The first op to fail -/

/-- The loop over a batch whose first failing op comes after `cs`. -/
theorem run_opLoop_fails {op : UserOpV07} {fault : Fault} (h : OpFails b baseFee nowUnix op u fault)
    (post : List UserOpV07) : ∀ (cs : List (CheckedOp b baseFee nowUnix)) (i : Nat) (acc : LoopAcc),
      ∃ e, Run (opLoop b baseFee nowUnix i acc (cs.map (·.op) ++ op :: post)) (cs.flatMap (·.events) ++ u)
          (.error (.err e)) ∧ ∀ n, NamesOp e n ↔ fault.indexed = true ∧ n = i + cs.length
  | [], i, acc => by
    obtain ⟨e, he, hn⟩ := run_checkOp_fails h i acc
    exact ⟨e, run_bind_error.2 (Or.inl he), hn⟩
  | c :: cs, i, acc => by
    obtain ⟨e, he, hn⟩ := run_opLoop_fails h post cs (i + 1) (c.pushTo acc)
    refine ⟨e, ?_, fun n => ?_⟩
    · rw [List.map_cons, List.cons_append, List.flatMap_cons, List.append_assoc, opLoop]
      exact run_bind_error.2 (Or.inr ⟨_, _, _, rfl, run_checkOp_ok.2 ⟨c, rfl, rfl, rfl⟩, he⟩)
    · rw [hn, List.length_cons, show i + 1 + cs.length = i + (cs.length + 1) by omega]

/-- In the exchange `t` the ops before index `i` passed every check and op `i` failed one, on the
answers each of them got. -/
def FailsAt (b : Bundler) (ops : List UserOpV07) (t : BundlerTrace) (i : Nat) (fault : Fault) : Prop :=
  ∃ (baseFee suggestedTip : U256) (clock : Option U64) (cs : List (CheckedOp b baseFee (clock.getD 0)))
    (op : UserOpV07) (u : BundlerTrace), cs.map (·.op) = ops.take i ∧ ops[i]? = some op ∧
    OpFails b baseFee (clock.getD 0) op u fault ∧
    t = readEvents baseFee suggestedTip clock ++ (cs.flatMap (·.events) ++ u)

/-- In the exchange `t` every op passed its checks and the gas estimate was answered. -/
def AllPass (A : Alloy) (b : Bundler) (ops : List UserOpV07) (t : BundlerTrace) (baseFee suggestedTip : U256) : Prop :=
  ∃ (clock : Option U64) (cs : List (CheckedOp b baseFee (clock.getD 0))) (estimated : U64),
    cs.map (·.op) = ops ∧ t = readEvents baseFee suggestedTip clock ++ (cs.flatMap (·.events) ++
      [⟨.rpc (.estimateHandleOpsGas b.signerAddress b.cfg.entrypointAddress
        (A.handleOpsAbiEncode (cs.map (·.packed)) b.signerAddress)), .ok estimated⟩])

/-- **The first op to fail** ends the call, and names itself if its fault is an indexed one. -/
theorem run_prepare_failsAt {i : Nat} {fault : Fault} (h : FailsAt b ops t i fault) :
    ∃ e, Run (prepare A b ops) t (.error (.err e)) ∧ ∀ n, NamesOp e n ↔ fault.indexed = true ∧ n = i := by
  obtain ⟨baseFee, suggestedTip, clock, cs, op, u, hpre, hop, hfail, rfl⟩ := h
  have hsplit : ops = cs.map (·.op) ++ op :: ops.drop (i + 1) := by
    rw [hpre, ← List.getElem?_eq_some_iff.1 hop |>.2]
    simp
  have hlen : cs.length = i := by
    have hlt : i < ops.length := (List.getElem?_eq_some_iff.1 hop).1
    have := congrArg List.length hpre
    rw [List.length_map, List.length_take] at this
    omega
  obtain ⟨e, he, hn⟩ := run_opLoop_fails hfail (ops.drop (i + 1)) cs 0 .empty
  rw [← hsplit] at he
  refine ⟨e, ?_, fun n => by rw [hn n, hlen, Nat.zero_add]⟩
  exact (PrepareRun.rejected baseFee suggestedTip clock _ _ he).run

/-! ## Errors that name an op -/

/-- An op the exit names lies in `lo .. hi`. -/
def Exit.NamesWithin (lo hi : Nat) : Exit → Prop
  | .err e => ∀ n, NamesOp e n → lo ≤ n ∧ n < hi
  | .panic _ => True

theorem Exit.NamesWithin.of_not {lo hi : Nat} {e : BundlerError} (h : ∀ n, ¬ NamesOp e n) :
    Exit.NamesWithin lo hi (.err e) := fun n hn => absurd hn (h n)

theorem Exit.NamesWithin.widen {lo hi lo' hi' : Nat} (h1 : lo' ≤ lo) (h2 : hi ≤ hi') {x : Exit}
    (h : x.NamesWithin lo hi) : x.NamesWithin lo' hi' := by
  cases x with
  | err e =>
    intro n hn
    have := h n hn
    omega
  | panic p => trivial

theorem namesWithin_rpc {lo hi : Nat} {q : Query} : FailsWith (Exit.NamesWithin lo hi) (rpc q) := by
  intro t e he
  obtain ⟨pe, rfl, -⟩ := run_await_error.1 he
  exact .of_not fun _ => not_namesOp_provider

theorem namesWithin_orErr {ε α : Type} {lo hi : Nat} {conv : ε → BundlerError} {r : Except ε α}
    (h : ∀ e, r = .error e → (Exit.err (conv e)).NamesWithin lo hi) :
    FailsWith (Exit.NamesWithin lo hi) (orErr conv r) := by
  intro t e he
  obtain ⟨-, x, hr, rfl⟩ := run_orErr_error.1 he
  exact h x hr

/-- A turn names its own op only. -/
theorem namesWithin_checkOp {i : Nat} {acc : LoopAcc} {op : UserOpV07} :
    FailsWith (Exit.NamesWithin i (i + 1)) (checkOp b baseFee nowUnix i acc op) := by
  unfold checkOp checkPrefund
  refine FailsWith.bind (namesWithin_orErr fun e he => ?_) fun _ _ _ => ?_
  · intro n hn
    rw [(namesOp_checkPerOpFees he n).1 hn]
    omega
  refine FailsWith.bind (namesWithin_orErr fun e _ => .of_not fun _ => not_namesOp_pack) fun _ _ _ => ?_
  refine FailsWith.bind ?_ fun _ _ _ => FailsWith.bind ?_ fun _ _ _ => ?_
  · refine FailsWith.bind (namesWithin_orErr fun e _ => .of_not fun _ => not_namesOp_pack) fun _ _ _ => ?_
    refine FailsWith.bind namesWithin_rpc fun _ _ _ => failsWith_failIf fun n hn => ?_
    rw [namesOp_insufficientDeposit.1 hn]
    omega
  · exact FailsWith.mapFail fun t e _ => .of_not fun _ => not_namesOp_validation
  · exact FailsWith.bind namesWithin_rpc fun _ _ _ => failsWith_ret

/-- The loop names an op it went through. -/
theorem namesWithin_opLoop : ∀ {ops : List UserOpV07} {i : Nat} {acc : LoopAcc},
    FailsWith (Exit.NamesWithin i (i + ops.length)) (opLoop b baseFee nowUnix i acc ops)
  | [], _, _ => failsWith_ret
  | op :: ops, i, acc => by
    refine FailsWith.bind ?_ fun _ acc' _ => ?_
    · exact FailsWith.mono namesWithin_checkOp fun e he => he.widen (by omega) (by simp)
    · exact FailsWith.mono namesWithin_opLoop fun e he => he.widen (by omega) (by simp; omega)

/-- The outer fees of a batch that got through the loop. -/
theorem outerFees_of_checks {cs : List (CheckedOp b baseFee nowUnix)} {suggestedTip minTip minCap : U256}
    (hops : cs.map (·.op) = ops)
    (htip : (cs.map (·.op.maxPriorityFeePerGas)).foldl updateMin none = some minTip)
    (hcap : (cs.map (·.op.maxFeePerGas)).foldl updateMin none = some minCap) :
    (∃ fees, chooseOuterFees b baseFee suggestedTip minTip minCap = .ok fees) ↔
      TipFits baseFee suggestedTip ops := by
  subst hops
  refine exists_outerFees_iff ?_ ?_ ?_
  · intro op hop
    obtain ⟨c, -, rfl⟩ := List.mem_map.1 hop
    exact ⟨c.fees_ok, (pack_ok.1 c.pack_eq).1⟩
  · rw [List.map_map]
    exact htip
  · rw [List.map_map]
    exact hcap

/-- **An error before the lock that names an op** names one of the batch, unless it is the outer
fee check's. -/
theorem run_prepare_names {e : BundlerError} {n : Nat} (h : Run (prepare A b ops) t (.error (.err e)))
    (hn : NamesOp e n) : n < ops.length ∨
      ∃ baseFee suggestedTip, AllPass A b ops t baseFee suggestedTip ∧ ¬ TipFits baseFee suggestedTip ops := by
  have hc := run_prepare_cases h
  generalize hr : (Except.error (Exit.err e) : Except Exit Prepared) = r at hc
  cases hc with
  | baseFeeFailed pe | tipFailed _ pe | estimateFailed _ _ _ _ _ pe =>
    cases hr
    exact absurd hn not_namesOp_provider
  | rejected baseFee suggestedTip clock u x hx =>
    cases hr
    have := namesWithin_opLoop _ _ hx n hn
    exact Or.inl (by omega)
  | estimated baseFee suggestedTip clock cs hops estimated =>
    obtain ⟨tip, cap, htip, hcap, hfees⟩ := settle_err hr.symm
    rw [foldl_pushTo_minUserTip] at htip
    rw [foldl_pushTo_minUserFeeCap] at hcap
    refine Or.inr ⟨baseFee, suggestedTip, ⟨clock, cs, estimated, hops, rfl⟩, fun hfits => ?_⟩
    obtain ⟨fees, hok⟩ := (outerFees_of_checks hops htip hcap).2 hfits
    rw [hok] at hfees
    cases hfees

theorem namesOp_chooseOuterFees {suggestedTip tip cap : U256} {e : BundlerError}
    (h : chooseOuterFees b baseFee suggestedTip tip cap = .error e) : NamesOp e usizeMax := by
  unfold chooseOuterFees at h
  simp only at h
  split at h
  · cases h
    simp [NamesOp, BundlerError.classify, Payload.get?]
  · cases h

/-- A batch that got through the loop with tips that do not fit ends in the outer error, or in a
panic before it. -/
theorem run_prepare_unfit {suggestedTip : U256} (h : AllPass A b ops t baseFee suggestedTip)
    (hfit : ¬ TipFits baseFee suggestedTip ops) : ∃ x, Run (prepare A b ops) t (.error x) ∧
      ((∃ p, x = .panic p) ∨ ∃ e, x = .err e ∧ NamesOp e usizeMax) := by
  obtain ⟨clock, cs, estimated, hops, rfl⟩ := h
  have hrun := (PrepareRun.estimated (A := A) baseFee suggestedTip clock cs hops estimated).run
  rcases settle_cases A b baseFee suggestedTip (cs.foldl CheckedOp.pushTo .empty) estimated with
    ⟨p, -, hs⟩ | ⟨gas, -, hs | ⟨tip, cap, htip, hcap, hs⟩⟩
  · rw [hs] at hrun
    exact ⟨.panic p, hrun, Or.inl ⟨p, rfl⟩⟩
  · rw [hs] at hrun
    exact ⟨.panic .nonEmptyBatch, hrun, Or.inl ⟨_, rfl⟩⟩
  rw [foldl_pushTo_minUserTip] at htip
  rw [foldl_pushTo_minUserFeeCap] at hcap
  rcases hf : chooseOuterFees b baseFee suggestedTip tip cap with e | fees
  · rw [hs, hf] at hrun
    exact ⟨.err e, hrun, Or.inr ⟨e, rfl, namesOp_chooseOuterFees hf⟩⟩
  · exact absurd ((outerFees_of_checks hops htip hcap).1 ⟨fees, hf⟩) hfit

/-! ## A whole call -/

/-- The signer was not asked in the exchange `t`. -/
def Unsigned (t : BundlerTrace) : Prop := ∀ tx x, ⟨.signEip1559 tx, x⟩ ∉ t

/-- What the payload of the error `e` owes the caller of a call that went through `t`. -/
structure OpIndexRight (b : Bundler) (ops : List UserOpV07) (t : BundlerTrace) (e : BundlerError) : Prop where
  names_first : ∀ i fault, FailsAt b ops t i fault → NamesOp e i
  in_range : ∀ n, NamesOp e n → n < ops.length

/-- A call whose checks fail ends as they do. -/
theorem run_buildInner_of_prepare {r : Except Exit SignedTxResp} {x : Exit}
    (h : Run (buildInner A b ops opts) t r) (ht : t ≠ []) (hp : Run (prepare A b ops) t (.error x)) :
    r = .error x := by
  rcases hs : sanity b ops opts with e | ⟨⟩
  · have hfail : buildInner A b ops opts = .fail (.err e) := by
      unfold buildInner
      rw [hs]
      rfl
    rw [hfail] at h
    exact absurd (run_fail.1 h).1 ht
  · refine h.unique (run_bind_error.2 (Or.inr ⟨[], t, (), rfl, run_orErr_ok.2 ⟨rfl, hs⟩, ?_⟩))
    exact run_bind_error.2 (Or.inl hp)

theorem readEvents_append_ne_nil {suggestedTip : U256} {clock : Option U64} :
    readEvents baseFee suggestedTip clock ++ t ≠ [] := by
  simp [readEvents]

theorem not_namesOp_sanity {e : BundlerError} {n : Nat} (h : sanity b ops opts = .error e) : ¬ NamesOp e n := by
  unfold sanity at h
  split at h
  · cases h
    simp [NamesOp, BundlerError.classify, Payload.get?]
  split at h
  · cases h
    simp [NamesOp, BundlerError.classify, Payload.get?]
  split at h
  · cases h
    simp [NamesOp, BundlerError.classify, Payload.get?]
  · cases h

theorem mem_guardEvents {ev : Event Op Op.Ans} (h : ev ∈ u) : ev ∈ guardEvents opts u := by
  unfold guardEvents
  split
  · simp [h]
  · exact h

/-- **An unsigned error that names an op** names one of the batch, unless it is the outer fee
check's. -/
theorem run_buildInner_names {e : BundlerError} {n : Nat} (h : Run (buildInner A b ops opts) t (.error (.err e)))
    (hsig : Unsigned t) (hn : NamesOp e n) : n < ops.length ∨
      ∃ baseFee suggestedTip, AllPass A b ops t baseFee suggestedTip ∧ ¬ TipFits baseFee suggestedTip ops := by
  have hc := run_buildInner_cases h
  generalize hr : (Except.error (Exit.err e) : Except Exit SignedTxResp) = r at hc
  cases hc with
  | insane e' he =>
    cases hr
    exact absurd hn (not_namesOp_sanity he)
  | unprepared t x hx =>
    cases hr
    exact run_prepare_names hx hn
  | unsigned s u x hx =>
    cases hr
    cases hx with
    | nonceFailed pe => exact absurd hn not_namesOp_provider
    | unbuildable nonce e he =>
      rw [buildTx_ok s] at he
      cases he
    | signFailed nonce tx se hb => exact absurd hn not_namesOp_signer
    | sendFailed nonce env pe hs hb => exact absurd hn not_namesOp_provider
  | signed s u v tx x hx hx' =>
    have hmem : ∃ env : TxEnvelope, signedWith env ∈ u := by
      cases hx with
      | sent nonce env submitted hs hb hd => exact ⟨env, by simp⟩
      | signOnly nonce env hs hb => exact ⟨env, by simp⟩
    obtain ⟨env, henv⟩ := hmem
    refine absurd ?_ (hsig env.tx (.ok env.signature))
    exact List.mem_append_right _ (List.mem_append_left _ (mem_guardEvents henv))

/-- **The op a payload names.** In a call that fails before signing, the payload names the first
failing op, and no op outside the batch, exactly when that op fails the fee policy or the deposit
check and, once every op passed, every cap has room for the suggested tip or the tip of some op. -/
theorem opIndex_right_iff {e : BundlerError} (hlen : ops.length ≤ usizeMax)
    (h : Run (buildInner A b ops opts) t (.error (.err e))) (hsig : Unsigned t) :
    OpIndexRight b ops t e ↔
      (∀ i fault, FailsAt b ops t i fault → fault = .feePolicy ∨ fault = .deposit) ∧
      ∀ baseFee suggestedTip, AllPass A b ops t baseFee suggestedTip → TipFits baseFee suggestedTip ops := by
  have hfirst (i : Nat) (fault : Fault) (hf : FailsAt b ops t i fault) :
      ∀ n, NamesOp e n ↔ fault.indexed = true ∧ n = i := by
    obtain ⟨e', he', hn⟩ := run_prepare_failsAt (A := A) hf
    obtain ⟨baseFee, suggestedTip, clock, cs, op, u, -, -, -, rfl⟩ := hf
    have := run_buildInner_of_prepare h readEvents_append_ne_nil he'
    cases this
    exact hn
  have hindexed (fault : Fault) : fault.indexed = true ↔ fault = .feePolicy ∨ fault = .deposit := by
    cases fault <;> decide
  constructor
  · intro hright
    refine ⟨fun i fault hf => ?_, fun baseFee suggestedTip hall => ?_⟩
    · rw [← hindexed]
      exact ((hfirst i fault hf i).1 (hright.names_first i fault hf)).1
    · by_contra hfit
      obtain ⟨x, hx, hend⟩ := run_prepare_unfit hall hfit
      obtain ⟨clock, cs, estimated, -, rfl⟩ := hall
      have hxe := run_buildInner_of_prepare h readEvents_append_ne_nil hx
      rcases hend with ⟨p, rfl⟩ | ⟨e', rfl, hn⟩
      · cases hxe
      · cases hxe
        have := hright.in_range _ hn
        omega
  · rintro ⟨hfault, hfits⟩
    refine ⟨fun i fault hf => ?_, fun n hn => ?_⟩
    · exact (hfirst i fault hf i).2 ⟨(hindexed fault).2 (hfault i fault hf), rfl⟩
    · rcases run_buildInner_names h hsig hn with hlt | ⟨baseFee, suggestedTip, hall, hfit⟩
      · exact hlt
      · exact absurd (hfits baseFee suggestedTip hall) hfit

/-! ## Two batches against the test-suite's node -/

/-- The happy op, then one with a tip of 1 wei. -/
def lowTipBatch : List UserOpV07 := [happyOp, { happyOp with maxPriorityFeePerGas := 1 }]

/-- The happy op, then one whose call gas needs 129 bits. -/
def overflowBatch : List UserOpV07 :=
  [happyOp, { happyOp with callGasLimit := 0x100000000000000000000000000000000 }]

/-- The exchange of a call against the test-suite's node. -/
def mockTrace (ops : List UserOpV07) : BundlerTrace :=
  (exec mockAnswer (buildInner alloy testBundler ops submitOpts)).1

theorem run_mockTrace {r : Except Exit SignedTxResp}
    (h : (exec mockAnswer (buildInner alloy testBundler ops submitOpts)).2 = r) :
    Run (buildInner alloy testBundler ops submitOpts) (mockTrace ops) r := by
  rw [← h]
  exact exec_run mockAnswer _

theorem unsigned_of_any (h : (t.any fun ev => ev.1.isSign) = false) : Unsigned t := by
  intro tx x hx
  rw [List.any_eq_false] at h
  exact h _ hx rfl

/-- The happy op's turn. -/
def happyChecked : CheckedOp testBundler 1000000000 1700000000 where
  op := happyOp
  packed := happyPacked
  sponsor := repeatAddress 0x11
  required := 1250000000000000
  deposit := 1000000000000000000
  validation := ⟨⟨100000, 50000, 0, 0⟩⟩
  hash := testUserOpHash
  fees_ok := ⟨by decide, by decide, by decide⟩
  pack_eq := by decide
  prefund_eq := by decide
  covered := by decide
  accepted := ⟨_, rfl⟩

/-- A tip below the minimum is reported under the op's index. -/
theorem opIndex_right_iff_lowTip :
    OpIndexRight testBundler lowTipBatch (mockTrace lowTipBatch) (.priorityFeeTooLow 1 "1" "1000000000") := by
  have hrun : Run (buildInner alloy testBundler lowTipBatch submitOpts) (mockTrace lowTipBatch)
      (.error (.err (.priorityFeeTooLow 1 "1" "1000000000"))) := run_mockTrace rfl
  refine (opIndex_right_iff (by decide) hrun (unsigned_of_any (by decide))).2 ⟨?_, ?_⟩
  · intro i fault hf
    obtain ⟨e, he, hn⟩ := run_prepare_failsAt (A := alloy) hf
    have heq := run_buildInner_of_prepare hrun (List.cons_ne_nil _ _) he
    cases heq
    have := ((hn 1).1 (by decide)).1
    cases fault <;> simp_all [Fault.indexed]
  · intro baseFee suggestedTip hall
    by_contra hfit
    obtain ⟨x, hx, hend⟩ := run_prepare_unfit hall hfit
    have heq := run_buildInner_of_prepare hrun (List.cons_ne_nil _ _) hx
    rcases hend with ⟨p, rfl⟩ | ⟨e, rfl, hn⟩
    · cases heq
    · cases heq
      exact absurd hn (by decide)

theorem failsAt_overflow : FailsAt testBundler overflowBatch (mockTrace overflowBatch) 1 .packing := by
  refine ⟨1000000000, 1000000000, some 1700000000, [happyChecked], _, [], rfl, rfl, ?_, ?_⟩
  · exact .packing ⟨by decide, by decide, by decide⟩ (.overflow "accountGasLimits") (by decide)
  · exact rfl

/-- Op 1 does not pack, and the payload is about no op. -/
theorem opIndex_missing :
    ¬ ∀ (A : Alloy) (b : Bundler) (ops : List UserOpV07) (opts : BuildOpts) (t : BundlerTrace) (e : BundlerError),
      ops.length ≤ usizeMax → Run (buildInner A b ops opts) t (.error (.err e)) → Unsigned t →
      OpIndexRight b ops t e := by
  intro h
  have hright := h alloy testBundler overflowBatch submitOpts (mockTrace overflowBatch)
    (.pack (.overflow "accountGasLimits")) (by decide) (run_mockTrace rfl) (unsigned_of_any (by decide))
  exact absurd (hright.names_first 1 .packing failsAt_overflow) not_namesOp_pack

end EtheraBundler

import EtheraBundler.Bundler
/-!
# What each piece of the pipeline asks and when it succeeds

One lemma per piece of `Bundler.lean`, so that nothing later unfolds it.

* `CheckedOp` — an op that got through one turn of the loop, together with the answers it got
  through on; the checks are fields, so one that failed cannot be built.
* `run_checkOp_ok`, `run_opLoop_ok` — a turn, and the loop, succeed exactly on such records,
  with exactly their questions asked.
* `settle`, `PrepareRun` — what is computed on the gas estimate, and every way through what
  comes before the lock; `run_prepare_ok` — it succeeds exactly on a `Settled`.
* `run_signAndSend_ok`, `run_signed_ok`, `run_awaitReceipt_ok` — sign, broadcast, receipt.
* `asks_sign_iff` — **the gate**: the signer is asked for `tx` exactly after a complete, passing
  set of checks, and `tx` is the transaction built from them.
-/

namespace EtheraBundler

open BigEndian Interact Saturating

/-! ## Early exits -/

theorem run_orErr_ok {ε α : Type} {conv : ε → BundlerError} {r : Except ε α} {t : BundlerTrace} {a : α} :
    Run (orErr conv r) t (.ok a) ↔ t = [] ∧ r = .ok a := by
  cases r <;> simp [orErr, Except.mapError]
  exact fun _ => eq_comm

theorem run_orErr_error {ε α : Type} {conv : ε → BundlerError} {r : Except ε α} {t : BundlerTrace}
    {e : Exit} : Run (orErr conv r) t (.error e) ↔ t = [] ∧ ∃ x, r = .error x ∧ e = .err (conv x) := by
  cases r <;> simp [orErr, Except.mapError]

theorem asks_orErr {ε α : Type} {conv : ε → BundlerError} {r : Except ε α} {t : BundlerTrace} {o : Op} :
    ¬ Asks (orErr conv r) t o := asks_exit

theorem run_orPanic_error {α : Type} {r : Except Panic α} {t : BundlerTrace} {e : Exit} :
    Run (orPanic r) t (.error e) ↔ t = [] ∧ ∃ p, r = .error p ∧ e = .panic p := by
  cases r <;> simp [orPanic, Except.mapError]

/-! ## One turn of the loop -/

/-- What `check_per_op_fees` accepts. -/
structure FeesOk (b : Bundler) (op : UserOpV07) (baseFee : U256) : Prop where
  tip_le_cap : op.maxPriorityFeePerGas ≤ op.maxFeePerGas
  min_le_tip : b.cfg.minPriorityFeeWei ≤ op.maxPriorityFeePerGas
  cap_covers : satAdd baseFee b.cfg.minPriorityFeeWei ≤ op.maxFeePerGas

theorem checkPerOpFees_ok_iff {b : Bundler} {i : Nat} {op : UserOpV07} {baseFee : U256} :
    checkPerOpFees b i op baseFee = .ok () ↔ FeesOk b op baseFee := by
  unfold checkPerOpFees
  constructor
  · intro h
    split at h
    · cases h
    rename_i h1
    split at h
    · cases h
    rename_i h2
    simp only at h
    split at h
    · cases h
    rename_i h3
    exact ⟨BitVec.not_lt.1 h1, BitVec.not_lt.1 h2, BitVec.not_lt.1 h3⟩
  · rintro ⟨h1, h2, h3⟩
    rw [if_neg (BitVec.not_lt.2 h1), if_neg (BitVec.not_lt.2 h2)]
    simp only
    rw [if_neg (BitVec.not_lt.2 h3)]

/-- An op that passed every check of its turn, with the provider's answers. -/
structure CheckedOp (b : Bundler) (baseFee : U256) (nowUnix : U64) where
  op : UserOpV07
  packed : PackedUserOperation
  sponsor : Address
  required : U256
  deposit : U256
  validation : ValidationResult
  hash : B256
  fees_ok : FeesOk b op baseFee
  pack_eq : pack op = .ok packed
  prefund_eq : prefundRequirement op packed = .ok (sponsor, required)
  covered : required ≤ deposit
  accepted : ∃ report, judge validation nowUnix = .ok report

variable {A : Alloy} {b : Bundler} {baseFee : U256} {nowUnix : U64}

/-- The questions of the turn, with their answers. -/
def CheckedOp.events (c : CheckedOp b baseFee nowUnix) : BundlerTrace :=
  [⟨.rpc (.balanceOf b.cfg.entrypointAddress c.sponsor), .ok c.deposit⟩,
   ⟨.rpc (.simulateValidation b.cfg.entrypointAddress b.simulationsCode c.packed), .ok c.validation⟩,
   ⟨.rpc (.userOpHash b.cfg.entrypointAddress c.packed), .ok c.hash⟩]

/-- The accumulators after the turn. -/
def CheckedOp.pushTo (acc : LoopAcc) (c : CheckedOp b baseFee nowUnix) : LoopAcc :=
  acc.push c.op c.packed c.hash

theorem run_checkPrefund_ok {i : Nat} {op : UserOpV07} {packed : PackedUserOperation} {t : BundlerTrace}
    {u : Unit} :
    Run (checkPrefund b i op packed) t (.ok u) ↔
      ∃ sponsor required deposit, prefundRequirement op packed = .ok (sponsor, required) ∧
        required ≤ deposit ∧
        t = [⟨.rpc (.balanceOf b.cfg.entrypointAddress sponsor), .ok deposit⟩] := by
  rw [checkPrefund, run_bind_ok]
  constructor
  · rintro ⟨t₁, t₂, ⟨sponsor, required⟩, rfl, h1, h2⟩
    obtain ⟨rfl, hp⟩ := run_orErr_ok.1 h1
    obtain ⟨t₃, t₄, deposit, rfl, h3, h4⟩ := run_bind_ok.1 h2
    obtain ⟨rfl, hd⟩ := run_failIf.1 h4
    refine ⟨sponsor, required, deposit, hp, ?_, by rw [run_await_ok.1 h3]; rfl⟩
    by_cases hlt : deposit < required
    · rw [if_pos hlt] at hd; cases hd
    · exact BitVec.not_lt.1 hlt
  · rintro ⟨sponsor, required, deposit, hp, hd, rfl⟩
    refine ⟨[], _, (sponsor, required), rfl, run_orErr_ok.2 ⟨rfl, hp⟩, ?_⟩
    refine run_bind_ok.2 ⟨_, [], deposit, by rw [List.append_nil], run_await_ok.2 rfl, ?_⟩
    exact run_failIf.2 ⟨rfl, by rw [if_neg (BitVec.not_lt.2 hd)]⟩

/-- **One turn of the loop** succeeds exactly on a `CheckedOp` for its op. -/
theorem run_checkOp_ok {i : Nat} {acc acc' : LoopAcc} {op : UserOpV07} {t : BundlerTrace} :
    Run (checkOp b baseFee nowUnix i acc op) t (.ok acc') ↔
      ∃ c : CheckedOp b baseFee nowUnix, c.op = op ∧ t = c.events ∧ acc' = c.pushTo acc := by
  simp only [checkOp, run_bind_ok, run_orErr_ok, run_checkPrefund_ok, run_mapFail_ok, run_simulate_ok,
    Prog.pure_eq, run_ret]
  constructor
  · rintro ⟨_, _, _, rfl, ⟨rfl, hf⟩, _, _, packed, rfl, ⟨rfl, hp⟩, _, _, _, rfl,
      ⟨sponsor, required, deposit, hq, hd, rfl⟩, _, _, report, rfl, ⟨v, rfl, hv⟩, t₁, _, hash, rfl, hh,
      rfl, hacc⟩
    have ht : t₁ = _ := run_await_ok.1 hh
    cases hacc
    refine ⟨⟨op, packed, sponsor, required, deposit, v, hash, checkPerOpFees_ok_iff.1 hf, hp, hq, hd,
      report, hv⟩, rfl, ?_, rfl⟩
    rw [ht]; rfl
  · rintro ⟨c, rfl, rfl, rfl⟩
    obtain ⟨report, hv⟩ := c.accepted
    exact ⟨[], _, (), rfl, ⟨rfl, checkPerOpFees_ok_iff.2 c.fees_ok⟩, [], _, c.packed, rfl,
      ⟨rfl, c.pack_eq⟩, _, _, (), rfl, ⟨c.sponsor, c.required, c.deposit, c.prefund_eq, c.covered, rfl⟩,
      _, _, report, rfl, ⟨c.validation, rfl, hv⟩, _, [], c.hash, rfl, run_await_ok.2 rfl, rfl, rfl⟩

/-! ## The loop -/

/-- **The loop** succeeds exactly when every op does, in order. -/
theorem run_opLoop_ok : ∀ {ops : List UserOpV07} {i : Nat} {acc acc' : LoopAcc} {t : BundlerTrace},
    Run (opLoop b baseFee nowUnix i acc ops) t (.ok acc') ↔
      ∃ cs : List (CheckedOp b baseFee nowUnix), cs.map (·.op) = ops ∧
        t = cs.flatMap (·.events) ∧ acc' = cs.foldl CheckedOp.pushTo acc
  | [], i, acc, acc', t => by
    simp only [opLoop, Prog.pure_eq, run_ret, Except.ok.injEq, List.map_eq_nil_iff, exists_eq_left,
      List.flatMap_nil, List.foldl_nil]
  | op :: ops, i, acc, acc', t => by
    rw [opLoop, run_bind_ok]
    constructor
    · rintro ⟨t₁, t₂, acc₁, rfl, h1, h2⟩
      obtain ⟨c, rfl, rfl, rfl⟩ := run_checkOp_ok.1 h1
      obtain ⟨cs, rfl, rfl, rfl⟩ := run_opLoop_ok.1 h2
      exact ⟨c :: cs, rfl, rfl, rfl⟩
    · rintro ⟨cs, hops, rfl, rfl⟩
      cases cs with
      | nil => cases hops
      | cons c cs =>
        simp only [List.map_cons, List.cons.injEq] at hops
        obtain ⟨rfl, rfl⟩ := hops
        exact ⟨c.events, _, c.pushTo acc, rfl, run_checkOp_ok.2 ⟨c, rfl, rfl, rfl⟩,
          run_opLoop_ok.2 ⟨cs, rfl, rfl, rfl⟩⟩

/-- The accumulators after the ops `cs` got through. -/
theorem foldl_pushTo (cs : List (CheckedOp b baseFee nowUnix)) (acc : LoopAcc) :
    cs.foldl CheckedOp.pushTo acc =
      { packedOps := acc.packedOps ++ cs.map (·.packed)
        userOpHashes := acc.userOpHashes ++ cs.map (·.hash)
        minUserTip := (cs.map (·.op.maxPriorityFeePerGas)).foldl updateMin acc.minUserTip
        minUserFeeCap := (cs.map (·.op.maxFeePerGas)).foldl updateMin acc.minUserFeeCap } := by
  induction cs generalizing acc with
  | nil => simp
  | cons c cs ih =>
    rw [List.foldl_cons, ih]
    simp [CheckedOp.pushTo, LoopAcc.push]

theorem foldl_pushTo_packedOps (cs : List (CheckedOp b baseFee nowUnix)) (acc : LoopAcc) :
    (cs.foldl CheckedOp.pushTo acc).packedOps = acc.packedOps ++ cs.map (·.packed) := by
  rw [foldl_pushTo]

theorem foldl_pushTo_userOpHashes (cs : List (CheckedOp b baseFee nowUnix)) (acc : LoopAcc) :
    (cs.foldl CheckedOp.pushTo acc).userOpHashes = acc.userOpHashes ++ cs.map (·.hash) := by
  rw [foldl_pushTo]

theorem foldl_pushTo_minUserTip (cs : List (CheckedOp b baseFee nowUnix)) (acc : LoopAcc) :
    (cs.foldl CheckedOp.pushTo acc).minUserTip =
      (cs.map (·.op.maxPriorityFeePerGas)).foldl updateMin acc.minUserTip := by
  rw [foldl_pushTo]

theorem foldl_pushTo_minUserFeeCap (cs : List (CheckedOp b baseFee nowUnix)) (acc : LoopAcc) :
    (cs.foldl CheckedOp.pushTo acc).minUserFeeCap =
      (cs.map (·.op.maxFeePerGas)).foldl updateMin acc.minUserFeeCap := by
  rw [foldl_pushTo]

/-! ## Everything before the lock -/

/-- What `prepare` settled, with the provider's answers it settled it on. -/
structure Settled (b : Bundler) (ops : List UserOpV07) where
  baseFee : U256
  suggestedTip : U256
  clock : Option U64
  checked : List (CheckedOp b baseFee (clock.getD 0))
  estimated : U64
  gas : U64
  minUserTip : U256
  minUserFeeCap : U256
  outerTip : U256
  outerFeeCap : U256
  ops_eq : checked.map (·.op) = ops
  gas_eq : gasWithMargin b estimated = .ok gas
  minUserTip_eq : (ops.map (·.maxPriorityFeePerGas)).foldl updateMin none = some minUserTip
  minUserFeeCap_eq : (ops.map (·.maxFeePerGas)).foldl updateMin none = some minUserFeeCap
  fees_eq : chooseOuterFees b baseFee suggestedTip minUserTip minUserFeeCap = .ok (outerTip, outerFeeCap)

namespace Settled

variable {ops : List UserOpV07} (s : Settled b ops)

def callData (A : Alloy) : Bytes :=
  A.handleOpsAbiEncode (s.checked.map (·.packed)) b.signerAddress

/-- The questions of `prepare`, with their answers. -/
def events (A : Alloy) : BundlerTrace :=
  [⟨.rpc .baseFee, .ok s.baseFee⟩, ⟨.rpc .maxPriorityFee, .ok s.suggestedTip⟩, ⟨.sinceEpoch, s.clock⟩] ++
    s.checked.flatMap (·.events) ++
    [⟨.rpc (.estimateHandleOpsGas b.signerAddress b.cfg.entrypointAddress (s.callData A)), .ok s.estimated⟩]

def prepared (A : Alloy) : Prepared :=
  ⟨s.callData A, s.gas, s.outerTip, s.outerFeeCap, s.checked.map (·.hash)⟩

end Settled

theorem expectNonEmpty_ok {slot : Option U256} {v : U256} : expectNonEmpty slot = .ok v ↔ slot = some v := by
  cases slot <;> simp [expectNonEmpty]

/-- What is computed once the gas estimate is there (`bundler.rs:175-182`); nothing is asked. -/
def settle (A : Alloy) (b : Bundler) (baseFee suggestedTip : U256) (acc : LoopAcc) (estimated : U64) :
    Except Exit Prepared := do
  let gas ← (gasWithMargin b estimated).mapError .panic
  let minUserTip ← (expectNonEmpty acc.minUserTip).mapError .panic
  let minUserFeeCap ← (expectNonEmpty acc.minUserFeeCap).mapError .panic
  let fees ← (chooseOuterFees b baseFee suggestedTip minUserTip minUserFeeCap).mapError .err
  return ⟨A.handleOpsAbiEncode acc.packedOps b.signerAddress, gas, fees.1, fees.2, acc.userOpHashes⟩

theorem exit_settle {suggestedTip : U256} {acc : LoopAcc} {estimated : U64} :
    (Prog.exit (settle A b baseFee suggestedTip acc estimated) : M Prepared) = (do
      let gas ← orPanic (gasWithMargin b estimated)
      let minUserTip ← orPanic (expectNonEmpty acc.minUserTip)
      let minUserFeeCap ← orPanic (expectNonEmpty acc.minUserFeeCap)
      let fees ← orErr id (chooseOuterFees b baseFee suggestedTip minUserTip minUserFeeCap)
      return ⟨A.handleOpsAbiEncode acc.packedOps b.signerAddress, gas, fees.1, fees.2, acc.userOpHashes⟩) := by
  unfold settle orPanic
  rcases gasWithMargin b estimated with p | gas
  · rfl
  rcases expectNonEmpty acc.minUserTip with p | tip
  · rfl
  rcases expectNonEmpty acc.minUserFeeCap with p | cap
  · rfl
  show Prog.exit ((chooseOuterFees b baseFee suggestedTip tip cap).mapError Exit.err >>= _) = orErr id _ >>= _
  rcases chooseOuterFees b baseFee suggestedTip tip cap with e | fees
  · rfl
  · rfl

/-- `prepare` asks, then settles. -/
theorem prepare_eq {ops : List UserOpV07} : prepare A b ops = (do
    let baseFee ← rpc .baseFee
    let suggestedTip ← rpc .maxPriorityFee
    let nowUnix ← unixNow
    let acc ← opLoop b baseFee nowUnix 0 .empty ops
    let estimated ← rpc (.estimateHandleOpsGas b.signerAddress b.cfg.entrypointAddress
      (A.handleOpsAbiEncode acc.packedOps b.signerAddress))
    Prog.exit (settle A b baseFee suggestedTip acc estimated)) := by
  simp only [exit_settle]
  rfl

/-- What is read before the loop. -/
def readEvents (baseFee suggestedTip : U256) (clock : Option U64) : BundlerTrace :=
  [⟨.rpc .baseFee, .ok baseFee⟩, ⟨.rpc .maxPriorityFee, .ok suggestedTip⟩, ⟨.sinceEpoch, clock⟩]

/-- The gas estimate of a batch that got through the loop, with its answer. -/
def estimateEvent (A : Alloy) (b : Bundler) (cs : List (CheckedOp b baseFee nowUnix))
    (answer : Except ProviderError U64) : Event Op Op.Ans :=
  ⟨.rpc (.estimateHandleOpsGas b.signerAddress b.cfg.entrypointAddress
    (A.handleOpsAbiEncode (cs.map (·.packed)) b.signerAddress)), answer⟩

/-- The runs of `prepare`. -/
inductive PrepareRun (A : Alloy) (b : Bundler) (ops : List UserOpV07) :
    BundlerTrace → Except Exit Prepared → Prop where
  | baseFeeFailed (pe : ProviderError) :
    PrepareRun A b ops [⟨.rpc .baseFee, .error pe⟩] (.error (.err (.provider pe)))
  | tipFailed (baseFee : U256) (pe : ProviderError) :
    PrepareRun A b ops [⟨.rpc .baseFee, .ok baseFee⟩, ⟨.rpc .maxPriorityFee, .error pe⟩]
      (.error (.err (.provider pe)))
  | rejected (baseFee suggestedTip : U256) (clock : Option U64) (u : BundlerTrace) (e : Exit)
    (h : Run (opLoop b baseFee (clock.getD 0) 0 .empty ops) u (.error e)) :
    PrepareRun A b ops (readEvents baseFee suggestedTip clock ++ u) (.error e)
  | estimateFailed (baseFee suggestedTip : U256) (clock : Option U64)
    (cs : List (CheckedOp b baseFee (clock.getD 0))) (hops : cs.map (·.op) = ops) (pe : ProviderError) :
    PrepareRun A b ops
      (readEvents baseFee suggestedTip clock ++ (cs.flatMap (·.events) ++ [estimateEvent A b cs (.error pe)]))
      (.error (.err (.provider pe)))
  | estimated (baseFee suggestedTip : U256) (clock : Option U64)
    (cs : List (CheckedOp b baseFee (clock.getD 0))) (hops : cs.map (·.op) = ops) (estimated : U64) :
    PrepareRun A b ops
      (readEvents baseFee suggestedTip clock ++ (cs.flatMap (·.events) ++ [estimateEvent A b cs (.ok estimated)]))
      (settle A b baseFee suggestedTip (cs.foldl CheckedOp.pushTo .empty) estimated)

theorem estimateEvent_eq {cs : List (CheckedOp b baseFee nowUnix)} {answer : Except ProviderError U64} :
    estimateEvent A b cs answer = ⟨.rpc (.estimateHandleOpsGas b.signerAddress b.cfg.entrypointAddress
      (A.handleOpsAbiEncode (cs.foldl CheckedOp.pushTo .empty).packedOps b.signerAddress)), answer⟩ := by
  rw [foldl_pushTo_packedOps]
  rfl

theorem run_prepare_cases {ops : List UserOpV07} {t : BundlerTrace} {r : Except Exit Prepared}
    (h : Run (prepare A b ops) t r) : PrepareRun A b ops t r := by
  rw [prepare_eq] at h
  rcases run_bind.1 h with ⟨e, rfl, h1⟩ | ⟨t₁, t, baseFee, rfl, h1, g1⟩
  · obtain ⟨pe, rfl, rfl⟩ := run_await_error.1 h1
    exact .baseFeeFailed pe
  have e1 : t₁ = [⟨.rpc .baseFee, .ok baseFee⟩] := run_await_ok.1 h1
  subst e1
  rcases run_bind.1 g1 with ⟨e, rfl, h2⟩ | ⟨t₂, t, suggestedTip, rfl, h2, g2⟩
  · obtain ⟨pe, rfl, rfl⟩ := run_await_error.1 h2
    exact .tipFailed baseFee pe
  have e2 : t₂ = [⟨.rpc .maxPriorityFee, .ok suggestedTip⟩] := run_await_ok.1 h2
  subst e2
  rcases run_bind.1 g2 with ⟨e, rfl, h3⟩ | ⟨_, t, _, rfl, h3, g3⟩
  · obtain ⟨_, -, hc⟩ := run_unixNow.1 h3
    cases hc
  obtain ⟨clock, rfl, hc⟩ := run_unixNow.1 h3
  cases hc
  rcases run_bind.1 g3 with ⟨e, rfl, h4⟩ | ⟨_, t, acc, rfl, h4, g4⟩
  · exact .rejected baseFee suggestedTip clock t e h4
  obtain ⟨cs, hops, rfl, rfl⟩ := run_opLoop_ok.1 h4
  rcases run_bind.1 g4 with ⟨e, rfl, h5⟩ | ⟨t₅, t, estimated, rfl, h5, g5⟩
  · obtain ⟨pe, rfl, rfl⟩ := run_await_error.1 h5
    rw [← estimateEvent_eq]
    exact .estimateFailed baseFee suggestedTip clock cs hops pe
  have e5 : t₅ = _ := run_await_ok.1 h5
  obtain ⟨rfl, rfl⟩ := run_exit.1 g5
  rw [e5, ← estimateEvent_eq]
  exact .estimated baseFee suggestedTip clock cs hops estimated

/-- The reads come first whatever the rest of the call ends in. -/
theorem run_prepare_of_reads {ops : List UserOpV07} {suggestedTip : U256} {clock : Option U64} {u : BundlerTrace}
    {r : Except Exit Prepared}
    (h : Run (do
      let acc ← opLoop b baseFee (clock.getD 0) 0 .empty ops
      let estimated ← rpc (.estimateHandleOpsGas b.signerAddress b.cfg.entrypointAddress
        (A.handleOpsAbiEncode acc.packedOps b.signerAddress))
      Prog.exit (settle A b baseFee suggestedTip acc estimated)) u r) :
    Run (prepare A b ops) (readEvents baseFee suggestedTip clock ++ u) r := by
  rw [prepare_eq]
  refine run_bind.2 (Or.inr ⟨[_], _, baseFee, rfl, run_await_ok.2 rfl, ?_⟩)
  refine run_bind.2 (Or.inr ⟨[_], _, suggestedTip, rfl, run_await_ok.2 rfl, ?_⟩)
  exact run_bind.2 (Or.inr ⟨[_], _, clock.getD 0, rfl, run_unixNow.2 ⟨clock, rfl, rfl⟩, h⟩)

theorem PrepareRun.run {ops : List UserOpV07} {t : BundlerTrace} {r : Except Exit Prepared}
    (h : PrepareRun A b ops t r) : Run (prepare A b ops) t r := by
  cases h with
  | baseFeeFailed pe =>
    rw [prepare_eq]
    exact run_bind_error.2 (Or.inl (run_await_error.2 ⟨pe, rfl, rfl⟩))
  | tipFailed baseFee pe =>
    rw [prepare_eq]
    refine run_bind.2 (Or.inr ⟨[_], [_], baseFee, rfl, run_await_ok.2 rfl, ?_⟩)
    exact run_bind_error.2 (Or.inl (run_await_error.2 ⟨pe, rfl, rfl⟩))
  | rejected baseFee suggestedTip clock u e h => exact run_prepare_of_reads (run_bind_error.2 (Or.inl h))
  | estimateFailed baseFee suggestedTip clock cs hops pe =>
    apply run_prepare_of_reads
    refine run_bind.2 (Or.inr ⟨_, [_], _, rfl, run_opLoop_ok.2 ⟨cs, hops, rfl, rfl⟩, ?_⟩)
    exact run_bind_error.2 (Or.inl (run_await_error.2 ⟨pe, rfl, by rw [estimateEvent_eq]⟩))
  | estimated baseFee suggestedTip clock cs hops estimated =>
    apply run_prepare_of_reads
    refine run_bind.2 (Or.inr ⟨_, [_], _, rfl, run_opLoop_ok.2 ⟨cs, hops, rfl, rfl⟩, ?_⟩)
    refine run_bind.2 (Or.inr ⟨[_], [], estimated, rfl, run_await_ok.2 (by rw [estimateEvent_eq]), ?_⟩)
    exact run_exit.2 ⟨rfl, rfl⟩

/-- **The ways to settle**: the gas limit comes first, then the two minima, then the outer fees. -/
theorem settle_cases (A : Alloy) (b : Bundler) (baseFee suggestedTip : U256) (acc : LoopAcc) (estimated : U64) :
    (∃ p, gasWithMargin b estimated = .error p ∧
      settle A b baseFee suggestedTip acc estimated = .error (.panic p)) ∨
    ∃ gas, gasWithMargin b estimated = .ok gas ∧
      (settle A b baseFee suggestedTip acc estimated = .error (.panic .nonEmptyBatch) ∨
      ∃ tip cap, acc.minUserTip = some tip ∧ acc.minUserFeeCap = some cap ∧
        settle A b baseFee suggestedTip acc estimated =
          ((chooseOuterFees b baseFee suggestedTip tip cap).mapError .err).map fun fees =>
            ⟨A.handleOpsAbiEncode acc.packedOps b.signerAddress, gas, fees.1, fees.2, acc.userOpHashes⟩) := by
  unfold settle
  rcases gasWithMargin b estimated with p | gas
  · exact Or.inl ⟨p, rfl, rfl⟩
  refine Or.inr ⟨gas, rfl, ?_⟩
  rcases acc.minUserTip with - | tip
  · exact Or.inl rfl
  rcases acc.minUserFeeCap with - | cap
  · exact Or.inl rfl
  refine Or.inr ⟨tip, cap, rfl, rfl, ?_⟩
  show ((chooseOuterFees b baseFee suggestedTip tip cap).mapError Exit.err >>= _) = _
  rcases chooseOuterFees b baseFee suggestedTip tip cap with e | fees
  · rfl
  · rfl

theorem settle_ok {suggestedTip : U256} {acc : LoopAcc} {estimated : U64} {p : Prepared}
    (h : settle A b baseFee suggestedTip acc estimated = .ok p) : ∃ gas tip cap fees,
      gasWithMargin b estimated = .ok gas ∧ acc.minUserTip = some tip ∧ acc.minUserFeeCap = some cap ∧
      chooseOuterFees b baseFee suggestedTip tip cap = .ok fees ∧
      p = ⟨A.handleOpsAbiEncode acc.packedOps b.signerAddress, gas, fees.1, fees.2, acc.userOpHashes⟩ := by
  rcases settle_cases A b baseFee suggestedTip acc estimated with
    ⟨x, hg, hs⟩ | ⟨gas, hg, hs | ⟨tip, cap, ht, hc, hs⟩⟩
  · rw [hs] at h
    cases h
  · rw [hs] at h
    cases h
  rcases hf : chooseOuterFees b baseFee suggestedTip tip cap with e | fees
  · rw [hs, hf] at h
    cases h
  · rw [hs, hf] at h
    cases h
    exact ⟨gas, tip, cap, fees, hg, ht, hc, hf, rfl⟩

theorem settle_of_ok {suggestedTip tip cap : U256} {acc : LoopAcc} {estimated gas : U64} {fees : U256 × U256}
    (hg : gasWithMargin b estimated = .ok gas) (ht : acc.minUserTip = some tip) (hc : acc.minUserFeeCap = some cap)
    (hf : chooseOuterFees b baseFee suggestedTip tip cap = .ok fees) :
    settle A b baseFee suggestedTip acc estimated =
      .ok ⟨A.handleOpsAbiEncode acc.packedOps b.signerAddress, gas, fees.1, fees.2, acc.userOpHashes⟩ := by
  unfold settle
  rw [hg, ht, hc]
  show ((chooseOuterFees b baseFee suggestedTip tip cap).mapError Exit.err >>= _) = _
  rw [hf]
  rfl

theorem settle_err {suggestedTip : U256} {acc : LoopAcc} {estimated : U64} {e : BundlerError}
    (h : settle A b baseFee suggestedTip acc estimated = .error (.err e)) : ∃ tip cap,
      acc.minUserTip = some tip ∧ acc.minUserFeeCap = some cap ∧
      chooseOuterFees b baseFee suggestedTip tip cap = .error e := by
  rcases settle_cases A b baseFee suggestedTip acc estimated with
    ⟨x, hg, hs⟩ | ⟨gas, hg, hs | ⟨tip, cap, ht, hc, hs⟩⟩
  · rw [hs] at h
    cases h
  · rw [hs] at h
    cases h
  rcases hf : chooseOuterFees b baseFee suggestedTip tip cap with e' | fees
  · rw [hs, hf] at h
    cases h
    exact ⟨tip, cap, ht, hc, hf⟩
  · rw [hs, hf] at h
    cases h

/-- **Everything before the lock** succeeds exactly on a `Settled`. -/
theorem run_prepare_ok {ops : List UserOpV07} {t : BundlerTrace} {p : Prepared} :
    Run (prepare A b ops) t (.ok p) ↔ ∃ s : Settled b ops, t = s.events A ∧ p = s.prepared A := by
  constructor
  · intro h
    have hc := run_prepare_cases h
    generalize hr : (Except.ok p : Except Exit Prepared) = r at hc
    cases hc with
    | estimated baseFee suggestedTip clock cs hops estimated =>
      obtain ⟨gas, tip, cap, fees, hg, ht, hcap, hf, rfl⟩ := settle_ok hr.symm
      rw [foldl_pushTo_minUserTip] at ht
      rw [foldl_pushTo_minUserFeeCap] at hcap
      subst hops
      refine ⟨⟨baseFee, suggestedTip, clock, cs, estimated, gas, tip, cap, fees.1, fees.2, rfl, hg, ?_, ?_, hf⟩,
        rfl, ?_⟩
      · rw [List.map_map]
        exact ht
      · rw [List.map_map]
        exact hcap
      · rw [foldl_pushTo_packedOps, foldl_pushTo_userOpHashes]
        rfl
    | _ => cases hr
  · rintro ⟨s, rfl, rfl⟩
    have hrun := (PrepareRun.estimated (A := A) s.baseFee s.suggestedTip s.clock s.checked s.ops_eq s.estimated).run
    have ht : (s.checked.foldl CheckedOp.pushTo LoopAcc.empty).minUserTip = some s.minUserTip := by
      have h := s.minUserTip_eq
      rw [foldl_pushTo_minUserTip]
      simp only [← s.ops_eq, List.map_map] at h
      exact h
    have hc : (s.checked.foldl CheckedOp.pushTo LoopAcc.empty).minUserFeeCap = some s.minUserFeeCap := by
      have h := s.minUserFeeCap_eq
      rw [foldl_pushTo_minUserFeeCap]
      simp only [← s.ops_eq, List.map_map] at h
      exact h
    rw [settle_of_ok s.gas_eq ht hc s.fees_eq, foldl_pushTo_packedOps, foldl_pushTo_userOpHashes] at hrun
    exact hrun

/-- The questions asked before the lock: they read the chain and the clock, nothing more. -/
def Op.isCheck : Op → Prop
  | .rpc .baseFee | .rpc .maxPriorityFee | .rpc (.balanceOf _ _) | .rpc (.simulateValidation _ _ _)
  | .rpc (.userOpHash _ _) | .rpc (.estimateHandleOpsGas _ _ _) | .sinceEpoch => True
  | _ => False

/-- The questions of one turn of the loop. -/
def Op.isTurn : Op → Prop
  | .rpc (.balanceOf _ _) | .rpc (.simulateValidation _ _ _) | .rpc (.userOpHash _ _) => True
  | _ => False

theorem isCheck_of_isTurn {o : Op} (h : o.isTurn) : o.isCheck := by
  unfold Op.isTurn at h
  split at h
  · trivial
  · trivial
  · trivial
  · exact absurd h id

theorem only_checkOp {i : Nat} {acc : LoopAcc} {op : UserOpV07} :
    Only Op.isTurn (checkOp b baseFee nowUnix i acc op) := by
  unfold checkOp checkPrefund simulate
  refine Only.bind only_exit fun _ => Only.bind only_exit fun _ => Only.bind ?_ fun _ => ?_
  · refine Only.bind only_exit fun _ => Only.bind (only_await trivial) fun _ => only_failIf
  refine Only.bind (Only.mapFail ?_) fun _ => ?_
  · exact Only.bind (only_await trivial) fun _ => only_exit
  exact Only.bind (only_await trivial) fun _ => only_ret

theorem only_opLoop : ∀ {ops : List UserOpV07} {i : Nat} {acc : LoopAcc},
    Only Op.isTurn (opLoop b baseFee nowUnix i acc ops)
  | [], _, _ => only_ret
  | _ :: _, _, _ => Only.bind only_checkOp fun _ => only_opLoop

/-- Nothing is signed, sent or locked before the checks are through. -/
theorem only_prepare {ops : List UserOpV07} : Only Op.isCheck (prepare A b ops) := by
  rw [prepare_eq]
  refine Only.bind (only_await trivial) fun _ => Only.bind (only_await trivial) fun _ => ?_
  refine Only.bind ⟨trivial, fun _ => trivial⟩ fun _ => ?_
  refine Only.bind (only_opLoop.mono fun _ => isCheck_of_isTurn) fun _ => ?_
  exact Only.bind (only_await trivial) fun _ => only_exit

/-! ## Sign, broadcast, receipt -/

variable {opts : BuildOpts} {p : Prepared} {t : BundlerTrace}

/-- The nonce read, answered. -/
abbrev nonceRead (b : Bundler) (nonce : U64) : Event Op Op.Ans :=
  ⟨.rpc (.pendingNonce b.signerAddress), .ok nonce⟩

/-- The signature, answered. -/
abbrev signedWith (env : TxEnvelope) : Event Op Op.Ans := ⟨.signEip1559 env.tx, .ok env.signature⟩

/-- The broadcast's events: none in sign-only mode. -/
def broadcastEvents (opts : BuildOpts) (raw : Bytes) (submitted : B256) : BundlerTrace :=
  if opts.submit then [⟨.rpc (.sendRawTransaction raw), .ok submitted⟩] else []

theorem run_broadcast_ok {tx : SignedTx} {u : Unit} :
    Run (broadcast b opts tx) t (.ok u) ↔ ∃ submitted, t = broadcastEvents opts tx.raw submitted ∧
      (opts.submit = true → b.build.debugAssertions = true → submitted = tx.hash) := by
  unfold broadcast broadcastEvents
  by_cases hs : opts.submit = true
  · simp only [if_pos hs, rpc, run_bind_ok, run_failIf]
    constructor
    · rintro ⟨t₁, t₂, submitted, rfl, h1, rfl, h2⟩
      refine ⟨submitted, by rw [run_await_ok.1 h1, List.append_nil], fun _ hd => ?_⟩
      by_contra hne
      rw [if_pos ⟨hd, hne⟩] at h2
      cases h2
    · rintro ⟨submitted, rfl, h⟩
      refine ⟨_, [], submitted, by rw [List.append_nil], run_await_ok.2 rfl, rfl, ?_⟩
      rw [if_neg fun hc => hc.2 (h hs hc.1)]
  · simp only [if_neg hs, Prog.pure_eq, run_ret]
    constructor
    · rintro ⟨rfl, -⟩
      exact ⟨tx.hash, rfl, fun _ _ => rfl⟩
    · rintro ⟨-, rfl, -⟩
      exact ⟨rfl, trivial⟩

/-- **Under the guard** a success reads a nonce, has the transaction built on it signed and, in
submit mode, sends the signed bytes. -/
theorem run_signAndSend_ok {tx : SignedTx} :
    Run (signAndSend A b opts p) t (.ok tx) ↔ ∃ nonce env submitted,
      buildTx b p nonce = .ok env.tx ∧ tx = .of A env ∧
      t = nonceRead b nonce :: signedWith env :: broadcastEvents opts tx.raw submitted ∧
      (opts.submit = true → b.build.debugAssertions = true → submitted = tx.hash) := by
  simp only [signAndSend, rpc, run_bind_ok, run_orErr_ok, run_signEip1559_ok, run_broadcast_ok, Prog.pure_eq,
    run_ret]
  constructor
  · rintro ⟨t₁, _, nonce, rfl, h1, _, _, tx', rfl, ⟨rfl, hb⟩, _, _, env, rfl, ⟨rfl, rfl⟩, _, _, _, rfl,
      ⟨submitted, rfl, hd⟩, rfl, htx⟩
    cases htx
    refine ⟨nonce, env, submitted, hb, rfl, ?_, hd⟩
    rw [run_await_ok.1 h1, List.append_nil]
    rfl
  · rintro ⟨nonce, env, submitted, hb, rfl, rfl, hd⟩
    exact ⟨[_], _, nonce, rfl, run_await_ok.2 rfl, [], _, env.tx, rfl, ⟨rfl, hb⟩, [_], _, env, rfl,
      ⟨rfl, rfl⟩, _, [], (), (List.append_nil _).symm, ⟨submitted, rfl, hd⟩, rfl, rfl⟩

/-- The events a guard puts around those of its body: none in sign-only mode. -/
def guardEvents (opts : BuildOpts) (u : BundlerTrace) : BundlerTrace :=
  if opts.submit then ⟨.lock, ()⟩ :: u ++ [⟨.unlock, ()⟩] else u

theorem run_signed {r : Except Exit SignedTx} :
    Run (signed A b opts p) t r ↔ ∃ u, t = guardEvents opts u ∧ Run (signAndSend A b opts p) u r := by
  unfold signed guardEvents
  by_cases hs : opts.submit = true
  · simp only [if_pos hs, run_withGuard]
    constructor
    · rintro ⟨-, u, -, rfl, h⟩
      exact ⟨u, rfl, h⟩
    · rintro ⟨u, rfl, h⟩
      exact ⟨(), u, (), rfl, h⟩
  · simp only [if_neg hs]
    constructor
    · intro h
      exact ⟨t, rfl, h⟩
    · rintro ⟨u, rfl, h⟩
      exact h

/-- **The receipt** of a success is there and says the transaction succeeded. -/
theorem run_awaitReceipt_ok {callData : Bytes} {hash : B256} {u : Unit} :
    Run (awaitReceipt A b opts callData hash) t (.ok u) ↔
      (opts.submit = false ∧ t = []) ∨ (opts.submit = true ∧ ∃ receipt : ReceiptInfo,
        receipt.success = true ∧
        t = [⟨.rpc (.waitForReceipt hash RECEIPT_TIMEOUT), .ok (some receipt)⟩]) := by
  unfold awaitReceipt
  cases hs : opts.submit with
  | false => simp
  | true =>
    simp only [if_true, rpc, Bool.true_eq_false, false_and, true_and, false_or]
    rw [run_bind_ok]
    constructor
    · rintro ⟨t₁, t₂, receipt, rfl, h1, h2⟩
      rcases receipt with - | receipt
      · simp at h2
      by_cases hr : receipt.success = true
      · simp only [if_pos hr, Prog.pure_eq, run_ret] at h2
        exact ⟨receipt, hr, by rw [run_await_ok.1 h1, h2.1, List.append_nil]⟩
      · simp only [if_neg hr, run_bind_ok, run_fail] at h2
        obtain ⟨_, _, _, -, -, -, h⟩ := h2
        cases h
    · rintro ⟨receipt, hr, rfl⟩
      refine ⟨_, [], some receipt, (List.append_nil _).symm, run_await_ok.2 rfl, ?_⟩
      simp only [if_pos hr, Prog.pure_eq, run_ret, and_self]

/-! ## The gate -/

theorem asks_broadcast {tx : SignedTx} {o : Op} (h : Asks (broadcast b opts tx) t o) :
    opts.submit = true ∧ t = [] ∧ o = .rpc (.sendRawTransaction tx.raw) := by
  unfold broadcast at h
  by_cases hs : opts.submit = true
  · rw [if_pos hs] at h
    rcases asks_bind.1 h with h | ⟨_, _, _, -, -, h⟩
    · exact ⟨hs, asks_await.1 h⟩
    · exact absurd h asks_failIf
  · rw [if_neg hs] at h
    exact absurd h asks_ret

theorem asks_awaitReceipt {callData : Bytes} {hash : B256} {o : Op}
    (h : Asks (awaitReceipt A b opts callData hash) t o) :
    o = .rpc (.waitForReceipt hash RECEIPT_TIMEOUT) ∨
      o = .rpc (.tryCallForRevert b.signerAddress b.cfg.entrypointAddress callData) := by
  unfold awaitReceipt at h
  by_cases hs : opts.submit = true
  · rw [if_pos hs] at h
    rcases asks_bind.1 h with h | ⟨_, _, receipt, -, -, h⟩
    · exact Or.inl (asks_await.1 h).2
    rcases receipt with - | receipt
    · exact absurd h asks_fail
    by_cases hr : receipt.success = true
    · simp only [if_pos hr, Prog.pure_eq, asks_ret] at h
    · simp only [if_neg hr] at h
      rcases asks_bind.1 h with h | ⟨_, _, _, -, -, h⟩
      · exact Or.inr (asks_await.1 h).2
      · exact absurd h asks_fail
  · rw [if_neg hs] at h
    exact absurd h asks_ret

/-- Under the guard the signer is asked right after the nonce, for the transaction built on it. -/
theorem asks_signAndSend_sign {tx : TxEip1559} :
    Asks (signAndSend A b opts p) t (.signEip1559 tx) ↔
      ∃ nonce, buildTx b p nonce = .ok tx ∧ t = [nonceRead b nonce] := by
  rw [signAndSend, asks_bind]
  constructor
  · rintro (h | ⟨t₁, t₂, nonce, rfl, h1, h2⟩)
    · exact absurd (asks_await.1 h).2 (by simp)
    rcases asks_bind.1 h2 with h2 | ⟨_, t₂, tx', rfl, h2, h3⟩
    · exact absurd h2 asks_orErr
    obtain ⟨rfl, hb⟩ := run_orErr_ok.1 h2
    rcases asks_bind.1 h3 with h3 | ⟨_, _, env, rfl, -, h4⟩
    · obtain ⟨rfl, ho⟩ := asks_signEip1559.1 h3
      cases ho
      exact ⟨nonce, hb, by rw [run_await_ok.1 h1]; rfl⟩
    · rcases asks_bind.1 h4 with h4 | ⟨_, _, _, -, -, h⟩
      · exact absurd (asks_broadcast h4).2.2 (by simp)
      · exact absurd h asks_ret
  · rintro ⟨nonce, hb, rfl⟩
    refine Or.inr ⟨[_], [], nonce, rfl, run_await_ok.2 rfl, asks_bind.2 (Or.inr ?_)⟩
    refine ⟨[], [], tx, rfl, run_orErr_ok.2 ⟨rfl, hb⟩, asks_bind.2 (Or.inl ?_)⟩
    exact asks_signEip1559.2 ⟨rfl, rfl⟩

/-- The events before the nonce read. -/
def lockEvents (opts : BuildOpts) : BundlerTrace := if opts.submit then [⟨.lock, ()⟩] else []

theorem asks_signed_sign {tx : TxEip1559} :
    Asks (signed A b opts p) t (.signEip1559 tx) ↔
      ∃ nonce, buildTx b p nonce = .ok tx ∧ t = lockEvents opts ++ [nonceRead b nonce] := by
  unfold signed lockEvents
  by_cases hs : opts.submit = true
  · simp only [if_pos hs, asks_withGuard, asks_signAndSend_sign, reduceCtorEq, and_false, false_and, or_false,
      false_or]
    constructor
    · rintro ⟨-, _, rfl, nonce, hb, rfl⟩
      exact ⟨nonce, hb, rfl⟩
    · rintro ⟨nonce, hb, rfl⟩
      exact ⟨(), _, rfl, nonce, hb, rfl⟩
  · simp only [if_neg hs, asks_signAndSend_sign, List.nil_append]

/-- **The gate.** The signer is asked for `tx` exactly when the sanity checks passed, every op
got through its turn and `tx` is the transaction built from them on the nonce just read. -/
theorem asks_sign_iff {ops : List UserOpV07} {tx : TxEip1559} :
    Asks (buildInner A b ops opts) t (.signEip1559 tx) ↔
      sanity b ops opts = .ok () ∧ ∃ (s : Settled b ops) (nonce : U64),
        buildTx b (s.prepared A) nonce = .ok tx ∧
        t = s.events A ++ (lockEvents opts ++ [nonceRead b nonce]) := by
  rw [buildInner, asks_bind]
  constructor
  · rintro (h | ⟨_, t, _, rfl, h1, h⟩)
    · exact absurd h asks_orErr
    obtain ⟨rfl, hsan⟩ := run_orErr_ok.1 h1
    refine ⟨hsan, ?_⟩
    rcases asks_bind.1 h with h | ⟨_, t, p, rfl, h2, h⟩
    · exact absurd (only_prepare.asks h) id
    obtain ⟨s, rfl, rfl⟩ := run_prepare_ok.1 h2
    rcases asks_bind.1 h with h | ⟨_, t, stx, rfl, h3, h⟩
    · obtain ⟨nonce, hb, rfl⟩ := asks_signed_sign.1 h
      exact ⟨s, nonce, hb, rfl⟩
    rcases asks_bind.1 h with h | ⟨_, _, _, rfl, -, h⟩
    · rcases asks_awaitReceipt h with h | h <;> cases h
    · exact absurd h asks_ret
  · rintro ⟨hsan, s, nonce, hb, rfl⟩
    refine Or.inr ⟨[], _, (), rfl, run_orErr_ok.2 ⟨rfl, hsan⟩, asks_bind.2 (Or.inr ?_)⟩
    refine ⟨_, _, _, rfl, run_prepare_ok.2 ⟨s, rfl, rfl⟩, asks_bind.2 (Or.inl ?_)⟩
    exact asks_signed_sign.2 ⟨nonce, hb, rfl⟩

/-- The receipt's events: none in sign-only mode. -/
def receiptEvents (opts : BuildOpts) (hash : B256) (receipt : ReceiptInfo) : BundlerTrace :=
  if opts.submit then [⟨.rpc (.waitForReceipt hash RECEIPT_TIMEOUT), .ok (some receipt)⟩] else []

/-- **A successful call**, event by event. -/
theorem run_buildInner_ok {ops : List UserOpV07} {resp : SignedTxResp}
    (h : Run (buildInner A b ops opts) t (.ok resp)) :
    ∃ (s : Settled b ops) (nonce : U64) (env : TxEnvelope) (submitted : B256) (receipt : ReceiptInfo),
      buildTx b (s.prepared A) nonce = .ok env.tx ∧
      resp = response b (s.prepared A) (.of A env) ∧
      t = s.events A ++ (guardEvents opts (nonceRead b nonce :: signedWith env ::
        broadcastEvents opts (A.encoded2718 env) submitted) ++ receiptEvents opts (A.txHash env) receipt) := by
  rw [buildInner, run_bind_ok] at h
  obtain ⟨_, t, _, rfl, h1, h5⟩ := h
  obtain ⟨rfl, -⟩ := run_orErr_ok.1 h1
  obtain ⟨_, t, p, rfl, h2, h6⟩ := run_bind_ok.1 h5
  obtain ⟨s, rfl, rfl⟩ := run_prepare_ok.1 h2
  obtain ⟨_, t, tx, rfl, h3, h7⟩ := run_bind_ok.1 h6
  obtain ⟨u, rfl, hu⟩ := run_signed.1 h3
  obtain ⟨nonce, env, submitted, hb, rfl, rfl, -⟩ := run_signAndSend_ok.1 hu
  obtain ⟨t₁, t₂, _, rfl, h4, h8⟩ := run_bind_ok.1 h7
  simp only [Prog.pure_eq, run_ret, Except.ok.injEq] at h8
  obtain ⟨rfl, rfl⟩ := h8
  rcases run_awaitReceipt_ok.1 h4 with ⟨hs, rfl⟩ | ⟨hs, receipt, -, rfl⟩
  · refine ⟨s, nonce, env, submitted, ⟨A.txHash env, 0, true⟩, hb, rfl, ?_⟩
    simp [receiptEvents, hs, SignedTx.of]
  · refine ⟨s, nonce, env, submitted, receipt, hb, rfl, ?_⟩
    simp [receiptEvents, hs, SignedTx.of]

end EtheraBundler

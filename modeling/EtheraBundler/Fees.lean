import Mathlib.Order.Bounds.Basic
import EtheraBundler.Mock
import EtheraBundler.PackingProofs
import EtheraBundler.Pipeline
/-!
# The outer fees

The outer fee cap is the least cap of the batch and the outer tip is the policy tip stopped at
the least tip of the batch; the two minima may come from different ops. They fit the
transaction's 128-bit fields only because packing bounded every op's fees, and the saturating
`base_fee + tip` is exact for the same reason.

* `foldl_updateMin` — the loop's running minimum is the least element.
* `Settled.base_add_tip_le` — the cap covers base fee and tip in exact arithmetic.
* `buildInner_exits` — neither `expect` nor a 128-bit conversion can fail, in any build.
* `outerFees_sound` — **outer-fee soundness**, end to end.
-/

namespace EtheraBundler

open BigEndian Interact Saturating

/-! ## The running minimum -/

theorem foldl_updateMin_some (l : List U256) (c : U256) : ∃ m, l.foldl updateMin (some c) = some m ∧
    (m = c ∨ m ∈ l) ∧ m.toNat ≤ c.toNat ∧ ∀ v ∈ l, m.toNat ≤ v.toNat := by
  induction l generalizing c with
  | nil => exact ⟨c, rfl, Or.inl rfl, Nat.le_refl _, by simp⟩
  | cons x l ih =>
    rw [List.foldl_cons]
    by_cases h : c ≤ x
    · have hx : updateMin (some c) x = some c := if_pos h
      obtain ⟨m, h1, h2, h3, h4⟩ := ih c
      refine ⟨m, by rw [hx]; exact h1, ?_, h3, ?_⟩
      · rcases h2 with h2 | h2
        · exact Or.inl h2
        · exact Or.inr (List.mem_cons_of_mem _ h2)
      · intro v hv
        rcases List.mem_cons.1 hv with rfl | hv
        · exact Nat.le_trans h3 h
        · exact h4 v hv
    · have hx : updateMin (some c) x = some x := if_neg h
      obtain ⟨m, h1, h2, h3, h4⟩ := ih x
      have hcx : x.toNat ≤ c.toNat := Nat.le_of_lt (BitVec.not_le.1 h)
      refine ⟨m, by rw [hx]; exact h1, ?_, Nat.le_trans h3 hcx, ?_⟩
      · rcases h2 with rfl | h2
        · exact Or.inr List.mem_cons_self
        · exact Or.inr (List.mem_cons_of_mem _ h2)
      · intro v hv
        rcases List.mem_cons.1 hv with rfl | hv
        · exact h3
        · exact h4 v hv

/-- The slot after a non-empty batch holds its least element. -/
theorem foldl_updateMin {l : List U256} (hne : l ≠ []) :
    ∃ m ∈ l, l.foldl updateMin none = some m ∧ ∀ v ∈ l, m.toNat ≤ v.toNat := by
  rcases l with - | ⟨x, l⟩
  · exact absurd rfl hne
  obtain ⟨m, h1, h2, h3, h4⟩ := foldl_updateMin_some l x
  refine ⟨m, List.mem_cons.2 h2, h1, ?_⟩
  intro v hv
  rcases List.mem_cons.1 hv with rfl | hv
  · exact h3
  · exact h4 v hv

/-- The values a field of the ops takes over the batch. -/
def batchValues (field : UserOpV07 → U256) (ops : List UserOpV07) : Set Nat :=
  {v | ∃ op ∈ ops, (field op).toNat = v}

theorem foldl_updateMin_isLeast {field : UserOpV07 → U256} {ops : List UserOpV07} {m : U256}
    (h : (ops.map field).foldl updateMin none = some m) : IsLeast (batchValues field ops) m.toNat := by
  have hne : ops.map field ≠ [] := by
    intro hnil
    rw [hnil] at h
    cases h
  obtain ⟨m', hm, h1, h2⟩ := foldl_updateMin hne
  rw [h, Option.some.injEq] at h1
  subst h1
  obtain ⟨op, hop, rfl⟩ := List.mem_map.1 hm
  refine ⟨⟨op, hop, rfl⟩, ?_⟩
  rintro v ⟨op', hop', rfl⟩
  exact h2 _ (List.mem_map_of_mem hop')

theorem toNat_minU256 (x y : U256) : (minU256 x y).toNat = min x.toNat y.toNat := by
  unfold minU256
  by_cases h : x ≤ y
  · rw [if_pos h, Nat.min_eq_left (BitVec.le_def.1 h)]
  · rw [if_neg h, Nat.min_eq_right (Nat.le_of_lt (BitVec.not_le.1 h))]

theorem toNat_maxU256 (x y : U256) : (maxU256 x y).toNat = max x.toNat y.toNat := by
  unfold maxU256
  by_cases h : x ≥ y
  · rw [if_pos h, Nat.max_eq_left (BitVec.le_def.1 h)]
  · rw [if_neg h, Nat.max_eq_right (Nat.le_of_lt (BitVec.not_le.1 h))]

/-- What `choose_outer_fees` accepts and returns. -/
theorem chooseOuterFees_ok {b : Bundler} {baseFee suggested minTip minCap : U256} {r : U256 × U256} :
    chooseOuterFees b baseFee suggested minTip minCap = .ok r ↔
      r = (minU256 (maxU256 b.cfg.minPriorityFeeWei suggested) minTip, minCap) ∧
      satAdd baseFee (minU256 (maxU256 b.cfg.minPriorityFeeWei suggested) minTip) ≤ minCap := by
  unfold chooseOuterFees
  simp only
  by_cases h : minCap < satAdd baseFee (minU256 (maxU256 b.cfg.minPriorityFeeWei suggested) minTip)
  · rw [if_pos h]
    exact ⟨fun e => (by cases e), fun e => absurd h (BitVec.not_lt.2 e.2)⟩
  · rw [if_neg h, Except.ok.injEq]
    exact ⟨fun e => ⟨e.symm, BitVec.not_lt.1 h⟩, fun e => e.1.symm⟩

/-! ## Facts about a settled batch -/

namespace Settled

variable {A : Alloy} {b : Bundler} {ops : List UserOpV07} (s : Settled b ops)

include s in
theorem exists_checked {op : UserOpV07} (h : op ∈ ops) : ∃ c ∈ s.checked, c.op = op := by
  have h' := h
  rw [← s.ops_eq] at h'
  exact List.mem_map.1 h'

include s in
theorem packable {op : UserOpV07} (h : op ∈ ops) : Packable op := by
  obtain ⟨c, -, rfl⟩ := s.exists_checked h
  exact (pack_ok.1 c.pack_eq).1

theorem feesOk {op : UserOpV07} (h : op ∈ ops) : FeesOk b op s.baseFee := by
  obtain ⟨c, -, rfl⟩ := s.exists_checked h
  exact c.fees_ok

theorem minUserTip_isLeast :
    IsLeast (batchValues (·.maxPriorityFeePerGas) ops) s.minUserTip.toNat :=
  foldl_updateMin_isLeast s.minUserTip_eq

theorem outerFeeCap_isLeast : IsLeast (batchValues (·.maxFeePerGas) ops) s.outerFeeCap.toNat := by
  have h := (chooseOuterFees_ok.1 s.fees_eq).1
  rw [Prod.mk.injEq] at h
  rw [h.2]
  exact foldl_updateMin_isLeast s.minUserFeeCap_eq

theorem outerTip_eq :
    s.outerTip.toNat = min (max b.cfg.minPriorityFeeWei.toNat s.suggestedTip.toNat) s.minUserTip.toNat := by
  have h := (chooseOuterFees_ok.1 s.fees_eq).1
  rw [Prod.mk.injEq] at h
  rw [h.1, toNat_minU256, toNat_maxU256]

theorem outerFeeCap_lt : s.outerFeeCap.toNat < 2 ^ 128 := by
  obtain ⟨op, hop, heq⟩ := s.outerFeeCap_isLeast.1
  rw [← heq]
  exact (s.packable hop).maxFeePerGas

theorem outerTip_lt : s.outerTip.toNat < 2 ^ 128 := by
  obtain ⟨op, hop, heq⟩ := s.minUserTip_isLeast.1
  simp only at heq
  have hlt := (s.packable hop).maxPriorityFeePerGas
  have htip : s.outerTip.toNat ≤ s.minUserTip.toNat := by
    rw [s.outerTip_eq]
    exact Nat.min_le_right _ _
  omega

theorem min_le_outerTip : b.cfg.minPriorityFeeWei.toNat ≤ s.outerTip.toNat := by
  obtain ⟨op, hop, heq⟩ := s.minUserTip_isLeast.1
  simp only at heq
  have hmin : b.cfg.minPriorityFeeWei.toNat ≤ op.maxPriorityFeePerGas.toNat :=
    BitVec.le_def.1 (s.feesOk hop).min_le_tip
  rw [s.outerTip_eq]
  exact Nat.le_min.2 ⟨Nat.le_max_left _ _, by omega⟩

/-- The saturating sum is exact here: a cap below `2 ^ 128` cannot cover a saturated one. -/
theorem base_add_tip_le : s.baseFee.toNat + s.outerTip.toNat ≤ s.outerFeeCap.toNat := by
  obtain ⟨heq, hle⟩ := chooseOuterFees_ok.1 s.fees_eq
  rw [Prod.mk.injEq] at heq
  rw [← heq.1, ← heq.2, BitVec.le_def, toNat_satAdd] at hle
  have hlt := s.outerFeeCap_lt
  exact le_of_cap_le hle (Nat.lt_trans hlt (by decide))

end Settled

/-! ## What cannot fail -/

/-- The exits `build_inner` can have. `Cancelled` is `select!`'s alone (`bundler.rs:103`), and of
the `InvalidUserOp`s and the panics one each. -/
def Exit.Raised : Exit → Prop
  | .err .cancelled => False
  | .err (.invalidUserOp _ reason) => reason = "maxPriorityFeePerGas > maxFeePerGas"
  | .err _ => True
  | .panic p => p ≠ .nonEmptyBatch

variable {A : Alloy} {b : Bundler} {ops : List UserOpV07} {opts : BuildOpts} {baseFee : U256} {nowUnix : U64}

theorem failsWith_orErr {ε α : Type} {conv : ε → BundlerError} {r : Except ε α}
    (h : ∀ e, r = .error e → (Exit.err (conv e)).Raised) : FailsWith Exit.Raised (orErr conv r) := by
  intro t e he
  obtain ⟨-, x, hr, rfl⟩ := run_orErr_error.1 he
  exact h x hr

theorem failsWith_rpc {q : Query} : FailsWith Exit.Raised (rpc q) := by
  intro t e he
  obtain ⟨pe, rfl, -⟩ := run_await_error.1 he
  trivial

theorem failsWith_checkOp {i : Nat} {acc : LoopAcc} {op : UserOpV07} :
    FailsWith Exit.Raised (checkOp b baseFee nowUnix i acc op) := by
  unfold checkOp
  refine FailsWith.bind (failsWith_orErr fun e he => ?_) fun _ _ _ => ?_
  · unfold checkPerOpFees at he
    by_cases h1 : op.maxPriorityFeePerGas > op.maxFeePerGas
    · rw [if_pos h1] at he
      cases he
      rfl
    by_cases h2 : op.maxPriorityFeePerGas < b.cfg.minPriorityFeeWei
    · rw [if_neg h1, if_pos h2] at he
      cases he
      trivial
    rw [if_neg h1, if_neg h2] at he
    simp only at he
    split at he
    · cases he
      trivial
    · cases he
  refine FailsWith.bind (failsWith_orErr fun e _ => trivial) fun _ _ _ => ?_
  refine FailsWith.bind ?_ fun _ _ _ => ?_
  · refine FailsWith.bind (failsWith_orErr fun e _ => trivial) fun _ _ _ => ?_
    exact FailsWith.bind failsWith_rpc fun _ _ _ => failsWith_failIf (trivial)
  refine FailsWith.bind (FailsWith.mapFail fun t e _ => trivial) fun _ _ _ => ?_
  exact FailsWith.bind failsWith_rpc fun _ _ _ => failsWith_ret

theorem failsWith_opLoop : ∀ {ops : List UserOpV07} {i : Nat} {acc : LoopAcc},
    FailsWith Exit.Raised (opLoop b baseFee nowUnix i acc ops)
  | [], _, _ => failsWith_ret
  | _ :: _, _, _ => FailsWith.bind failsWith_checkOp fun _ _ _ => failsWith_opLoop

theorem failsWith_expectNonEmpty {slot : Option U256} (h : slot ≠ none) :
    FailsWith Exit.Raised (orPanic (expectNonEmpty slot)) := by
  intro t e he
  obtain ⟨-, p, hp, -⟩ := run_orPanic_error.1 he
  rcases slot with - | v
  · exact absurd rfl h
  · cases hp

/-- The batch is not empty, so the loop filled both slots. -/
theorem failsWith_prepare (hne : ops ≠ []) : FailsWith Exit.Raised (prepare A b ops) := by
  unfold prepare
  refine FailsWith.bind failsWith_rpc fun _ baseFee _ => FailsWith.bind failsWith_rpc fun _ _ _ => ?_
  refine FailsWith.bind ?_ fun _ nowUnix _ => FailsWith.bind failsWith_opLoop fun t acc hloop => ?_
  · intro t e he
    obtain ⟨_, -, h⟩ := run_unixNow.1 he
    cases h
  obtain ⟨cs, rfl, -, rfl⟩ := run_opLoop_ok.1 hloop
  have hslot (field : UserOpV07 → U256) : (cs.map (field ·.op)).foldl updateMin none ≠ none := by
    have hcs : cs.map (field ·.op) ≠ [] := by
      intro hnil
      rw [List.map_eq_nil_iff] at hnil
      exact hne (by rw [hnil]; rfl)
    obtain ⟨m, -, hm, -⟩ := foldl_updateMin hcs
    rw [hm]
    simp
  refine FailsWith.bind failsWith_rpc fun _ estimated _ => FailsWith.bind ?_ fun _ _ _ => ?_
  · intro t e he
    obtain ⟨-, p, hp, rfl⟩ := run_orPanic_error.1 he
    unfold gasWithMargin at hp
    simp only at hp
    split at hp
    · cases hp
      exact Panic.noConfusion
    · cases hp
  refine FailsWith.bind (failsWith_expectNonEmpty ?_) fun _ _ _ => ?_
  · rw [foldl_pushTo_minUserTip]
    exact hslot (·.maxPriorityFeePerGas)
  refine FailsWith.bind (failsWith_expectNonEmpty ?_) fun _ _ _ => ?_
  · rw [foldl_pushTo_minUserFeeCap]
    exact hslot (·.maxFeePerGas)
  refine FailsWith.bind (failsWith_orErr fun e he => ?_) fun _ _ _ => failsWith_ret
  unfold chooseOuterFees at he
  simp only at he
  split at he
  · cases he
    trivial
  · cases he

theorem u128FromU256_of_lt {v : U256} {field : String} (h : v.toNat < 2 ^ 128) :
    u128FromU256 v field = .ok (v.setWidth 128) := if_pos h

/-- What `build_inner` signs once the checks are through. -/
theorem buildTx_ok (s : Settled b ops) (nonce : U64) : buildTx b (s.prepared A) nonce = .ok
    { chainId := b.cfg.chainId, nonce := nonce, gasLimit := s.gas
      maxFeePerGas := s.outerFeeCap.setWidth 128, maxPriorityFeePerGas := s.outerTip.setWidth 128
      «to» := .call b.cfg.entrypointAddress, value := 0, accessList := [], input := s.callData A } := by
  unfold buildTx
  simp only [Settled.prepared, u128FromU256_of_lt s.outerFeeCap_lt, u128FromU256_of_lt s.outerTip_lt]
  rfl

theorem failsWith_signAndSend (s : Settled b ops) :
    FailsWith Exit.Raised (signAndSend A b opts (s.prepared A)) := by
  unfold signAndSend
  refine FailsWith.bind failsWith_rpc fun _ nonce _ => FailsWith.bind (failsWith_orErr ?_) fun _ tx _ => ?_
  · intro e he
    rw [buildTx_ok s] at he
    cases he
  refine FailsWith.bind ?_ fun _ env _ => FailsWith.bind ?_ fun _ _ _ => failsWith_ret
  · intro t e he
    obtain ⟨se, rfl, -⟩ := run_signEip1559_error.1 he
    trivial
  unfold broadcast
  by_cases hs : opts.submit = true
  · rw [if_pos hs]
    exact FailsWith.bind failsWith_rpc fun _ _ _ => failsWith_failIf Panic.noConfusion
  · rw [if_neg hs]
    exact failsWith_ret

theorem failsWith_sanity : FailsWith Exit.Raised (orErr id (sanity b ops opts)) := by
  refine failsWith_orErr fun e he => ?_
  unfold sanity at he
  split at he
  · cases he
    trivial
  split at he
  · cases he
    trivial
  split at he
  · cases he
    trivial
  · cases he

/-- The sanity checks turn the empty batch away. -/
theorem ne_nil_of_sanity (h : sanity b ops opts = .ok ()) : ops ≠ [] := by
  rintro rfl
  unfold sanity at h
  split at h
  · cases h
  · cases h

theorem failsWith_awaitReceipt {callData : Bytes} {hash : B256} :
    FailsWith Exit.Raised (awaitReceipt A b opts callData hash) := by
  have hfail (e : Exit) (he : e.Raised) : FailsWith Exit.Raised (.fail e : M Unit) := by
    intro t e' h
    obtain ⟨-, h⟩ := run_fail.1 h
    cases h
    exact he
  unfold awaitReceipt
  by_cases hs : opts.submit = true
  · rw [if_pos hs]
    refine FailsWith.bind failsWith_rpc fun _ receipt _ => ?_
    rcases receipt with - | receipt
    · exact hfail _ trivial
    simp only
    by_cases hr : receipt.success = true
    · rw [if_pos hr]
      exact failsWith_ret
    · rw [if_neg hr]
      exact FailsWith.bind failsWith_rpc fun _ data _ => hfail _ trivial
  · rw [if_neg hs]
    exact failsWith_ret

/-- **The exits of a call**: neither `expect` nor a 128-bit conversion fails, in any build. -/
theorem buildInner_exits : FailsWith Exit.Raised (buildInner A b ops opts) := by
  unfold buildInner
  refine FailsWith.bind failsWith_sanity fun _ _ hsan => ?_
  refine FailsWith.bind (failsWith_prepare (ne_nil_of_sanity (run_orErr_ok.1 hsan).2)) fun _ p hp => ?_
  obtain ⟨s, rfl, rfl⟩ := run_prepare_ok.1 hp
  refine FailsWith.bind ?_ fun _ tx _ => FailsWith.bind failsWith_awaitReceipt fun _ _ _ => failsWith_ret
  unfold signed
  by_cases hs : opts.submit = true
  · rw [if_pos hs]
    exact FailsWith.withGuard (failsWith_signAndSend s)
  · rw [if_neg hs]
    exact failsWith_signAndSend s

theorem not_raised_exceedsU128 {field : String}
    (h : field ++ " exceeds u128" ≠ "maxPriorityFeePerGas > maxFeePerGas") :
    ¬ (Exit.err (exceedsU128Error field)).Raised := h

/-! ## Soundness -/

/-- What the outer fees of a signed transaction owe to the batch. -/
structure OuterFeesSound (b : Bundler) (ops : List UserOpV07) (baseFee suggestedTip : U256)
    (tx : TxEip1559) : Prop where
  feeCap_isLeast : IsLeast (batchValues (·.maxFeePerGas) ops) tx.maxFeePerGas.toNat
  tip_eq : ∃ minTip, IsLeast (batchValues (·.maxPriorityFeePerGas) ops) minTip ∧
    tx.maxPriorityFeePerGas.toNat = min (max b.cfg.minPriorityFeeWei.toNat suggestedTip.toNat) minTip
  min_le_tip : b.cfg.minPriorityFeeWei.toNat ≤ tx.maxPriorityFeePerGas.toNat
  tip_le_feeCap : tx.maxPriorityFeePerGas.toNat ≤ tx.maxFeePerGas.toNat
  base_add_tip_le : baseFee.toNat + tx.maxPriorityFeePerGas.toNat ≤ tx.maxFeePerGas.toNat
  /-- What the sequencer pays at a base fee `base` is at most what each op pays back. -/
  price_le : ∀ op ∈ ops, ∀ base : Nat,
    min tx.maxFeePerGas.toNat (base + tx.maxPriorityFeePerGas.toNat) ≤
      min op.maxFeePerGas.toNat (base + op.maxPriorityFeePerGas.toNat)

theorem Settled.outerFeesSound (s : Settled b ops) {nonce : U64} {tx : TxEip1559}
    (h : buildTx b (s.prepared A) nonce = .ok tx) : OuterFeesSound b ops s.baseFee s.suggestedTip tx := by
  rw [buildTx_ok s, Except.ok.injEq] at h
  subst h
  have hcap : (s.outerFeeCap.setWidth 128).toNat = s.outerFeeCap.toNat := by
    rw [BitVec.toNat_setWidth, Nat.mod_eq_of_lt s.outerFeeCap_lt]
  have htip : (s.outerTip.setWidth 128).toNat = s.outerTip.toNat := by
    rw [BitVec.toNat_setWidth, Nat.mod_eq_of_lt s.outerTip_lt]
  have hsum := s.base_add_tip_le
  refine ⟨?_, ⟨_, s.minUserTip_isLeast, ?_⟩, ?_, ?_, ?_, ?_⟩
  · rw [hcap]
    exact s.outerFeeCap_isLeast
  · rw [htip]
    exact s.outerTip_eq
  · rw [htip]
    exact s.min_le_outerTip
  · rw [hcap, htip]
    omega
  · rw [hcap, htip]
    exact hsum
  · intro op hop base
    have h1 : s.outerFeeCap.toNat ≤ op.maxFeePerGas.toNat := s.outerFeeCap_isLeast.2 ⟨op, hop, rfl⟩
    have h2 : s.minUserTip.toNat ≤ op.maxPriorityFeePerGas.toNat := s.minUserTip_isLeast.2 ⟨op, hop, rfl⟩
    have h3 : s.outerTip.toNat ≤ s.minUserTip.toNat := by
      rw [s.outerTip_eq]
      exact Nat.min_le_right _ _
    rw [hcap, htip]
    omega

/-- A check asks nothing but the deposit, the simulation and the hash. -/
theorem CheckedOp.mem_events {c : CheckedOp b baseFee nowUnix} {e : Event Op Op.Ans} (h : e ∈ c.events) :
    e.1 ≠ .rpc .baseFee ∧ e.1 ≠ .rpc .maxPriorityFee := by
  simp only [CheckedOp.events, List.mem_cons, List.not_mem_nil, or_false] at h
  rcases h with rfl | rfl | rfl <;> simp

/-- What a call asks between reading the clock and the signature. -/
def Settled.afterClock (A : Alloy) (opts : BuildOpts) (s : Settled b ops) (nonce : U64) : BundlerTrace :=
  s.checked.flatMap (·.events) ++
    [⟨.rpc (.estimateHandleOpsGas b.signerAddress b.cfg.entrypointAddress (s.callData A)), .ok s.estimated⟩] ++
    (lockEvents opts ++ [nonceRead b nonce])

theorem Settled.mem_afterClock {s : Settled b ops} {nonce : U64} {e : Event Op Op.Ans}
    (h : e ∈ s.afterClock A opts nonce) : e.1 ≠ .rpc .baseFee ∧ e.1 ≠ .rpc .maxPriorityFee := by
  simp only [Settled.afterClock, List.mem_append, List.mem_flatMap, List.mem_singleton] at h
  rcases h with (⟨c, -, hc⟩ | rfl) | h | rfl
  · exact CheckedOp.mem_events hc
  · simp
  · unfold lockEvents at h
    split at h
    · rw [List.mem_singleton.1 h]
      simp
    · cases h
  · simp

/-- The base fee and the suggested tip are read once each. -/
theorem Settled.mem_fee_reads {s : Settled b ops} {nonce : U64} {t : BundlerTrace}
    (ht : t = s.events A ++ (lockEvents opts ++ [nonceRead b nonce])) :
    (∀ x, ⟨.rpc .baseFee, x⟩ ∈ t ↔ x = .ok s.baseFee) ∧
      ∀ x, ⟨.rpc .maxPriorityFee, x⟩ ∈ t ↔ x = .ok s.suggestedTip := by
  have hsplit : t = [⟨.rpc .baseFee, .ok s.baseFee⟩, ⟨.rpc .maxPriorityFee, .ok s.suggestedTip⟩,
      ⟨.sinceEpoch, s.clock⟩] ++ s.afterClock A opts nonce := by
    rw [ht, Settled.events, Settled.afterClock]
    simp only [List.append_assoc]
  rw [hsplit]
  refine ⟨fun x => ?_, fun x => ?_⟩
  · have hrest : (⟨.rpc .baseFee, x⟩ : Event Op Op.Ans) ∉ s.afterClock A opts nonce :=
      fun h => (Settled.mem_afterClock h).1 rfl
    simp [hrest]
  · have hrest : (⟨.rpc .maxPriorityFee, x⟩ : Event Op Op.Ans) ∉ s.afterClock A opts nonce :=
      fun h => (Settled.mem_afterClock h).2 rfl
    simp [hrest]

/-- **Outer-fee soundness.** Whatever the provider answers, a transaction handed to the signer
has sound fees with respect to the one base fee and suggested tip read in the call; and no run
ends in one of the three failures held for impossible. -/
theorem outerFees_sound (A : Alloy) (b : Bundler) (ops : List UserOpV07) (opts : BuildOpts) :
    (∀ t tx, Asks (buildInner A b ops opts) t (.signEip1559 tx) → ∃ baseFee suggestedTip,
      (∀ x, ⟨.rpc .baseFee, x⟩ ∈ t ↔ x = .ok baseFee) ∧
      (∀ x, ⟨.rpc .maxPriorityFee, x⟩ ∈ t ↔ x = .ok suggestedTip) ∧
      OuterFeesSound b ops baseFee suggestedTip tx) ∧
    ∀ t r, Run (buildInner A b ops opts) t r → r ≠ .error (.panic .nonEmptyBatch) ∧
      r ≠ .error (.err (exceedsU128Error "outer maxFeePerGas")) ∧
      r ≠ .error (.err (exceedsU128Error "outer maxPriorityFeePerGas")) := by
  refine ⟨fun t tx h => ?_, fun t r h => ?_⟩
  · obtain ⟨-, s, nonce, hb, ht⟩ := asks_sign_iff.1 h
    obtain ⟨h1, h2⟩ := Settled.mem_fee_reads ht
    exact ⟨s.baseFee, s.suggestedTip, h1, h2, s.outerFeesSound hb⟩
  · rcases r with e | resp
    · have hx := buildInner_exits t e h
      refine ⟨?_, ?_, ?_⟩ <;> intro he <;> cases he
      · exact hx rfl
      · exact not_raised_exceedsU128 (by decide) hx
      · exact not_raised_exceedsU128 (by decide) hx
    · simp

/-- Two ops are signed for: the fee cap is the second's, the least tip the first's. -/
theorem outerFees_sound_twoOps : ∃ t tx, Asks (buildInner alloy testBundler twoOps submitOpts) t (.signEip1559 tx) ∧
    OuterFeesSound testBundler twoOps 1000000000 1000000000 tx ∧ tx.maxFeePerGas.toNat = 4000000000 := by
  obtain ⟨t, o, ho, h, hmem⟩ := exec_asks mockAnswer (buildInner alloy testBundler twoOps submitOpts) Op.isSign
    (by decide)
  cases o with
  | signEip1559 tx =>
    obtain ⟨baseFee, suggestedTip, hb, hs, hsound⟩ :=
      (outerFees_sound alloy testBundler twoOps submitOpts).1 t tx h
    obtain rfl : baseFee = 1000000000 := Except.ok.inj (hmem _ _ ((hb _).2 rfl))
    obtain rfl : suggestedTip = 1000000000 := Except.ok.inj (hmem _ _ ((hs _).2 rfl))
    have hleast : IsLeast (batchValues (·.maxFeePerGas) twoOps) 4000000000 := by
      refine ⟨⟨otherOp, by simp [twoOps], rfl⟩, ?_⟩
      rintro _ ⟨op, hop, rfl⟩
      simp only [twoOps, List.mem_cons, List.not_mem_nil, or_false] at hop
      rcases hop with rfl | rfl
      · decide
      · decide
    exact ⟨t, tx, h, hsound, hsound.feeCap_isLeast.unique hleast⟩
  | _ => cases ho

end EtheraBundler

import EtheraBundler.Fees
/-!
# The per-op fee policy against the outer one

Both fee checks of a call compare a fee cap with the one base fee read at its start, under
different tips: `check_per_op_fees` adds the configured minimum (`bundler.rs:272`),
`choose_outer_fees` the chosen tip (`:336`). The chosen tip may be above the minimum, so the
second check can reject a batch the first one accepted, with no network move in between.

* `TipFits` — every cap has room for the suggested tip or for the tip of some op.
* `chooseOuterFees_accepts_iff` — **the second check accepts what the first one did exactly
  when the tips fit.**
* `TipFits.of_ownTip` — they do under the policy of `README.md:101`, where each cap covers the
  op's own tip.
-/

namespace EtheraBundler

open Saturating

variable {b : Bundler} {ops : List UserOpV07} {baseFee suggested minTip minCap : U256}

/-- Every op of the batch passes the per-op policy, at its own index, and packs. -/
def PolicyAccepts (b : Bundler) (baseFee : U256) (ops : List UserOpV07) : Prop :=
  ∀ i op, ops[i]? = some op → checkPerOpFees b i op baseFee = .ok () ∧ ∃ packed, pack op = .ok packed

/-- Every cap has room over the base fee for the suggested tip or for the tip of an op. -/
def TipFits (baseFee suggested : U256) (ops : List UserOpV07) : Prop :=
  ∀ op ∈ ops, baseFee.toNat + suggested.toNat ≤ op.maxFeePerGas.toNat ∨
    ∃ op' ∈ ops, baseFee.toNat + op'.maxPriorityFeePerGas.toNat ≤ op.maxFeePerGas.toNat

/-- A cap that covers the op's own tip has room for a tip of the batch. -/
theorem TipFits.of_ownTip
    (h : ∀ op ∈ ops, baseFee.toNat + op.maxPriorityFeePerGas.toNat ≤ op.maxFeePerGas.toNat) :
    TipFits baseFee suggested ops := fun op hop => Or.inr ⟨op, hop, h op hop⟩

theorem PolicyAccepts.of_mem (h : PolicyAccepts b baseFee ops) {op : UserOpV07} (hop : op ∈ ops) :
    FeesOk b op baseFee ∧ Packable op := by
  obtain ⟨i, hi⟩ := List.mem_iff_getElem?.1 hop
  obtain ⟨hfees, packed, hpack⟩ := h i op hi
  exact ⟨checkPerOpFees_ok_iff.1 hfees, (pack_ok.1 hpack).1⟩

/-- A packed cap is far below the saturated sum, so covering a saturating sum is covering the
exact one. -/
theorem satAdd_le_iff {x y cap : U256} (hcap : cap.toNat < 2 ^ 128) :
    satAdd x y ≤ cap ↔ x.toNat + y.toNat ≤ cap.toNat := by
  rw [BitVec.le_def, toNat_satAdd]
  constructor
  · intro h
    exact le_of_cap_le h (Nat.lt_trans hcap (by decide))
  · intro h
    exact Nat.le_trans (Nat.min_le_right _ _) h

/-- The policy tip fits under the least cap exactly when it fits under every cap. -/
theorem tipFits_iff (hpol : ∀ op ∈ ops, FeesOk b op baseFee ∧ Packable op)
    (htip : IsLeast (batchValues (·.maxPriorityFeePerGas) ops) minTip.toNat)
    (hcap : IsLeast (batchValues (·.maxFeePerGas) ops) minCap.toNat) :
    baseFee.toNat + min (max b.cfg.minPriorityFeeWei.toNat suggested.toNat) minTip.toNat ≤ minCap.toNat ↔
      TipFits baseFee suggested ops := by
  constructor
  · intro h op hop
    have hle : minCap.toNat ≤ op.maxFeePerGas.toNat := hcap.2 ⟨op, hop, rfl⟩
    obtain ⟨op', hop', heq⟩ := htip.1
    simp only at heq
    rcases Nat.le_total (max b.cfg.minPriorityFeeWei.toNat suggested.toNat) minTip.toNat with hs | hs
    · exact Or.inl (by omega)
    · exact Or.inr ⟨op', hop', by omega⟩
  · intro h
    obtain ⟨op, hop, heq⟩ := hcap.1
    simp only at heq
    obtain ⟨hfees, hpack⟩ := hpol op hop
    have hmin := (satAdd_le_iff hpack.maxFeePerGas).1 hfees.cap_covers
    rcases h op hop with hs | ⟨op', hop', hs⟩
    · omega
    · have hle : minTip.toNat ≤ op'.maxPriorityFeePerGas.toNat := htip.2 ⟨op', hop', rfl⟩
      omega

/-- The outer fees of ops that got through the per-op policy and the packer. -/
theorem exists_outerFees_iff (hpol : ∀ op ∈ ops, FeesOk b op baseFee ∧ Packable op)
    (htip : (ops.map (·.maxPriorityFeePerGas)).foldl updateMin none = some minTip)
    (hcap : (ops.map (·.maxFeePerGas)).foldl updateMin none = some minCap) :
    (∃ fees, chooseOuterFees b baseFee suggested minTip minCap = .ok fees) ↔
      TipFits baseFee suggested ops := by
  have hleast := foldl_updateMin_isLeast hcap
  have hlt : minCap.toNat < 2 ^ 128 := by
    obtain ⟨op, hop, heq⟩ := hleast.1
    rw [← heq]
    exact (hpol op hop).2.maxFeePerGas
  rw [← tipFits_iff hpol (foldl_updateMin_isLeast htip) hleast, ← toNat_maxU256, ← toNat_minU256,
    ← satAdd_le_iff hlt]
  constructor
  · rintro ⟨fees, h⟩
    exact (chooseOuterFees_ok.1 h).2
  · intro h
    exact ⟨_, chooseOuterFees_ok.2 ⟨rfl, h⟩⟩

/-- **The two fee checks.** On the minima of a batch that passed the per-op policy,
`choose_outer_fees` accepts exactly when every cap has room for the suggested tip or for the tip
of some op. -/
theorem chooseOuterFees_accepts_iff (hpol : PolicyAccepts b baseFee ops)
    (htip : (ops.map (·.maxPriorityFeePerGas)).foldl updateMin none = some minTip)
    (hcap : (ops.map (·.maxFeePerGas)).foldl updateMin none = some minCap) :
    (∃ fees, chooseOuterFees b baseFee suggested minTip minCap = .ok fees) ↔
      TipFits baseFee suggested ops :=
  exists_outerFees_iff (fun _ hop => hpol.of_mem hop) htip hcap

/-- At a base fee of 1 gwei, a cap and a tip of 2 gwei: the cap covers the base fee and the
configured minimum of 1 gwei, nothing more. -/
def tightOp : UserOpV07 :=
  { happyOp with maxFeePerGas := 2000000000, maxPriorityFeePerGas := 2000000000 }

theorem policyAccepts_tightOp : PolicyAccepts testBundler 1000000000 [tightOp] := by
  intro i op h
  rcases i with - | i
  · cases h
    exact ⟨by decide, _, rfl⟩
  · cases h

/-- Suggesting the minimum is accepted, suggesting 2 gwei is not. -/
theorem chooseOuterFees_accepts_iff_tightOp :
    (∃ fees, chooseOuterFees testBundler 1000000000 1000000000 2000000000 2000000000 = .ok fees) ∧
      ¬ ∃ fees, chooseOuterFees testBundler 1000000000 2000000000 2000000000 2000000000 = .ok fees := by
  refine ⟨(chooseOuterFees_accepts_iff policyAccepts_tightOp rfl rfl).2 ?_, fun h => ?_⟩
  · intro op hop
    rw [List.mem_singleton.1 hop]
    exact Or.inl (by decide)
  · rcases (chooseOuterFees_accepts_iff policyAccepts_tightOp rfl rfl).1 h tightOp (List.mem_singleton.2 rfl)
      with hs | ⟨op', hop', hs⟩
    · exact absurd hs (by decide)
    · rw [List.mem_singleton.1 hop'] at hs
      exact absurd hs (by decide)

/-- A batch the per-op policy accepts and the outer policy rejects, at one base fee. -/
theorem outer_rejects_accepted :
    ¬ ∀ (b : Bundler) (baseFee suggested : U256) (ops : List UserOpV07) (minTip minCap : U256),
      PolicyAccepts b baseFee ops →
      (ops.map (·.maxPriorityFeePerGas)).foldl updateMin none = some minTip →
      (ops.map (·.maxFeePerGas)).foldl updateMin none = some minCap →
      ∃ fees, chooseOuterFees b baseFee suggested minTip minCap = .ok fees := by
  intro h
  obtain ⟨fees, hfees⟩ := h testBundler 1000000000 2000000000 [tightOp] _ _ policyAccepts_tightOp rfl rfl
  have hle := (chooseOuterFees_ok.1 hfees).2
  exact absurd hle (by decide)

end EtheraBundler

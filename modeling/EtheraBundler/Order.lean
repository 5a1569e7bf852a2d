import Mathlib.Data.List.FinRange
import EtheraBundler.Fees
/-!
# The order of the ops in a batch

The per-op loop stops at the first failing op and carries two running minima, but what it
accepts does not depend on where an op stands: a turn reads its op and the chain, never the
accumulators, and a minimum is the same in any order.

* `checkBatch` — the pipeline up to the outer fees, without the gas estimate.
* `exec_opLoop_ok` — against a fixed node the loop accepts exactly the lists of passing ops.
* `foldl_updateMin_perm` — the running minimum of a reordered list.
* `batch_reordered` — **a reordered batch is accepted alike**, with the same outer fees and with
  its packed ops and hashes reordered in the same way.
-/

namespace EtheraBundler

open Interact

/-- What is decided about a batch before the gas estimate, and the outer fees. -/
structure BatchOutcome where
  packedOps : List PackedUserOperation
  userOpHashes : List B256
  outerTip : U256
  outerFeeCap : U256

/-- The loop followed by the outer fees (`bundler.rs:129-161`, `:177-182`). -/
def checkBatch (b : Bundler) (ops : List UserOpV07) : M BatchOutcome := do
  let baseFee ← rpc .baseFee
  let suggestedTip ← rpc .maxPriorityFee
  let nowUnix ← unixNow
  let acc ← opLoop b baseFee nowUnix 0 .empty ops
  let minUserTip ← orPanic (expectNonEmpty acc.minUserTip)
  let minUserFeeCap ← orPanic (expectNonEmpty acc.minUserFeeCap)
  let fees ← orErr id (chooseOuterFees b baseFee suggestedTip minUserTip minUserFeeCap)
  return ⟨acc.packedOps, acc.userOpHashes, fees.1, fees.2⟩

variable {env : (o : Op) → o.Ans} {b : Bundler} {baseFee : U256} {nowUnix : U64}

/-! ## Against a fixed node -/

theorem exec_rpc_ok {q : Query} {v : q.Val} :
    (exec env (rpc q)).2 = .ok v ↔ env (.rpc q) = .ok v := by
  show (exec env (.ask (.rpc q) _)).2 = .ok v ↔ _
  rw [exec]
  rcases env (.rpc q) with pe | w
  · simp [exec]
  · simp [exec]

theorem exec_unixNow_ok {now : U64} :
    (exec env (unixNow : M U64)).2 = .ok now ↔ (env .sinceEpoch).getD 0 = now := by
  simp [unixNow, exec]

theorem exec_orErr_ok {ε α : Type} {conv : ε → BundlerError} {r : Except ε α} {a : α} :
    (exec env (orErr conv r)).2 = .ok a ↔ r = .ok a := by
  cases r <;> simp [orErr, Except.mapError, exec]

theorem exec_orPanic_ok {α : Type} {r : Except Panic α} {a : α} :
    (exec env (orPanic r)).2 = .ok a ↔ r = .ok a := by
  cases r <;> simp [orPanic, Except.mapError, exec]

theorem answeredBy_flatMap {cs : List (CheckedOp b baseFee nowUnix)} :
    AnsweredBy env (cs.flatMap (·.events)) ↔ ∀ c ∈ cs, AnsweredBy env c.events := by
  constructor
  · intro h c hc o x hx
    exact h o x (List.mem_flatMap.2 ⟨c, hc, hx⟩)
  · intro h o x hx
    obtain ⟨c, hc, hx⟩ := List.mem_flatMap.1 hx
    exact h c hc o x hx

/-- **Against a fixed node** the loop accepts a list exactly when every op of it passes, on the
node's own answers; neither the index nor the accumulators matter. -/
theorem exec_opLoop_ok {ops : List UserOpV07} {i : Nat} {acc acc' : LoopAcc} :
    (exec env (opLoop b baseFee nowUnix i acc ops)).2 = .ok acc' ↔
      ∃ cs : List (CheckedOp b baseFee nowUnix), cs.map (·.op) = ops ∧
        (∀ c ∈ cs, AnsweredBy env c.events) ∧ acc' = cs.foldl CheckedOp.pushTo acc := by
  rw [exec_ok_iff]
  constructor
  · rintro ⟨t, h, ht⟩
    obtain ⟨cs, hops, rfl, hacc⟩ := run_opLoop_ok.1 h
    exact ⟨cs, hops, answeredBy_flatMap.1 ht, hacc⟩
  · rintro ⟨cs, hops, hans, hacc⟩
    exact ⟨_, run_opLoop_ok.2 ⟨cs, hops, rfl, hacc⟩, answeredBy_flatMap.2 hans⟩

/-- What an accepted batch consists of. -/
theorem exec_checkBatch_ok {ops : List UserOpV07} {o : BatchOutcome} :
    (exec env (checkBatch b ops)).2 = .ok o ↔ ∃ baseFee suggestedTip,
      env (.rpc .baseFee) = .ok baseFee ∧ env (.rpc .maxPriorityFee) = .ok suggestedTip ∧
      ∃ cs : List (CheckedOp b baseFee ((env .sinceEpoch).getD 0)), cs.map (·.op) = ops ∧
        (∀ c ∈ cs, AnsweredBy env c.events) ∧
        ∃ minUserTip minUserFeeCap,
          (cs.map (·.op.maxPriorityFeePerGas)).foldl updateMin none = some minUserTip ∧
          (cs.map (·.op.maxFeePerGas)).foldl updateMin none = some minUserFeeCap ∧
          chooseOuterFees b baseFee suggestedTip minUserTip minUserFeeCap = .ok (o.outerTip, o.outerFeeCap) ∧
          o.packedOps = cs.map (·.packed) ∧ o.userOpHashes = cs.map (·.hash) := by
  simp only [checkBatch, exec_bind_ok, exec_unixNow_ok, exec_opLoop_ok, exec_orPanic_ok,
    exec_orErr_ok, expectNonEmpty_ok, Prog.pure_eq, exec, Except.ok.injEq]
  constructor
  · rintro ⟨baseFee, hb, suggestedTip, hs, _, rfl, _, ⟨cs, hops, hans, rfl⟩, tip, ht, cap, hc, fees, hf, rfl⟩
    rw [foldl_pushTo_minUserTip] at ht
    rw [foldl_pushTo_minUserFeeCap] at hc
    refine ⟨baseFee, suggestedTip, exec_rpc_ok.1 hb, exec_rpc_ok.1 hs, cs, hops, hans, tip, cap, ht, hc, hf, ?_, ?_⟩
    · rw [foldl_pushTo_packedOps]; rfl
    · rw [foldl_pushTo_userOpHashes]; rfl
  · rintro ⟨baseFee, suggestedTip, hb, hs, cs, hops, hans, tip, cap, ht, hc, hf, hp, hh⟩
    refine ⟨baseFee, exec_rpc_ok.2 hb, suggestedTip, exec_rpc_ok.2 hs, _, rfl, _, ⟨cs, hops, hans, rfl⟩, tip, ?_,
      cap, ?_, _, hf, ?_⟩
    · rw [foldl_pushTo_minUserTip]; exact ht
    · rw [foldl_pushTo_minUserFeeCap]; exact hc
    · rw [foldl_pushTo_packedOps, foldl_pushTo_userOpHashes, ← hp, ← hh]; rfl

/-- `checkBatch` is `prepare` without the gas estimate. -/
theorem exec_prepare_ok {A : Alloy} {ops : List UserOpV07} {p : Prepared} :
    (exec env (prepare A b ops)).2 = .ok p ↔ ∃ (o : BatchOutcome) (estimated gas : U64),
      (exec env (checkBatch b ops)).2 = .ok o ∧
      env (.rpc (.estimateHandleOpsGas b.signerAddress b.cfg.entrypointAddress
        (A.handleOpsAbiEncode o.packedOps b.signerAddress))) = .ok estimated ∧
      gasWithMargin b estimated = .ok gas ∧
      p = ⟨A.handleOpsAbiEncode o.packedOps b.signerAddress, gas, o.outerTip, o.outerFeeCap, o.userOpHashes⟩ := by
  simp only [prepare, checkBatch, exec_bind_ok, exec_orPanic_ok, exec_orErr_ok, Prog.pure_eq, exec,
    Except.ok.injEq]
  constructor
  · rintro ⟨baseFee, hb, suggestedTip, hs, now, hn, acc, hacc, estimated, he, gas, hg, tip, ht, cap, hc, fees, hf, rfl⟩
    exact ⟨_, estimated, gas, ⟨baseFee, hb, suggestedTip, hs, now, hn, acc, hacc, tip, ht, cap, hc, fees, hf, rfl⟩,
      exec_rpc_ok.1 he, hg, rfl⟩
  · rintro ⟨_, estimated, gas, ⟨baseFee, hb, suggestedTip, hs, now, hn, acc, hacc, tip, ht, cap, hc, fees, hf, rfl⟩,
      he, hg, rfl⟩
    exact ⟨baseFee, hb, suggestedTip, hs, now, hn, acc, hacc, estimated, exec_rpc_ok.2 he, gas, hg, tip, ht, cap, hc,
      fees, hf, rfl⟩

/-! ## Reordering -/

/-- The least element does not depend on the order. -/
theorem foldl_updateMin_perm {l l' : List U256} (h : l.Perm l') :
    l.foldl updateMin none = l'.foldl updateMin none := by
  rcases l with - | ⟨x, l⟩
  · rw [h.nil_eq]
  have hne : x :: l ≠ [] := List.cons_ne_nil x l
  have hne' : l' ≠ [] := by
    rintro rfl
    exact hne h.eq_nil
  obtain ⟨m, hm, hfold, hle⟩ := foldl_updateMin hne
  obtain ⟨m', hm', hfold', hle'⟩ := foldl_updateMin hne'
  have h1 : m.toNat ≤ m'.toNat := hle m' (h.mem_iff.2 hm')
  have h2 : m'.toNat ≤ m.toNat := hle' m (h.mem_iff.1 hm)
  have heq : m = m' := BitVec.eq_of_toNat_eq (by omega)
  rw [hfold, hfold', heq]

theorem exists_ofFn {α : Type} {l : List α} {n : Nat} (h : l.length = n) : ∃ f : Fin n → α, l = List.ofFn f := by
  subst h
  exact ⟨l.get, (List.ofFn_get l).symm⟩

/-- The checks of an accepted batch, in the order of its ops. -/
theorem exists_checks {n : Nat} {ops : Fin n → UserOpV07} {cs : List (CheckedOp b baseFee nowUnix)}
    (h : cs.map (·.op) = List.ofFn ops) :
    ∃ c : Fin n → CheckedOp b baseFee nowUnix, cs = List.ofFn c ∧ ∀ i, (c i).op = ops i := by
  have hlen : cs.length = n := by
    have := congrArg List.length h
    simpa using this
  obtain ⟨c, rfl⟩ := exists_ofFn hlen
  refine ⟨c, rfl, fun i => ?_⟩
  rw [List.map_ofFn] at h
  exact congrFun (List.ofFn_injective h) i

/-- The checks of the ops in one order are checks of them in any other. -/
theorem checkBatch_reorder {n : Nat} {ops : Fin n → UserOpV07} (σ : Equiv.Perm (Fin n)) {o : BatchOutcome}
    (h : (exec env (checkBatch b (List.ofFn ops))).2 = .ok o) :
    ∃ (packed : Fin n → PackedUserOperation) (hashes : Fin n → B256),
      o.packedOps = List.ofFn packed ∧ o.userOpHashes = List.ofFn hashes ∧
      (exec env (checkBatch b (List.ofFn (ops ∘ σ)))).2 =
        .ok ⟨List.ofFn (packed ∘ σ), List.ofFn (hashes ∘ σ), o.outerTip, o.outerFeeCap⟩ := by
  obtain ⟨baseFee, suggestedTip, hb, hs, cs, hops, hans, tip, cap, ht, hc, hf, hp, hh⟩ := exec_checkBatch_ok.1 h
  obtain ⟨c, rfl, hop⟩ := exists_checks hops
  have hperm : (List.ofFn c).Perm (List.ofFn (c ∘ σ)) := (σ.ofFn_comp_perm c).symm
  refine ⟨fun i => (c i).packed, fun i => (c i).hash, ?_, ?_, exec_checkBatch_ok.2 ?_⟩
  · rw [hp, List.map_ofFn]; rfl
  · rw [hh, List.map_ofFn]; rfl
  refine ⟨baseFee, suggestedTip, hb, hs, List.ofFn (c ∘ σ), ?_, ?_, tip, cap, ?_, ?_, hf, ?_, ?_⟩
  · rw [List.map_ofFn]
    exact congrArg List.ofFn (funext fun i => hop (σ i))
  · intro d hd
    exact hans d (hperm.mem_iff.2 hd)
  · rw [← foldl_updateMin_perm (hperm.map _)]; exact ht
  · rw [← foldl_updateMin_perm (hperm.map _)]; exact hc
  · rw [List.map_ofFn]; rfl
  · rw [List.map_ofFn]; rfl

/-- **Order does not matter.** Against a node whose answers depend only on what it is asked, a
batch and a reordering of it are accepted alike; then the outer fees agree and the packed ops
and the hashes are reordered the way the ops are. -/
theorem batch_reordered (env : (o : Op) → o.Ans) (b : Bundler) {n : Nat} (ops : Fin n → UserOpV07)
    (σ : Equiv.Perm (Fin n)) :
    ((∃ o, (exec env (checkBatch b (List.ofFn ops))).2 = .ok o) ↔
      ∃ o, (exec env (checkBatch b (List.ofFn (ops ∘ σ)))).2 = .ok o) ∧
    ∀ o o', (exec env (checkBatch b (List.ofFn ops))).2 = .ok o →
      (exec env (checkBatch b (List.ofFn (ops ∘ σ)))).2 = .ok o' →
      o'.outerTip = o.outerTip ∧ o'.outerFeeCap = o.outerFeeCap ∧
      ∃ (packed : Fin n → PackedUserOperation) (hashes : Fin n → B256),
        o.packedOps = List.ofFn packed ∧ o'.packedOps = List.ofFn (packed ∘ σ) ∧
        o.userOpHashes = List.ofFn hashes ∧ o'.userOpHashes = List.ofFn (hashes ∘ σ) := by
  refine ⟨⟨?_, ?_⟩, fun o o' h h' => ?_⟩
  · rintro ⟨o, h⟩
    obtain ⟨packed, hashes, -, -, h'⟩ := checkBatch_reorder σ h
    exact ⟨_, h'⟩
  · rintro ⟨o', h'⟩
    have hback : (ops ∘ σ) ∘ σ.symm = ops := by
      funext i
      simp
    obtain ⟨packed, hashes, -, -, h⟩ := checkBatch_reorder σ.symm h'
    rw [hback] at h
    exact ⟨_, h⟩
  · obtain ⟨packed, hashes, hp, hh, h''⟩ := checkBatch_reorder σ h
    rw [h', Except.ok.injEq] at h''
    subst h''
    exact ⟨rfl, rfl, packed, hashes, hp, rfl, hh, rfl⟩

/-- Two ops are accepted in either order, with the same fees. -/
theorem batch_reordered_twoOps : ∃ o o', (exec mockAnswer (checkBatch testBundler [happyOp, otherOp])).2 = .ok o ∧
    (exec mockAnswer (checkBatch testBundler [otherOp, happyOp])).2 = .ok o' ∧ o'.outerTip = o.outerTip ∧
    o'.outerFeeCap = o.outerFeeCap ∧ o.packedOps.length = 2 ∧ o'.packedOps = o.packedOps.reverse := by
  have hops : List.ofFn (fun i : Fin 2 => twoOps.get i) = [happyOp, otherOp] := rfl
  have hswap : List.ofFn ((fun i : Fin 2 => twoOps.get i) ∘ Equiv.swap 0 1) = [otherOp, happyOp] := rfl
  obtain ⟨haccept, hagree⟩ :=
    batch_reordered mockAnswer testBundler (fun i : Fin 2 => twoOps.get i) (Equiv.swap 0 1)
  rw [hops, hswap] at haccept hagree
  have hok : (exec mockAnswer (checkBatch testBundler [happyOp, otherOp])).2.toBool = true := by decide
  rcases hr : (exec mockAnswer (checkBatch testBundler [happyOp, otherOp])).2 with e | o
  · rw [hr] at hok
    cases hok
  obtain ⟨o', ho'⟩ := haccept.1 ⟨o, hr⟩
  obtain ⟨htip, hcap, packed, hashes, hp, hp', -, -⟩ := hagree o o' hr ho'
  refine ⟨o, o', rfl, ho', htip, hcap, ?_, ?_⟩
  · rw [hp, List.length_ofFn]
  · rw [hp, hp']
    rfl

end EtheraBundler

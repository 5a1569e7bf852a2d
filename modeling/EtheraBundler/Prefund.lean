import EtheraBundler.PackingProofs
import EtheraBundler.Mock
import EtheraBundler.Pipeline
/-!
# The prefund check against the op the EntryPoint will see

`canonicalSponsor` and `canonicalPrefund` read a `PackedUserOperation` as EntryPoint v0.7 does:
the paymaster gas limits of any non-empty `paymasterAndData` count, whatever address it starts
with. `check_prefund` drops them when that address is zero (`bundler.rs:293-296`).

* `toNat_prefundAmount` — the saturating chain is the exact product, capped once.
* `prefund_exact` — **no overflow lets an under-funded op pass**, whatever its gas values.
* `prefundRequirement_eq` — what the code requires, in exact arithmetic.
* `checkPrefund_canonical_iff` — **it agrees with the canonical formula exactly when** no gas
  limit was dropped or dropping it made no difference.
* `batch_prefund` — across a batch every op is covered on its own; what one sponsor owes in
  all is covered when it sponsors one op.
-/

namespace EtheraBundler

open BigEndian Interact Saturating

/-! ## The canonical v0.7 formula -/

/-- The number at bytes `i .. i + n` of a blob. -/
def beSlice (blob : Bytes) (i n : Nat) : Nat := ofBe ((blob.drop i).take n)

/-- `paymasterVerificationGasLimit` and `paymasterPostOpGasLimit`, added. -/
def paymasterGas (blob : Bytes) : Nat := beSlice blob 20 16 + beSlice blob 36 16

/-- The first 20 bytes of the blob when they are a non-zero address, the sender otherwise. -/
def canonicalSponsor (p : PackedUserOperation) : Address :=
  if h : 20 ≤ p.paymasterAndData.length then
    let pm : Address := ⟨p.paymasterAndData.take 20, by rw [List.length_take]; omega⟩
    if pm.isZero then p.sender else pm
  else p.sender

/-- `(verGas + callGas + pmVerGas + pmPostOpGas + preVerGas) * maxFeePerGas`, capped. -/
def canonicalPrefund (p : PackedUserOperation) : Nat :=
  let pmGas := if p.paymasterAndData = [] then 0 else paymasterGas p.paymasterAndData
  min (2 ^ 256 - 1) ((hiHalf p.accountGasLimits + loHalf p.accountGasLimits + pmGas +
    p.preVerificationGas.toNat) * loHalf p.gasFees)

/-! ## What the code requires -/

/-- Five saturating operations, one cap. -/
theorem toNat_prefundAmount (ver call pmVer pmPost preVer fee : U256) :
    (satMul (satAdd (satAdd (satAdd (satAdd ver call) pmVer) pmPost) preVer) fee).toNat =
      cap 256 ((ver.toNat + call.toNat + pmVer.toNat + pmPost.toNat + preVer.toNat) * fee.toNat) := by
  simp only [toNat_satMul, toNat_satAdd, cap_add, cap_mul]

/-- The paymaster of a blob, with its gas, as far as `check_prefund` counts it. -/
def countedPaymaster (op : UserOpV07) (blob : Bytes) : Address × Nat :=
  match parsePaymasterAndData blob with
  | .ok (some (pm, ver, post)) => if pm.isZero then (op.sender, 0) else (pm, ver.toNat + post.toNat)
  | _ => (op.sender, 0)

theorem prefundRequirement_eq (op : UserOpV07) {p : PackedUserOperation}
    {r : Option (Address × U256 × U256)} (h : parsePaymasterAndData p.paymasterAndData = .ok r) :
    ∃ required, prefundRequirement op p = .ok ((countedPaymaster op p.paymasterAndData).1, required) ∧
      required.toNat = cap 256 ((op.verificationGasLimit.toNat + op.callGasLimit.toNat +
        (countedPaymaster op p.paymasterAndData).2 + op.preVerificationGas.toNat) * op.maxFeePerGas.toNat) := by
  unfold prefundRequirement countedPaymaster
  simp only [h, bind, Except.bind, pure, Except.pure]
  rcases r with - | ⟨pm, ver, post⟩
  · exact ⟨_, rfl, by rw [toNat_prefundAmount]; rfl⟩
  by_cases hz : pm.isZero = true
  · simp only [hz, if_true]
    exact ⟨_, rfl, by rw [toNat_prefundAmount]; rfl⟩
  · simp only [if_neg hz]
    exact ⟨_, rfl, by rw [toNat_prefundAmount, ← Nat.add_assoc]⟩

/-- The sponsor `check_prefund` charges and the unbounded product of the values it sums; none
when the blob is too short. -/
def exactPrefund (op : UserOpV07) (p : PackedUserOperation) : Option (Address × Nat) :=
  match parsePaymasterAndData p.paymasterAndData with
  | .error _ => none
  | .ok _ => some ((countedPaymaster op p.paymasterAndData).1, (op.verificationGasLimit.toNat +
      op.callGasLimit.toNat + (countedPaymaster op p.paymasterAndData).2 + op.preVerificationGas.toNat) *
      op.maxFeePerGas.toNat)

/-- What the code requires is that product, capped. -/
theorem prefundRequirement_cases (op : UserOpV07) (p : PackedUserOperation) :
    (exactPrefund op p = none ∧ ∃ e, prefundRequirement op p = .error e) ∨
      ∃ sponsor exact required, exactPrefund op p = some (sponsor, exact) ∧
        prefundRequirement op p = .ok (sponsor, required) ∧ required.toNat = cap 256 exact := by
  rcases h : parsePaymasterAndData p.paymasterAndData with e | r
  · refine Or.inl ⟨by simp only [exactPrefund, h], e, ?_⟩
    simp only [prefundRequirement, h, bind, Except.bind]
  · obtain ⟨required, hreq, hamount⟩ := prefundRequirement_eq op h
    exact Or.inr ⟨_, _, required, by simp only [exactPrefund, h], hreq, hamount⟩

/-- **The prefund arithmetic is exact up to one cap**: the five saturating operations are the
unbounded product stopped at `2 ^ 256 - 1`, so below that deposit the check accepts exactly when
the deposit covers the unbounded product. -/
theorem prefund_exact :
    (∀ ver call pmVer pmPost preVer fee : U256,
      (satMul (satAdd (satAdd (satAdd (satAdd ver call) pmVer) pmPost) preVer) fee).toNat =
        min (2 ^ 256 - 1)
          ((ver.toNat + call.toNat + pmVer.toNat + pmPost.toNat + preVer.toNat) * fee.toNat)) ∧
    ∀ (b : Bundler) (i : Nat) (op : UserOpV07) (p : PackedUserOperation) (sponsor : Address) (deposit : U256),
      deposit.toNat < 2 ^ 256 - 1 →
      (Run (checkPrefund b i op p) [⟨.rpc (.balanceOf b.cfg.entrypointAddress sponsor), .ok deposit⟩] (.ok ()) ↔
        ∃ exact, exactPrefund op p = some (sponsor, exact) ∧ exact ≤ deposit.toNat) := by
  refine ⟨fun ver call pmVer pmPost preVer fee => toNat_prefundAmount ver call pmVer pmPost preVer fee, ?_⟩
  intro b i op p sponsor deposit hd
  have hcap (exact : Nat) : cap 256 exact ≤ deposit.toNat ↔ exact ≤ deposit.toNat :=
    ⟨fun h => le_of_cap_le h hd, fun h => Nat.le_trans (Nat.min_le_right _ _) h⟩
  rw [run_checkPrefund_ok]
  rcases prefundRequirement_cases op p with ⟨hnone, e, herr⟩ | ⟨sponsor', exact, required, hsome, hreq, hamount⟩
  · rw [hnone, herr]
    simp
  · rw [hsome, hreq]
    constructor
    · rintro ⟨_, _, _, h1, hle, h2⟩
      cases h1
      cases h2
      refine ⟨exact, rfl, ?_⟩
      rw [← hcap, ← hamount]
      exact hle
    · rintro ⟨_, h1, hle⟩
      cases h1
      refine ⟨_, required, deposit, rfl, ?_, rfl⟩
      rw [BitVec.le_def, hamount, hcap]
      exact hle

/-- A deposit of just the product is accepted; with a `preVerificationGas` whose sums overflow no
deposit of 1 ether is. -/
theorem prefund_exact_happy :
    Run (checkPrefund testBundler 0 happyOp happyPacked)
      [⟨.rpc (.balanceOf ENTRYPOINT_V07 (repeatAddress 0x11)), .ok 1250000000000000⟩] (.ok ()) ∧
    ¬ Run (checkPrefund testBundler 0 { happyOp with preVerificationGas := BitVec.allOnes 256 } happyPacked)
      [⟨.rpc (.balanceOf ENTRYPOINT_V07 (repeatAddress 0x11)), .ok 1000000000000000000⟩] (.ok ()) := by
  refine ⟨(prefund_exact.2 testBundler 0 _ _ _ _ (by decide)).2 ⟨1250000000000000, by decide, by decide⟩, ?_⟩
  intro h
  obtain ⟨exact, h1, h2⟩ := (prefund_exact.2 testBundler 0 _ _ _ _ (by decide)).1 h
  cases h1
  exact absurd h2 (by decide)

/-! ## Blob by blob -/

theorem beSlice_ver {pm : Address} {ver post : U256} (data : Bytes) (hv : ver.toNat < 2 ^ 128) :
    beSlice (unpackedBlob pm ver post data) 20 16 = ver.toNat := by
  simp only [beSlice, unpackedBlob, List.append_assoc]
  rw [List.drop_left' pm.length_bytes, List.take_left' (length_lowBytes16 ver), ofBe_lowBytes16 hv]

theorem beSlice_post {pm : Address} {ver post : U256} (data : Bytes) (hp : post.toNat < 2 ^ 128) :
    beSlice (unpackedBlob pm ver post data) 36 16 = post.toNat := by
  have hl : (pm.bytes ++ lowBytes16 ver).length = 36 := by simp [pm.length_bytes]
  simp only [beSlice, unpackedBlob]
  rw [List.append_assoc, List.drop_left' hl, List.take_left' (length_lowBytes16 post), ofBe_lowBytes16 hp]

theorem take_unpackedBlob (pm : Address) (ver post : U256) (data : Bytes) :
    (unpackedBlob pm ver post data).take 20 = pm.bytes := by
  simp only [unpackedBlob, List.append_assoc]
  exact List.take_left' pm.length_bytes

/-- The sponsor the code charges is the canonical one. -/
theorem countedPaymaster_sponsor {op : UserOpV07} {p : PackedUserOperation} (hs : p.sender = op.sender)
    {r : Option (Address × U256 × U256)} (h : parsePaymasterAndData p.paymasterAndData = .ok r) :
    (countedPaymaster op p.paymasterAndData).1 = canonicalSponsor p := by
  unfold countedPaymaster canonicalSponsor
  rw [h]
  rcases r with - | ⟨pm, ver, post⟩
  · have hb := parse_eq_none h
    simp [hb, hs]
  · obtain ⟨-, -, he⟩ := parse_eq_some h
    have hl : 20 ≤ p.paymasterAndData.length := by
      rw [he, length_unpackedBlob]; omega
    have hpm : (⟨p.paymasterAndData.take 20, by rw [List.length_take]; omega⟩ : Address) = pm :=
      FixedBytes.ext_bytes (by
        show p.paymasterAndData.take 20 = pm.bytes
        rw [he]
        exact take_unpackedBlob _ _ _ _)
    rw [dif_pos hl]
    simp only [hpm, hs]
    split <;> rfl

/-- The blob names the zero address as its paymaster. -/
def zeroPaymaster (blob : Bytes) : Prop := blob ≠ [] ∧ blob.take 20 = List.replicate 20 0

/-- The gas the code counts is the blob's, except under the zero address. -/
theorem countedPaymaster_gas (op : UserOpV07) {blob : Bytes} {r : Option (Address × U256 × U256)}
    (h : parsePaymasterAndData blob = .ok r) :
    (zeroPaymaster blob → (countedPaymaster op blob).2 = 0) ∧
      (¬ zeroPaymaster blob →
        (countedPaymaster op blob).2 = if blob = [] then 0 else paymasterGas blob) := by
  unfold countedPaymaster
  rw [h]
  rcases r with - | ⟨pm, ver, post⟩
  · refine ⟨fun _ => rfl, fun _ => ?_⟩
    simp [parse_eq_none h]
  obtain ⟨hv, hp, he⟩ := parse_eq_some h
  have hne : blob ≠ [] := by rintro rfl; cases h
  have hz : zeroPaymaster blob ↔ pm.isZero = true := by
    rw [zeroPaymaster, he, take_unpackedBlob, ← he, FixedBytes.isZero_iff]
    exact ⟨fun h => FixedBytes.ext_bytes h.2, fun h => ⟨hne, by rw [h]; rfl⟩⟩
  have hg : paymasterGas blob = ver.toNat + post.toNat := by
    rw [paymasterGas, he, beSlice_ver _ hv, beSlice_post _ hp]
  rw [hz]
  refine ⟨fun h => by simp only [h, if_true], fun h => ?_⟩
  simp only [if_neg h, if_neg hne, hg]

/-! ## Agreement -/

/-- Nothing the EntryPoint counts was dropped, or dropping it did not change the amount. The
first alternative covers every op in unpacked form and every non-zero paymaster. -/
def PaymasterGasCounted (op : UserOpV07) : Prop :=
  ¬ zeroPaymaster op.paymasterAndData ∨ paymasterGas op.paymasterAndData = 0 ∨ op.maxFeePerGas = 0 ∨
    2 ^ 256 - 1 ≤ (op.verificationGasLimit.toNat + op.callGasLimit.toNat + op.preVerificationGas.toNat) *
      op.maxFeePerGas.toNat

/-- Only a pre-packed blob can start with the zero address. -/
theorem effective_zeroPaymaster {op : UserOpV07} (h : zeroPaymaster (effectivePaymasterAndData op)) :
    effectivePaymasterAndData op = op.paymasterAndData := by
  unfold effectivePaymasterAndData at h ⊢
  by_cases hb : op.paymasterAndData = []
  · rw [if_neg (not_not.2 hb)] at h ⊢
    rcases hp : op.paymaster with - | pm
    · rw [hb]
    simp only [hp] at h
    by_cases hz : pm.isZero = true
    · simp only [hz, if_true, hb]
    · rw [if_neg hz] at h
      have := h.2
      rw [take_unpackedBlob] at this
      exact absurd ((FixedBytes.isZero_iff pm).2 (FixedBytes.ext_bytes this)) hz
  · rw [if_pos hb]

/-- **Agreement.** For every op the packer and the parser accept, `check_prefund` asks the
deposit of one sponsor and compares it with one amount; they are the canonical ones exactly
when the paymaster gas was counted. -/
theorem checkPrefund_canonical_iff {op : UserOpV07} {p : PackedUserOperation}
    {r : Option (Address × U256 × U256)} (hpack : pack op = .ok p)
    (hparse : parsePaymasterAndData p.paymasterAndData = .ok r) :
    ∃ sponsor required, prefundRequirement op p = .ok (sponsor, required) ∧
      (∀ (b : Bundler) (i : Nat) (t : BundlerTrace), Run (checkPrefund b i op p) t (.ok ()) ↔
        ∃ deposit, required ≤ deposit ∧
          t = [⟨.rpc (.balanceOf b.cfg.entrypointAddress sponsor), .ok deposit⟩]) ∧
      ((sponsor = canonicalSponsor p ∧ required.toNat = canonicalPrefund p) ↔ PaymasterGasCounted op) := by
  obtain ⟨hb, hp⟩ := pack_ok.1 hpack
  obtain ⟨required, hreq, hamount⟩ := prefundRequirement_eq op hparse
  have hsponsor := countedPaymaster_sponsor hp.sender hparse
  obtain ⟨hzero, hnonzero⟩ := countedPaymaster_gas op hparse
  refine ⟨_, required, hreq, fun b i t => ?_, ?_⟩
  · rw [run_checkPrefund_ok, hreq]
    constructor
    · rintro ⟨_, _, deposit, h1, h2, h3⟩
      cases h1
      exact ⟨deposit, h2, h3⟩
    · rintro ⟨deposit, h2, h3⟩
      exact ⟨_, _, deposit, rfl, h2, h3⟩
  obtain ⟨g1, g2⟩ := hp.gasHalves hb
  obtain ⟨-, f2⟩ := hp.feeHalves hb
  rw [hamount, canonicalPrefund, g1, g2, f2, hp.preVerificationGas, and_iff_right hsponsor]
  by_cases hz : zeroPaymaster p.paymasterAndData
  · have he : p.paymasterAndData = op.paymasterAndData := by
      rw [hp.paymasterAndData] at hz ⊢
      exact effective_zeroPaymaster hz
    have hfee : op.maxFeePerGas.toNat = 0 ↔ op.maxFeePerGas = 0 := by
      rw [← BitVec.toNat_inj]; rfl
    have key := cap_mul_add_eq_iff 256 (op.verificationGasLimit.toNat + op.callGasLimit.toNat +
      op.preVerificationGas.toNat) (paymasterGas op.paymasterAndData) op.maxFeePerGas.toNat
    rw [hfee] at key
    have hz' : zeroPaymaster op.paymasterAndData := he ▸ hz
    have hcond : PaymasterGasCounted op ↔ _ := or_iff_right (not_not.2 hz')
    rw [hzero hz, he, if_neg hz'.1, hcond, Nat.add_zero, Nat.add_right_comm _ (paymasterGas _)]
    exact key
  · rw [hnonzero hz]
    refine iff_of_true rfl (Or.inl fun h => hz ?_)
    rw [hp.paymasterAndData, effectivePaymasterAndData, if_pos h.1]
    exact h

/-- An op whose blob names no paymaster yet sets 100000 and 50000 gas aside for one. -/
def zeroPaymasterOp : UserOpV07 :=
  { happyOp with
    paymasterAndData := List.replicate 20 0 ++ lowBytes16 100000 ++ lowBytes16 50000 }

def zeroPaymasterPacked : PackedUserOperation where
  sender := repeatAddress 0x11
  nonce := 1
  initCode := []
  callData := [0xb6, 0x1d, 0x27, 0xf6]
  accountGasLimits := ⟨lowBytes16 100000 ++ lowBytes16 100000, by simp⟩
  preVerificationGas := 50000
  gasFees := ⟨lowBytes16 2000000000 ++ lowBytes16 5000000000, by simp⟩
  paymasterAndData := List.replicate 20 0 ++ lowBytes16 100000 ++ lowBytes16 50000
  signature := [0x00]

theorem pack_zeroPaymasterOp : pack zeroPaymasterOp = .ok zeroPaymasterPacked := by decide

theorem checkPrefund_canonical_iff_zeroPaymaster :
    ∃ sponsor required, prefundRequirement zeroPaymasterOp zeroPaymasterPacked = .ok (sponsor, required) ∧
      ¬ (sponsor = canonicalSponsor zeroPaymasterPacked ∧
        required.toNat = canonicalPrefund zeroPaymasterPacked) := by
  obtain ⟨sponsor, required, h, -, hiff⟩ := checkPrefund_canonical_iff pack_zeroPaymasterOp
    (r := some (FixedBytes.zero 20, 100000, 50000)) (by decide)
  refine ⟨sponsor, required, h, fun hc => ?_⟩
  rcases hiff.1 hc with h | h | h | h
  · exact h ⟨by decide, by decide⟩
  · exact absurd h (by decide)
  · exact absurd h (by decide)
  · exact absurd h (by decide)

/-- The 150000 gas are missing from the amount required: 250000 gas are, at 5 gwei each. -/
theorem checkPrefund_not_canonical :
    ¬ ∀ (op : UserOpV07) (p : PackedUserOperation) (r : Option (Address × U256 × U256)) (sponsor : Address)
      (required : U256), pack op = .ok p → parsePaymasterAndData p.paymasterAndData = .ok r →
      prefundRequirement op p = .ok (sponsor, required) →
      sponsor = canonicalSponsor p ∧ required.toNat = canonicalPrefund p := by
  intro h
  have hparse : parsePaymasterAndData zeroPaymasterPacked.paymasterAndData =
      .ok (some (FixedBytes.zero 20, 100000, 50000)) := by decide
  have hreq : prefundRequirement zeroPaymasterOp zeroPaymasterPacked =
      .ok (repeatAddress 0x11, 1250000000000000) := by decide
  have hc := (h _ _ _ _ _ pack_zeroPaymasterOp hparse hreq).2
  exact absurd hc (by decide)

/-! ## Across a batch -/

/-- The sponsor `check_prefund` charges for an op, and the amount. -/
def opPrefund (op : UserOpV07) : Option (Address × Nat) :=
  match pack op with
  | .error _ => none
  | .ok p =>
    match prefundRequirement op p with
    | .error _ => none
    | .ok (sponsor, required) => some (sponsor, required.toNat)

/-- The amounts charged to `sponsor` over a batch. -/
def sponsored (sponsor : Address) (ops : List UserOpV07) : List Nat :=
  ops.filterMap fun op =>
    match opPrefund op with
    | some (s, required) => if s = sponsor then some required else none
    | none => none

theorem mem_sponsored {sponsor : Address} {ops : List UserOpV07} {required : Nat} :
    required ∈ sponsored sponsor ops ↔ ∃ op ∈ ops, opPrefund op = some (sponsor, required) := by
  rw [sponsored, List.mem_filterMap]
  refine exists_congr fun op => and_congr_right fun _ => ?_
  rcases opPrefund op with - | ⟨s, r⟩
  · simp
  · by_cases hs : s = sponsor
    · simp [hs]
    · simp [hs]

theorem CheckedOp.opPrefund_eq {b : Bundler} {baseFee : U256} {nowUnix : U64} (c : CheckedOp b baseFee nowUnix) :
    opPrefund c.op = some (c.sponsor, c.required.toNat) := by
  unfold opPrefund
  rw [c.pack_eq]
  simp only [c.prefund_eq]

/-- The deposits `EntryPoint.balanceOf` answered during the call are those of `deposit`. -/
def DepositsConstant (b : Bundler) (t : BundlerTrace) (deposit : Address → Nat) : Prop :=
  ∀ account x, ⟨.rpc (.balanceOf b.cfg.entrypointAddress account), .ok x⟩ ∈ t → x.toNat = deposit account

theorem Settled.covered {A : Alloy} {b : Bundler} {ops : List UserOpV07} (s : Settled b ops)
    {t : BundlerTrace} {deposit : Address → Nat} (hd : DepositsConstant b t deposit) (hsub : s.events A ⊆ t)
    {op : UserOpV07} (hop : op ∈ ops) :
    ∃ sponsor required, opPrefund op = some (sponsor, required) ∧ required ≤ deposit sponsor := by
  rw [← s.ops_eq] at hop
  obtain ⟨c, hc, rfl⟩ := List.mem_map.1 hop
  refine ⟨c.sponsor, c.required.toNat, c.opPrefund_eq, ?_⟩
  have hmem : (⟨.rpc (.balanceOf b.cfg.entrypointAddress c.sponsor), .ok c.deposit⟩ : Event Op Op.Ans) ∈ t := by
    apply hsub
    simp only [Settled.events, List.mem_append, List.mem_flatMap]
    exact Or.inl (Or.inr ⟨c, hc, List.mem_cons_self⟩)
  rw [← hd _ _ hmem]
  exact BitVec.le_def.1 c.covered

theorem sum_le_length_mul {l : List Nat} {d : Nat} (h : ∀ x ∈ l, x ≤ d) : l.sum ≤ l.length * d := by
  induction l with
  | nil => simp
  | cons x l ih =>
    have hx := h x List.mem_cons_self
    have hl := ih fun y hy => h y (List.mem_cons_of_mem _ hy)
    rw [List.sum_cons, List.length_cons, Nat.succ_mul]
    omega

/-- **Per-op coverage of a batch.** With constant deposits, every op of a signed batch is charged
to one sponsor who covers it; what a sponsor owes in all is bounded by its deposit once per op,
hence covered when it sponsors a single op. -/
theorem batch_prefund {A : Alloy} {b : Bundler} {ops : List UserOpV07} {opts : BuildOpts} {t : BundlerTrace}
    {tx : TxEip1559} {deposit : Address → Nat} (h : Asks (buildInner A b ops opts) t (.signEip1559 tx))
    (hd : DepositsConstant b t deposit) :
    (∀ op ∈ ops, ∃ sponsor required, opPrefund op = some (sponsor, required) ∧ required ≤ deposit sponsor) ∧
      ∀ sponsor, (sponsored sponsor ops).sum ≤ (sponsored sponsor ops).length * deposit sponsor ∧
        ((sponsored sponsor ops).length ≤ 1 → (sponsored sponsor ops).sum ≤ deposit sponsor) := by
  obtain ⟨-, s, nonce, -, rfl⟩ := asks_sign_iff.1 h
  have hcov : ∀ op ∈ ops, ∃ sponsor required, opPrefund op = some (sponsor, required) ∧
      required ≤ deposit sponsor := fun op hop =>
    s.covered hd (fun e he => List.mem_append_left _ he) hop
  refine ⟨hcov, fun sponsor => ?_⟩
  have hle : ∀ x ∈ sponsored sponsor ops, x ≤ deposit sponsor := by
    intro x hx
    obtain ⟨op, hop, hp⟩ := mem_sponsored.1 hx
    obtain ⟨sponsor', required, hp', hr⟩ := hcov op hop
    rw [hp, Option.some.injEq, Prod.mk.injEq] at hp'
    rw [hp'.1, hp'.2]
    exact hr
  have hsum := sum_le_length_mul hle
  refine ⟨hsum, fun h1 => ?_⟩
  exact Nat.le_trans hsum (by simpa using Nat.mul_le_mul_right (deposit sponsor) h1)

/-- The test-suite's node, with a deposit that covers `happyOp` once. -/
def singleDepositAnswer : (o : Op) → o.Ans
  | .rpc (.balanceOf _ _) => .ok 1250000000000000
  | o => mockAnswer o

theorem singleDepositAnswer_constant {t : BundlerTrace} (h : ∀ o x, ⟨o, x⟩ ∈ t → x = singleDepositAnswer o) :
    DepositsConstant testBundler t fun _ => 1250000000000000 := by
  intro account x hx
  have := h _ _ hx
  cases this
  rfl

/-- Two ops with a sponsor each: both sponsors cover what they owe. -/
theorem batch_prefund_single : ∃ tx t, Asks (buildInner alloy testBundler twoOps submitOpts) t (.signEip1559 tx) ∧
    DepositsConstant testBundler t (fun _ => 1250000000000000) ∧
    (sponsored (repeatAddress 0x11) twoOps).length = 1 ∧ (sponsored (repeatAddress 0x22) twoOps).length = 1 ∧
    (sponsored (repeatAddress 0x11) twoOps).sum ≤ 1250000000000000 ∧
    (sponsored (repeatAddress 0x22) twoOps).sum ≤ 1250000000000000 := by
  obtain ⟨t, o, ho, h, hmem⟩ := exec_asks singleDepositAnswer
    (buildInner alloy testBundler twoOps submitOpts) Op.isSign (by decide)
  cases o with
  | signEip1559 tx =>
    have hd := singleDepositAnswer_constant hmem
    obtain ⟨-, hsum⟩ := batch_prefund h hd
    exact ⟨tx, t, h, hd, by decide, by decide, (hsum _).2 (by decide), (hsum _).2 (by decide)⟩
  | _ => cases ho

/-- Two ops of one sender, each covered by the deposit, are signed; together they need twice it. -/
theorem batch_prefund_shared_sender :
    ¬ ∀ (A : Alloy) (b : Bundler) (ops : List UserOpV07) (opts : BuildOpts) (t : BundlerTrace) (tx : TxEip1559)
      (deposit : Address → Nat), Asks (buildInner A b ops opts) t (.signEip1559 tx) →
      DepositsConstant b t deposit → ∀ sponsor, (sponsored sponsor ops).sum ≤ deposit sponsor := by
  intro hall
  obtain ⟨t, o, ho, h, hmem⟩ := exec_asks singleDepositAnswer
    (buildInner alloy testBundler [happyOp, { happyOp with nonce := 2 }] submitOpts) Op.isSign (by decide)
  cases o with
  | signEip1559 tx =>
    have hle := hall _ _ _ _ t tx _ h (singleDepositAnswer_constant hmem) (repeatAddress 0x11)
    exact absurd hle (by decide)
  | _ => cases ho

end EtheraBundler

import EtheraBundler.Validator
/-!
# Validation words

A validation word packs an aggregator of 160 bits and two timestamps of 48 bits
(`validator.rs:35-47`). `WindowFields` is such a triple and `WindowFields.word` the word it
packs to: a bijection, so `parse_window` is described by what it makes of `word f`.

* `toNat_and_mask`, `toNat_shift_and_mask` — the masks and shifts, as arithmetic.
* `WindowFields.word_of`, `WindowFields.of_word` — the fields partition the 256 bits.
* `parseWindow_word` — `parse_window` reads them back; no expiry reads as the largest timestamp.
* `judge_exact` — the verdict on two words, check by check.
* `validation_exact` — **parsing and verdict**, as `simulate` reaches it.
-/

namespace EtheraBundler

open BigEndian Interact

/-! ## The fields of a word -/

/-- An aggregator and two timestamps, within their widths. -/
structure WindowFields where
  aggregator : Nat
  validUntil : Nat
  validAfter : Nat
  aggregator_lt : aggregator < 2 ^ 160
  validUntil_lt : validUntil < 2 ^ 48
  validAfter_lt : validAfter < 2 ^ 48

namespace WindowFields

/-- `aggregator | validUntil << 160 | validAfter << 208`. -/
def word (f : WindowFields) : U256 :=
  BitVec.ofNat 256 (f.aggregator + f.validUntil * 2 ^ 160 + f.validAfter * 2 ^ 208)

/-- The fields of any word. -/
def of (data : U256) : WindowFields where
  aggregator := data.toNat % 2 ^ 160
  validUntil := data.toNat / 2 ^ 160 % 2 ^ 48
  validAfter := data.toNat / 2 ^ 208
  aggregator_lt := Nat.mod_lt _ (by decide)
  validUntil_lt := Nat.mod_lt _ (by decide)
  validAfter_lt := by have := data.isLt; omega

theorem toNat_word (f : WindowFields) :
    f.word.toNat = f.aggregator + f.validUntil * 2 ^ 160 + f.validAfter * 2 ^ 208 := by
  have h1 := f.aggregator_lt
  have h2 := f.validUntil_lt
  have h3 := f.validAfter_lt
  rw [word, BitVec.toNat_ofNat, Nat.mod_eq_of_lt]
  omega

theorem word_of (data : U256) : (of data).word = data := by
  apply BitVec.eq_of_toNat_eq
  rw [toNat_word]
  simp only [of]
  omega

theorem of_word (f : WindowFields) : of f.word = f := by
  have h1 := f.aggregator_lt
  have h2 := f.validUntil_lt
  have h3 := f.validAfter_lt
  cases f
  simp only [of, toNat_word, mk.injEq] at h1 h2 h3 ⊢
  refine ⟨?_, ?_, ?_⟩
  all_goals omega

/-- The last second of the window: zero stands for no expiry. -/
def lastSecond (f : WindowFields) : Nat := if f.validUntil = 0 then 2 ^ 48 - 1 else f.validUntil

/-- Both ends belong to the window. -/
def OpenAt (f : WindowFields) (now : Nat) : Prop := f.validAfter ≤ now ∧ now ≤ f.lastSecond

end WindowFields

/-! ## `parse_window` -/

theorem toNat_and_mask {w n : Nat} (data mask : BitVec w) (h : mask.toNat = 2 ^ n - 1) :
    (data &&& mask).toNat = data.toNat % 2 ^ n := by
  rw [BitVec.toNat_and, h, Nat.and_two_pow_sub_one_eq_mod]

theorem toNat_shift_and_mask {w n : Nat} (data mask : BitVec w) (k : Nat) (h : mask.toNat = 2 ^ n - 1) :
    ((data >>> k) &&& mask).toNat = data.toNat / 2 ^ k % 2 ^ n := by
  rw [toNat_and_mask _ _ h, BitVec.toNat_ushiftRight, Nat.shiftRight_eq_div_pow]

/-- A masked timestamp passes `u64::try_from`. -/
theorem u64TryFrom_of_lt {v : U256} (h : v.toNat < 2 ^ 64) : u64TryFrom v = some (v.setWidth 64) := if_pos h

theorem toNat_setWidth_of_lt {v : U256} (h : v.toNat < 2 ^ 64) : (v.setWidth 64).toNat = v.toNat := by
  rw [BitVec.toNat_setWidth, Nat.mod_eq_of_lt h]

theorem ofBe_parseWindow_aggregator (data : U256) :
    ofBe (parseWindow data).aggregator.bytes = (WindowFields.of data).aggregator := by
  show ofBe ((beBytes (12 + 20) (data &&& _).toNat).drop 12) = _
  rw [drop_beBytes, ofBe_beBytes, toNat_and_mask (n := 160) _ _ (by decide)]
  exact Nat.mod_mod_of_dvd _ (Nat.dvd_refl _)

theorem toNat_parseWindow_validAfter (data : U256) :
    (parseWindow data).validAfter.toNat = (WindowFields.of data).validAfter := by
  have hmask : (UINT48_MAX.setWidth 256).toNat = 2 ^ 48 - 1 := by decide
  have hraw := toNat_shift_and_mask data (UINT48_MAX.setWidth 256) (160 + 48) hmask
  have hlt := data.isLt
  have h64 : ((data >>> (160 + 48)) &&& UINT48_MAX.setWidth 256).toNat < 2 ^ 64 := by
    rw [hraw]; omega
  show ((u64TryFrom _).getD 0).toNat = data.toNat / 2 ^ 208
  rw [u64TryFrom_of_lt h64, Option.getD_some, toNat_setWidth_of_lt h64, hraw]
  omega

theorem toNat_parseWindow_validUntil (data : U256) :
    (parseWindow data).validUntil.toNat = (WindowFields.of data).lastSecond := by
  have hmask : (UINT48_MAX.setWidth 256).toNat = 2 ^ 48 - 1 := by decide
  have hraw := toNat_shift_and_mask data (UINT48_MAX.setWidth 256) 160 hmask
  have h64 : ((data >>> 160) &&& UINT48_MAX.setWidth 256).toNat < 2 ^ 64 := by
    rw [hraw]; omega
  have htry : ((u64TryFrom ((data >>> 160) &&& UINT48_MAX.setWidth 256)).getD UINT48_MAX).toNat =
      (WindowFields.of data).validUntil := by
    rw [u64TryFrom_of_lt h64, Option.getD_some, toNat_setWidth_of_lt h64, hraw]
    rfl
  show (if (u64TryFrom _).getD UINT48_MAX = 0 then UINT48_MAX else (u64TryFrom _).getD UINT48_MAX).toNat = _
  rw [WindowFields.lastSecond, ← htry]
  by_cases hz : (u64TryFrom ((data >>> 160) &&& UINT48_MAX.setWidth 256)).getD UINT48_MAX = 0
  · rw [if_pos hz, hz]
    decide
  · have hz' : ((u64TryFrom ((data >>> 160) &&& UINT48_MAX.setWidth 256)).getD UINT48_MAX).toNat ≠ 0 :=
      fun h => hz (BitVec.eq_of_toNat_eq h)
    rw [if_neg hz, if_neg hz']

/-- **Parsing** a packed word gives its fields. -/
theorem parseWindow_word (f : WindowFields) :
    ofBe (parseWindow f.word).aggregator.bytes = f.aggregator ∧
      (parseWindow f.word).validAfter.toNat = f.validAfter ∧
      (parseWindow f.word).validUntil.toNat = f.lastSecond := by
  refine ⟨?_, ?_, ?_⟩
  · rw [ofBe_parseWindow_aggregator, WindowFields.of_word]
  · rw [toNat_parseWindow_validAfter, WindowFields.of_word]
  · rw [toNat_parseWindow_validUntil, WindowFields.of_word]

/-! ## The checks of `simulate` -/

theorem signatureFailed_iff (data : U256) :
    (parseWindow data).signatureFailed = true ↔ (WindowFields.of data).aggregator = 1 := by
  have hone : ofBe SIG_VALIDATION_FAILED.bytes = 1 := by decide
  rw [ValidationWindow.signatureFailed, decide_eq_true_iff, ← FixedBytes.ofBe_bytes_inj, hone,
    ofBe_parseWindow_aggregator]

theorem requiresAggregator_iff (data : U256) : (parseWindow data).requiresAggregator = true ↔
    (WindowFields.of data).aggregator ≠ 0 ∧ (WindowFields.of data).aggregator ≠ 1 := by
  have hzero : ofBe (FixedBytes.zero 20).bytes = 0 := by decide
  have hz : (parseWindow data).aggregator.isZero = true ↔ (WindowFields.of data).aggregator = 0 := by
    rw [FixedBytes.isZero_iff, ← FixedBytes.ofBe_bytes_inj, hzero, ofBe_parseWindow_aggregator]
  rw [ValidationWindow.requiresAggregator, Bool.and_eq_true, Bool.not_eq_true', Bool.not_eq_true',
    ← Bool.not_eq_true, ← Bool.not_eq_true, hz, signatureFailed_iff]

theorem isOutOfTimeRange_iff (data : U256) (now : U64) : (parseWindow data).isOutOfTimeRange now = true ↔
    ¬ (WindowFields.of data).OpenAt now.toNat := by
  rw [ValidationWindow.isOutOfTimeRange, Bool.or_eq_true, decide_eq_true_iff, decide_eq_true_iff, gt_iff_lt,
    BitVec.lt_def, BitVec.lt_def, toNat_parseWindow_validAfter, toNat_parseWindow_validUntil,
    WindowFields.OpenAt]
  omega

/-- The verdict on two words, check by check. -/
structure VerdictExact (account paymaster : WindowFields) (now : U64)
    (r : Except ValidationError ValidationReport) : Prop where
  ok_iff : (∃ report, r = .ok report) ↔ account.aggregator = 0 ∧ paymaster.aggregator = 0 ∧
    account.OpenAt now.toNat ∧ paymaster.OpenAt now.toNat
  account_iff : r = .error .accountSignatureFailed ↔ account.aggregator = 1
  paymaster_iff : r = .error .paymasterSignatureFailed ↔ account.aggregator ≠ 1 ∧ paymaster.aggregator = 1
  aggregator_iff : r = .error .unsupportedAggregator ↔ account.aggregator ≠ 1 ∧ paymaster.aggregator ≠ 1 ∧
    (account.aggregator ≠ 0 ∨ paymaster.aggregator ≠ 0)
  /-- The remaining rejections name the four bounds. -/
  timeRange_iff : (∃ aAfter aUntil pAfter pUntil : U64,
      r = .error (.outOfTimeRange now aAfter aUntil pAfter pUntil) ∧
      aAfter.toNat = account.validAfter ∧ aUntil.toNat = account.lastSecond ∧
      pAfter.toNat = paymaster.validAfter ∧ pUntil.toNat = paymaster.lastSecond) ↔
    account.aggregator = 0 ∧ paymaster.aggregator = 0 ∧
      ¬ (account.OpenAt now.toNat ∧ paymaster.OpenAt now.toNat)

/-- **The verdict**, in the order of the checks. -/
theorem judge_exact (raw : ValidationResult) (now : U64) :
    VerdictExact (.of raw.returnInfo.accountValidationData) (.of raw.returnInfo.paymasterValidationData) now
      (judge raw now) := by
  generalize ha : WindowFields.of raw.returnInfo.accountValidationData = account
  generalize hp : WindowFields.of raw.returnInfo.paymasterValidationData = paymaster
  have a1 := signatureFailed_iff raw.returnInfo.accountValidationData
  have p1 := signatureFailed_iff raw.returnInfo.paymasterValidationData
  have a2 := requiresAggregator_iff raw.returnInfo.accountValidationData
  have p2 := requiresAggregator_iff raw.returnInfo.paymasterValidationData
  have a3 := isOutOfTimeRange_iff raw.returnInfo.accountValidationData now
  have p3 := isOutOfTimeRange_iff raw.returnInfo.paymasterValidationData now
  have a4 := toNat_parseWindow_validAfter raw.returnInfo.accountValidationData
  have p4 := toNat_parseWindow_validAfter raw.returnInfo.paymasterValidationData
  have a5 := toNat_parseWindow_validUntil raw.returnInfo.accountValidationData
  have p5 := toNat_parseWindow_validUntil raw.returnInfo.paymasterValidationData
  rw [ha] at a1 a2 a3 a4 a5
  rw [hp] at p1 p2 p3 p4 p5
  unfold judge
  simp only
  by_cases h1 : account.aggregator = 1
  · rw [if_pos (a1.2 h1)]
    constructor <;> simp [h1]
  by_cases h2 : paymaster.aggregator = 1
  · rw [if_neg (mt a1.1 h1), if_pos (p1.2 h2)]
    constructor <;> simp [h1, h2]
  have h3 : ((parseWindow raw.returnInfo.accountValidationData).requiresAggregator ||
      (parseWindow raw.returnInfo.paymasterValidationData).requiresAggregator) = true ↔
      account.aggregator ≠ 0 ∨ paymaster.aggregator ≠ 0 := by
    rw [Bool.or_eq_true, a2, p2, and_iff_left h1, and_iff_left h2]
  have h4 : ((parseWindow raw.returnInfo.accountValidationData).isOutOfTimeRange now ||
      (parseWindow raw.returnInfo.paymasterValidationData).isOutOfTimeRange now) = true ↔
      ¬ (account.OpenAt now.toNat ∧ paymaster.OpenAt now.toNat) := by
    rw [Bool.or_eq_true, a3, p3, not_and_or]
  rw [if_neg (mt a1.1 h1), if_neg (mt p1.1 h2)]
  by_cases hagg : account.aggregator ≠ 0 ∨ paymaster.aggregator ≠ 0
  · have hnot : ¬ (account.aggregator = 0 ∧ paymaster.aggregator = 0) := not_and_or.2 hagg
    rw [if_pos (h3.2 hagg)]
    exact ⟨by simpa using fun ha hp => absurd ⟨ha, hp⟩ hnot, by simpa using h1, by simpa using fun _ => h2,
      iff_of_true rfl ⟨h1, h2, hagg⟩, by simpa using fun ha hp => absurd ⟨ha, hp⟩ hnot⟩
  have hnone : account.aggregator = 0 ∧ paymaster.aggregator = 0 := by omega
  rw [if_neg (mt h3.1 hagg)]
  by_cases hopen : account.OpenAt now.toNat ∧ paymaster.OpenAt now.toNat
  · rw [if_neg (not_not.2 hopen |> mt h4.1)]
    constructor <;> simp [hnone, hopen]
  · rw [if_pos (h4.2 hopen)]
    refine ⟨?_, by simp [hnone], by simp [hnone], by simp [hnone], ?_⟩
    · simpa [hnone] using hopen
    · exact iff_of_true ⟨_, _, _, _, rfl, a4, a5, p4, p5⟩ ⟨hnone.1, hnone.2, hopen⟩

/-- **Parsing and verdict.** Every word packs exactly one triple of fields and `parse_window`
reads that triple; a simulation answered with two words ends in one verdict, which accepts
exactly two zero aggregators and two open windows. -/
theorem validation_exact :
    (∀ f : WindowFields, ofBe (parseWindow f.word).aggregator.bytes = f.aggregator ∧
      (parseWindow f.word).validAfter.toNat = f.validAfter ∧
      (parseWindow f.word).validUntil.toNat = f.lastSecond) ∧
    (∀ (data : U256) (f : WindowFields), f.word = data ↔ f = .of data) ∧
    ∀ (entrypoint : Address) (code : Bytes) (op : PackedUserOperation) (now : U64) (raw : ValidationResult),
      ∃ r, (∀ r', Run (simulate entrypoint code op now)
          [⟨.rpc (.simulateValidation entrypoint code op), .ok raw⟩] r' ↔ r' = r) ∧
        VerdictExact (.of raw.returnInfo.accountValidationData) (.of raw.returnInfo.paymasterValidationData)
          now r := by
  refine ⟨parseWindow_word, fun data f => ⟨?_, ?_⟩, fun entrypoint code op now raw => ?_⟩
  · intro h
    rw [← h, WindowFields.of_word]
  · intro h
    rw [h, WindowFields.word_of]
  · exact ⟨judge raw now, fun r' => run_simulate_answered, judge_exact raw now⟩

end EtheraBundler

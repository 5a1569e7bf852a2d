import EtheraBundler.Effects
/-!
# `validator.rs`: `simulateValidation` and the parsed validation data

`parseWindow` splits one packed validation word into aggregator, `validUntil` and
`validAfter`; `judge` is the verdict `simulate` reaches on the two words of a result, in the
order of its checks: account signature, paymaster signature, aggregator, time range.
-/

namespace EtheraBundler

open BigEndian Interact

/-- `SIG_VALIDATION_FAILED` (`validator.rs:14`): `address(1)`. -/
def SIG_VALIDATION_FAILED : Address := ⟨List.replicate 19 0 ++ [1], by simp⟩

/-- `UINT48_MAX` (`validator.rs:18`). -/
def UINT48_MAX : U64 := BitVec.ofNat 64 (2 ^ 48 - 1)

/-- `ValidationWindow` (`validator.rs:28-33`). -/
structure ValidationWindow where
  aggregator : Address
  validAfter : U64
  validUntil : U64
deriving DecidableEq

namespace ValidationWindow

def signatureFailed (w : ValidationWindow) : Bool := w.aggregator = SIG_VALIDATION_FAILED

def requiresAggregator (w : ValidationWindow) : Bool :=
  !w.aggregator.isZero && !w.signatureFailed

def isOutOfTimeRange (w : ValidationWindow) (now : U64) : Bool :=
  now > w.validUntil || now < w.validAfter

end ValidationWindow

/-- `ValidationReport` (`validator.rs:21-26`). -/
structure ValidationReport where
  preOpGas : U256
  prefund : U256
  account : ValidationWindow
  paymaster : ValidationWindow

/-- `ValidationError` (`validator.rs:49-67`). -/
inductive ValidationError where
  | provider (e : ProviderError)
  | accountSignatureFailed
  | paymasterSignatureFailed
  | outOfTimeRange (now aAfter aUntil pAfter pUntil : U64)
  | unsupportedAggregator
deriving DecidableEq

/-- `u64::try_from`. -/
def u64TryFrom (v : U256) : Option U64 :=
  if v.toNat < 2 ^ 64 then some (v.setWidth 64) else none

/-- `parse_window` (`validator.rs:115-136`). -/
def parseWindow (data : U256) : ValidationWindow :=
  let mask160 : U256 := ((1 : U256) <<< 160) - 1
  let mask48 : U256 := UINT48_MAX.setWidth 256
  let aggregatorBits := data &&& mask160
  let aggregator : Address := ⟨(toBeBytes32 aggregatorBits).drop 12, by simp [toBeBytes32]⟩
  let validUntilRaw := (u64TryFrom ((data >>> 160) &&& mask48)).getD UINT48_MAX
  let validUntil := if validUntilRaw = 0 then UINT48_MAX else validUntilRaw
  let validAfter := (u64TryFrom ((data >>> (160 + 48)) &&& mask48)).getD 0
  { aggregator, validAfter, validUntil }

/-- The checks of `simulate` on a returned result (`validator.rs:83-110`). -/
def judge (raw : ValidationResult) (nowUnix : U64) : Except ValidationError ValidationReport :=
  let account := parseWindow raw.returnInfo.accountValidationData
  let paymaster := parseWindow raw.returnInfo.paymasterValidationData
  if account.signatureFailed then .error .accountSignatureFailed
  else if paymaster.signatureFailed then .error .paymasterSignatureFailed
  else if account.requiresAggregator || paymaster.requiresAggregator then
    .error .unsupportedAggregator
  else if account.isOutOfTimeRange nowUnix || paymaster.isOutOfTimeRange nowUnix then
    .error (.outOfTimeRange nowUnix account.validAfter account.validUntil paymaster.validAfter
      paymaster.validUntil)
  else
    .ok { preOpGas := raw.returnInfo.preOpGas, prefund := raw.returnInfo.prefund, account, paymaster }

/-- `simulate` (`validator.rs:72-111`). -/
def simulate (entrypoint : Address) (simulationsCode : Bytes) (op : PackedUserOperation)
    (nowUnix : U64) : Prog Op Op.Ans ValidationError ValidationReport := do
  let raw ← await .provider (.simulateValidation entrypoint simulationsCode op)
  Prog.exit (judge raw nowUnix)

/-- An answered simulation ends in its verdict. -/
theorem run_simulate_answered {entrypoint : Address} {code : Bytes} {op : PackedUserOperation} {now : U64}
    {raw : ValidationResult} {r : Except ValidationError ValidationReport} :
    Run (simulate entrypoint code op now) [⟨.rpc (.simulateValidation entrypoint code op), .ok raw⟩] r ↔
      r = judge raw now := by
  show Run (.ask _ _) _ _ ↔ _
  rw [run_ask]
  constructor
  · rintro ⟨x, t, he, h⟩
    cases he
    exact (run_exit.1 h).2
  · intro h
    exact ⟨_, [], rfl, run_exit.2 ⟨rfl, h⟩⟩

/-- A simulation that passes asked the node once and accepted its answer. -/
theorem run_simulate_ok {entrypoint : Address} {code : Bytes} {op : PackedUserOperation} {now : U64}
    {t : BundlerTrace} {rep : ValidationReport} :
    Run (simulate entrypoint code op now) t (.ok rep) ↔
      ∃ v, t = [⟨.rpc (.simulateValidation entrypoint code op), .ok v⟩] ∧ judge v now = .ok rep := by
  rw [simulate, run_bind_ok]
  constructor
  · rintro ⟨t₁, t₂, v, rfl, h1, h2⟩
    obtain ⟨rfl, hr⟩ := run_exit.1 h2
    exact ⟨v, by rw [run_await_ok.1 h1, List.append_nil], hr.symm⟩
  · rintro ⟨v, rfl, h⟩
    exact ⟨_, [], v, by simp, run_await_ok.2 rfl, run_exit.2 ⟨rfl, h.symm⟩⟩

/-- A simulation that fails did so on the node's error or on its verdict. -/
theorem run_simulate_error {entrypoint : Address} {code : Bytes} {op : PackedUserOperation} {now : U64}
    {t : BundlerTrace} {e : ValidationError} :
    Run (simulate entrypoint code op now) t (.error e) ↔
      (∃ pe, e = .provider pe ∧ t = [⟨.rpc (.simulateValidation entrypoint code op), .error pe⟩]) ∨
      ∃ v, t = [⟨.rpc (.simulateValidation entrypoint code op), .ok v⟩] ∧
        judge v now = .error e := by
  rw [simulate, run_bind_error, run_await_error]
  refine or_congr_right ?_
  constructor
  · rintro ⟨t₁, t₂, v, rfl, h1, h2⟩
    obtain ⟨rfl, hr⟩ := run_exit.1 h2
    exact ⟨v, by rw [run_await_ok.1 h1, List.append_nil], hr.symm⟩
  · rintro ⟨v, rfl, h⟩
    exact ⟨_, [], v, by simp, run_await_ok.2 rfl, run_exit.2 ⟨rfl, h.symm⟩⟩

end EtheraBundler

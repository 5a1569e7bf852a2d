import EtheraBundler.Errors
/-!
# `bundler.rs`: the build pipeline

| here | there |
| --- | --- |
| `checkPerOpFees` | `Bundler::check_per_op_fees` (`bundler.rs:254-282`) |
| `prefundRequirement`, `checkPrefund` | `Bundler::check_prefund` (`:287-319`), the sponsor and the amount split off |
| `chooseOuterFees`, `updateMin`, `minU256`, `maxU256`, `u128FromU256` | `:325-376` |
| `checkOp`, `opLoop` | the body of the per-op loop and the loop (`:133-161`) |
| `prepare` | `:129-182`, everything between the sanity checks and the lock |
| `buildTx`, `broadcast`, `signAndSend` | `:195-215`, the part under `_guard` |
| `signed` | `:189-216`: the guard is taken in submit mode only and released on every exit |
| `awaitReceipt` | `:218-239` |
| `buildInner` | `Bundler::build_inner` (`:108-252`) |

`Exit` is how a call can end other than in `Ok`: an `Err`, or one of the panics the code
contains. The two overflow and assertion panics exist only under the dev profile.
-/

namespace EtheraBundler

open BigEndian Interact Saturating

/-- `RECEIPT_TIMEOUT` (`bundler.rs:40`), in seconds. -/
def RECEIPT_TIMEOUT : Nat := 30

/-- The places `build_inner` can panic at. -/
inductive Panic where
  /-- `expect("non-empty batch")` (`:180-181`). -/
  | nonEmptyBatch
  /-- `attempt to multiply with overflow` at `estimated * u64::from(..)` (`:175`). -/
  | mulOverflow
  /-- `debug_assert_eq!(submitted, hash, ..)` (`:215`). -/
  | submittedHashMismatch
deriving DecidableEq

inductive Exit where
  | err (e : BundlerError)
  | panic (p : Panic)
deriving DecidableEq

/-- The bundler's methods: interaction programs that may exit early. -/
abbrev M := Prog Op Op.Ans Exit

/-- `Bundler` (`bundler.rs:42-56`). The signer is fixed by its address, the lock and the
cancellation token belong to the surroundings of a call. -/
structure Bundler where
  cfg : BundlerConfig
  signerAddress : Address
  simulationsCode : Bytes
  build : BuildProfile

/-- `result.map_err(conv)?`. -/
def orErr {ε α : Type} (conv : ε → BundlerError) (r : Except ε α) : M α :=
  Prog.exit (r.mapError fun e => .err (conv e))

/-- `self.provider.method(..).await?`. -/
def rpc (q : Query) : M q.Val := await (fun e => .err (.provider e)) q

/-! ## Fee policy -/

/-- `check_per_op_fees` (`bundler.rs:254-282`). -/
def checkPerOpFees (b : Bundler) (i : Nat) (op : UserOpV07) (baseFee : U256) :
    Except BundlerError Unit :=
  if op.maxPriorityFeePerGas > op.maxFeePerGas then
    .error (.invalidUserOp i "maxPriorityFeePerGas > maxFeePerGas")
  else if op.maxPriorityFeePerGas < b.cfg.minPriorityFeeWei then
    .error (.priorityFeeTooLow i (decimal op.maxPriorityFeePerGas) (decimal b.cfg.minPriorityFeeWei))
  else
    let required := satAdd baseFee b.cfg.minPriorityFeeWei
    if op.maxFeePerGas < required then
      .error (.feeCapTooLow i (decimal op.maxFeePerGas) (decimal required))
    else .ok ()

/-- `update_min` (`bundler.rs:348-353`). -/
def updateMin (slot : Option U256) (candidate : U256) : Option U256 :=
  match slot with
  | some current => if current ≤ candidate then slot else some candidate
  | none => some candidate

/-- `min_u256` (`bundler.rs:355-361`). -/
def minU256 (x y : U256) : U256 := if x ≤ y then x else y

/-- `max_u256` (`bundler.rs:363-369`). -/
def maxU256 (x y : U256) : U256 := if x ≥ y then x else y

/-- `choose_outer_fees` (`bundler.rs:325-345`). -/
def chooseOuterFees (b : Bundler) (baseFee suggestedTip minUserTip minUserFeeCap : U256) :
    Except BundlerError (U256 × U256) :=
  let desiredTip := maxU256 b.cfg.minPriorityFeeWei suggestedTip
  let tip := minU256 desiredTip minUserTip
  let feeCap := minUserFeeCap
  let required := satAdd baseFee tip
  if feeCap < required then .error (.feeCapTooLow usizeMax (decimal feeCap) (decimal required))
  else .ok (tip, feeCap)

/-- The error of `u128_from_u256`. -/
def exceedsU128Error (field : String) : BundlerError := .invalidUserOp usizeMax (field ++ " exceeds u128")

/-- `u128_from_u256` (`bundler.rs:371-376`). -/
def u128FromU256 (v : U256) (field : String) : Except BundlerError U128 :=
  if v.toNat < 2 ^ 128 then .ok (v.setWidth 128) else .error (exceedsU128Error field)

/-! ## Prefund -/

/-- The sponsor and the required prefund of `check_prefund` (`bundler.rs:293-304`). -/
def prefundRequirement (op : UserOpV07) (packed : PackedUserOperation) :
    Except PackError (Address × U256) := do
  let (sponsor, pmVer, pmPost) :=
    match ← parsePaymasterAndData packed.paymasterAndData with
    | some (pm, ver, post) => if pm.isZero then (op.sender, 0, 0) else (pm, ver, post)
    | none => (op.sender, 0, 0)
  let totalGas :=
    satAdd (satAdd (satAdd (satAdd op.verificationGasLimit op.callGasLimit) pmVer) pmPost)
      op.preVerificationGas
  return (sponsor, satMul totalGas op.maxFeePerGas)

/-- `check_prefund` (`bundler.rs:287-319`). -/
def checkPrefund (b : Bundler) (i : Nat) (op : UserOpV07) (packed : PackedUserOperation) : M Unit := do
  let (sponsor, required) ← orErr .pack (prefundRequirement op packed)
  let deposit ← rpc (.balanceOf b.cfg.entrypointAddress sponsor)
  Prog.failIf (deposit < required)
    (.err (.insufficientDeposit i (debugHex sponsor) (decimal required) (decimal deposit)))

/-! ## The per-op loop -/

/-- The accumulators of the loop (`bundler.rs:133-136`). -/
structure LoopAcc where
  packedOps : List PackedUserOperation
  userOpHashes : List B256
  minUserTip : Option U256
  minUserFeeCap : Option U256

def LoopAcc.empty : LoopAcc := ⟨[], [], none, none⟩

/-- The accumulators after an op got through (`bundler.rs:156-160`). -/
def LoopAcc.push (acc : LoopAcc) (op : UserOpV07) (packed : PackedUserOperation) (hash : B256) : LoopAcc where
  packedOps := acc.packedOps ++ [packed]
  userOpHashes := acc.userOpHashes ++ [hash]
  minUserTip := updateMin acc.minUserTip op.maxPriorityFeePerGas
  minUserFeeCap := updateMin acc.minUserFeeCap op.maxFeePerGas

/-- One turn of the loop (`bundler.rs:139-160`). -/
def checkOp (b : Bundler) (baseFee : U256) (nowUnix : U64) (i : Nat) (acc : LoopAcc) (op : UserOpV07) :
    M LoopAcc := do
  orErr id (checkPerOpFees b i op baseFee)
  let packed ← orErr .pack (pack op)
  checkPrefund b i op packed
  let _ ← (simulate b.cfg.entrypointAddress b.simulationsCode packed nowUnix).mapFail
    fun e => .err (.validation e)
  let hash ← rpc (.userOpHash b.cfg.entrypointAddress packed)
  return acc.push op packed hash

/-- `for (i, op) in ops.iter().enumerate()` (`bundler.rs:138`). -/
def opLoop (b : Bundler) (baseFee : U256) (nowUnix : U64) : Nat → LoopAcc → List UserOpV07 → M LoopAcc
  | _, acc, [] => return acc
  | i, acc, op :: ops => do
    let acc ← checkOp b baseFee nowUnix i acc op
    opLoop b baseFee nowUnix (i + 1) acc ops

/-! ## Gas and outer fees -/

/-- `estimated.saturating_add(estimated * u64::from(self.cfg.gas_margin_pct) / 100)`
(`bundler.rs:175`). The product is a plain `*`: it wraps unless overflow checks are on. -/
def gasWithMargin (b : Bundler) (estimated : U64) : Except Panic U64 :=
  let pct := b.cfg.gasMarginPct.setWidth 64
  if b.build.overflowChecks = true ∧ 2 ^ 64 ≤ estimated.toNat * pct.toNat then .error .mulOverflow
  else .ok (satAdd estimated (estimated * pct / 100))

/-- `slot.expect("non-empty batch")`. -/
def expectNonEmpty (slot : Option U256) : Except Panic U256 :=
  match slot with
  | some v => .ok v
  | none => .error .nonEmptyBatch

def orPanic {α : Type} (r : Except Panic α) : M α := Prog.exit (r.mapError .panic)

/-- What is settled before the lock. -/
structure Prepared where
  callData : Bytes
  gas : U64
  outerTip : U256
  outerFeeCap : U256
  userOpHashes : List B256

/-- `bundler.rs:129-182`. -/
def prepare (A : Alloy) (b : Bundler) (ops : List UserOpV07) : M Prepared := do
  let baseFee ← rpc .baseFee
  let suggestedTip ← rpc .maxPriorityFee
  let nowUnix ← unixNow
  let acc ← opLoop b baseFee nowUnix 0 .empty ops
  let callData := A.handleOpsAbiEncode acc.packedOps b.signerAddress
  let estimated ← rpc (.estimateHandleOpsGas b.signerAddress b.cfg.entrypointAddress callData)
  let gas ← orPanic (gasWithMargin b estimated)
  let minUserTip ← orPanic (expectNonEmpty acc.minUserTip)
  let minUserFeeCap ← orPanic (expectNonEmpty acc.minUserFeeCap)
  let fees ← orErr id (chooseOuterFees b baseFee suggestedTip minUserTip minUserFeeCap)
  return ⟨callData, gas, fees.1, fees.2, acc.userOpHashes⟩

/-! ## Sign, broadcast, receipt -/

/-- The transaction literal (`bundler.rs:197-207`). -/
def buildTx (b : Bundler) (p : Prepared) (nonce : U64) : Except BundlerError TxEip1559 := do
  let maxFeePerGas ← u128FromU256 p.outerFeeCap "outer maxFeePerGas"
  let maxPriorityFeePerGas ← u128FromU256 p.outerTip "outer maxPriorityFeePerGas"
  return {
    chainId := b.cfg.chainId
    nonce := nonce
    gasLimit := p.gas
    maxFeePerGas := maxFeePerGas
    maxPriorityFeePerGas := maxPriorityFeePerGas
    «to» := .call b.cfg.entrypointAddress
    value := 0
    accessList := []
    input := p.callData }

/-- `raw` and `hash` (`bundler.rs:210-211`). -/
structure SignedTx where
  raw : Bytes
  hash : B256

def SignedTx.of (A : Alloy) (envelope : TxEnvelope) : SignedTx :=
  ⟨A.encoded2718 envelope, A.txHash envelope⟩

/-- The submit-mode broadcast (`bundler.rs:213-215`). -/
def broadcast (b : Bundler) (opts : BuildOpts) (tx : SignedTx) : M Unit :=
  if opts.submit then do
    let submitted ← rpc (.sendRawTransaction tx.raw)
    Prog.failIf (b.build.debugAssertions = true ∧ submitted ≠ tx.hash) (.panic .submittedHashMismatch)
  else return ()

/-- What runs while `_guard` is alive (`bundler.rs:195-215`). -/
def signAndSend (A : Alloy) (b : Bundler) (opts : BuildOpts) (p : Prepared) : M SignedTx := do
  let nonce ← rpc (.pendingNonce b.signerAddress)
  let tx ← orErr id (buildTx b p nonce)
  let envelope ← signEip1559 (fun e => .err (.signer e)) tx
  broadcast b opts (.of A envelope)
  return .of A envelope

/-- `_guard` (`bundler.rs:189-216`): held over `signAndSend` in submit mode, dropped by
`drop(_guard)` after the broadcast and by scope on every `?` before it. -/
def signed (A : Alloy) (b : Bundler) (opts : BuildOpts) (p : Prepared) : M SignedTx :=
  if opts.submit then Prog.withGuard .lock .unlock (signAndSend A b opts p)
  else signAndSend A b opts p

/-- The revert reason recovered after a failed receipt (`bundler.rs:226-233`). -/
def revertReason (A : Alloy) : Option Bytes → HandleOpsRevertReason
  | some data => decodeHandleOpsRevert A data
  | none => .unknown []

/-- `bundler.rs:218-239`. -/
def awaitReceipt (A : Alloy) (b : Bundler) (opts : BuildOpts) (callData : Bytes) (hash : B256) : M Unit :=
  if opts.submit then do
    let receipt ← rpc (.waitForReceipt hash RECEIPT_TIMEOUT)
    match receipt with
    | none => .fail (.err (.receiptTimeout hash))
    | some receipt =>
      if receipt.success then return ()
      else do
        let data ← rpc (.tryCallForRevert b.signerAddress b.cfg.entrypointAddress callData)
        .fail (.err (.handleOpsReverted hash receipt.blockNumber (revertReason A data)))
  else return ()

/-- The response (`bundler.rs:242-251`). -/
def response (b : Bundler) (p : Prepared) (tx : SignedTx) : SignedTxResp where
  raw := tx.raw
  hash := tx.hash
  «to» := b.cfg.entrypointAddress
  chainId := b.cfg.chainId
  gas := p.gas.setWidth 256
  maxFeePerGas := p.outerFeeCap
  maxPriorityFeePerGas := p.outerTip
  userOpHashes := p.userOpHashes

/-- The checks before anything is asked (`bundler.rs:113-127`). -/
def sanity (b : Bundler) (ops : List UserOpV07) (opts : BuildOpts) : Except BundlerError Unit :=
  if opts.chainId ≠ b.cfg.chainId then .error (.wrongChainId b.cfg.chainId opts.chainId)
  else if ops = [] then .error (.invalidBatch "empty userOps")
  else if ops.length > b.cfg.maxBatchSize then .error (.batchTooLarge ops.length b.cfg.maxBatchSize)
  else .ok ()

/-- `build_inner` (`bundler.rs:108-252`). -/
def buildInner (A : Alloy) (b : Bundler) (ops : List UserOpV07) (opts : BuildOpts) : M SignedTxResp := do
  orErr id (sanity b ops opts)
  let p ← prepare A b ops
  let tx ← signed A b opts p
  awaitReceipt A b opts p.callData tx.hash
  return response b p tx

end EtheraBundler

import EtheraBundler.Cancel
import EtheraBundler.Gate
import EtheraBundler.Wire
/-!
# `rpc.rs`: `ethera_buildSignedUserOpsTx`

| here | there |
| --- | --- |
| `Params` | the two positional parameters (`rpc.rs:17-22`), decoded by `types.rs`'s derives |
| `BundlerError.display` and the two below it | the `Display`s of `errors.rs:34-95`, `:244-261`, `validator.rs:46-64` |
| `ErrorObject` | `ErrorObjectOwned::owned(code, e.to_string(), Some(data))` (`rpc.rs:50-53`) |
| `reply` | what `build_signed_user_ops_tx` hands to the server (`rpc.rs:42-55`) |

* `request_wire` — **what a request says**: a client's request is read as what it was, and whatever is
  read as it says the same, in any order and among anything else.
* `reply_tells` — **what a reply tells the client** about its transaction.
-/

namespace EtheraBundler

open BigEndian Interact Wire

/-! ## Requests -/

structure Params where
  userOps : Json
  opts : Json

def Params.decode (C : AlloyCodecs) (p : Params) : Except DeError Request := do
  let ops ← (UserOpV07.codec C).list.de p.userOps
  let opts ← BuildOpts.codec.de p.opts
  return ⟨ops, opts⟩

def Params.encode (C : AlloyCodecs) (req : Request) : Params where
  userOps := (UserOpV07.codec C).list.ser req.ops
  opts := BuildOpts.codec.ser req.opts

/-- What parameters say. -/
structure Params.Says (C : AlloyCodecs) (p : Params) (req : Request) : Prop where
  ops : ∃ xs, p.userOps = .arr xs ∧
    List.Forall₂ (fun x op => (UserOpV07.schema C).Says x (UserOpV07.equivFields op)) xs req.ops
  opts : BuildOpts.schema.Says p.opts (BuildOpts.equivFields req.opts)

theorem Params.decode_iff {C : AlloyCodecs} {p : Params} {req : Request} : p.decode C = .ok req ↔ p.Says C req := by
  have hops : (UserOpV07.codec C).list.de p.userOps = .ok req.ops ↔ ∃ xs, p.userOps = .arr xs ∧
      List.Forall₂ (fun x op => (UserOpV07.schema C).Says x (UserOpV07.equivFields op)) xs req.ops := by
    rcases p.userOps with - | - | - | - | xs | -
    case arr =>
      rw [Codec.list_de_iff]
      simp [UserOpV07.codec, Schema.record_de_iff]
    all_goals
      refine iff_of_false ?_ ?_
      · intro h
        cases h
      · rintro ⟨xs, h, -⟩
        cases h
  have hopts : BuildOpts.codec.de p.opts = .ok req.opts ↔
      BuildOpts.schema.Says p.opts (BuildOpts.equivFields req.opts) := Schema.record_de_iff
  have hdecode : p.decode C = .ok req ↔
      (UserOpV07.codec C).list.de p.userOps = .ok req.ops ∧ BuildOpts.codec.de p.opts = .ok req.opts := by
    unfold Params.decode
    obtain ⟨ops, opts⟩ := req
    rcases (UserOpV07.codec C).list.de p.userOps with err | ops'
    · simp [bind, Except.bind]
    rcases BuildOpts.codec.de p.opts with err | opts'
    · simp [bind, Except.bind]
    · simp [bind, Except.bind, pure, Except.pure]
  rw [hdecode, hops, hopts]
  exact ⟨fun h => ⟨h.1, h.2⟩, fun h => ⟨h.ops, h.opts⟩⟩

/-- **Round trip** of a request. -/
theorem Params.decode_encode {C : AlloyCodecs} (h : C.Lawful) (req : Request) :
    (Params.encode C req).decode C = .ok req := by
  unfold Params.decode Params.encode
  rw [(Codec.lawful_list (UserOpV07.lawful_codec h).de_ser).de_ser, BuildOpts.lawful_codec.de_ser]
  rfl

/-- Objects with the same fields say the same ops. -/
theorem says_of_sameFields {C : AlloyCodecs} {objs objs' : List (List (String × Json))} {ops : List UserOpV07}
    (h : List.Forall₂ (UserOpV07.schema C).SameFields objs objs')
    (hs : List.Forall₂ (fun x op => (UserOpV07.schema C).Says x (UserOpV07.equivFields op)) (objs.map .obj) ops) :
    List.Forall₂ (fun x op => (UserOpV07.schema C).Says x (UserOpV07.equivFields op)) (objs'.map .obj) ops := by
  induction h generalizing ops with
  | nil => exact hs
  | cons hfields _ ih =>
    rw [List.map_cons] at hs ⊢
    cases hs with
    | cons hsays hs => exact .cons (hfields.means hsays) (ih hs)

/-- **What a request says.** A client's request is read as what it was. A request is accepted exactly
for what its values say; fields in another order, and fields the bundler does not know, make no
difference. -/
theorem request_wire (C : AlloyCodecs) (h : C.Lawful) :
    (∀ req, (Params.encode C req).decode C = .ok req) ∧
    (∀ p req, Params.decode C p = .ok req ↔ p.Says C req) ∧
    ∀ objs objs' o o' req, List.Forall₂ (UserOpV07.schema C).SameFields objs objs' →
      BuildOpts.schema.SameFields o o' → Params.decode C ⟨.arr (objs.map .obj), .obj o⟩ = .ok req →
      Params.decode C ⟨.arr (objs'.map .obj), .obj o'⟩ = .ok req := by
  refine ⟨Params.decode_encode h, fun p req => Params.decode_iff, fun objs objs' o o' req hobjs ho hreq => ?_⟩
  obtain ⟨⟨xs, hxs, hsays⟩, hopts⟩ := Params.decode_iff.1 hreq
  cases hxs
  exact Params.decode_iff.2 ⟨⟨_, rfl, says_of_sameFields hobjs hsays⟩, ho.means hopts⟩

/-- A submit, and a request that leaves `submit` out and has a field nobody knows. -/
theorem request_wire_happy :
    Params.decode hexCodecs (Params.encode hexCodecs ⟨[happyOp], submitOpts⟩) = .ok ⟨[happyOp], submitOpts⟩ ∧
    Params.decode hexCodecs ⟨.arr [], .obj [("mode", .str "fast"), ("chainId", .num 31337)]⟩ =
      .ok ⟨[], ⟨31337, true⟩⟩ := by
  obtain ⟨htrip, -, hsame⟩ := request_wire hexCodecs lawful_hexCodecs
  exact ⟨htrip _, hsame [] [] [("chainId", .num 31337)] _ _ .nil (List.Perm.refl _) rfl⟩

/-! ## Errors -/

/-- `Display` (`errors.rs:244-261`). -/
def HandleOpsRevertReason.display : HandleOpsRevertReason → String
  | .failedOp opIndex reason => "FailedOp[" ++ toString opIndex.toNat ++ "]: " ++ reason
  | .failedOpWithRevert opIndex reason _ => "FailedOpWithRevert[" ++ toString opIndex.toNat ++ "]: " ++ reason
  | .signatureValidationFailed aggregator => "SignatureValidationFailed: aggregator=" ++ debugHex aggregator
  | .postOpReverted _ => "PostOpReverted"
  | .standardError m => "Error(" ++ m ++ ")"
  | .panic c => "Panic(" ++ Hex.quantity c.toNat ++ ")"
  | .unknown b => "unknown revert: 0x" ++ hexEncode b

/-- `Display` (`validator.rs:46-64`). -/
def ValidationError.display : ValidationError → String
  | .provider e => "provider error: " ++ e.display
  | .accountSignatureFailed => "account signature validation failed"
  | .paymasterSignatureFailed => "paymaster signature validation failed"
  | .outOfTimeRange now aAfter aUntil pAfter pUntil =>
    "userop out of time range (now=" ++ toString now.toNat ++ ", account=[" ++ toString aAfter.toNat ++ ".." ++
      toString aUntil.toNat ++ "], paymaster=[" ++ toString pAfter.toNat ++ ".." ++ toString pUntil.toNat ++ "])"
  | .unsupportedAggregator => "aggregator-signed userops are not supported"

/-- `Display` (`errors.rs:34-95`). -/
def BundlerError.display : BundlerError → String
  | .wrongChainId expected got =>
    "wrong chainId: expected " ++ toString expected.toNat ++ ", got " ++ toString got.toNat
  | .invalidBatch reason => "invalid userOps batch: " ++ reason
  | .batchTooLarge got max => "batch too large: " ++ toString got ++ " > " ++ toString max
  | .invalidUserOp opIndex reason => "op " ++ toString opIndex ++ ": " ++ reason
  | .priorityFeeTooLow opIndex got min =>
    "op " ++ toString opIndex ++ ": priority fee " ++ got ++ " below bundler minimum " ++ min
  | .feeCapTooLow opIndex feeCap required =>
    "op " ++ toString opIndex ++ ": maxFeePerGas " ++ feeCap ++ " below baseFee+tip " ++ required
  | .insufficientDeposit opIndex sponsor required deposit =>
    "op " ++ toString opIndex ++ ": insufficient deposit on " ++ sponsor ++ ": required " ++ required ++
      ", deposit " ++ deposit
  | .cancelled => "bundler is shutting down"
  | .receiptTimeout txHash => "receipt for " ++ debugHex txHash ++ " not found within timeout"
  | .handleOpsReverted _ _ reason => "handleOps reverted on-chain: " ++ reason.display
  | .pack e => e.display
  | .validation e => e.display
  | .provider e => e.display
  | .signer e => e.display

structure ErrorObject where
  code : Int
  message : String
  data : Payload

/-- `classify(&e)` and `e.to_string()` (`rpc.rs:50-53`). -/
def ErrorObject.ofError (e : BundlerError) : ErrorObject := ⟨e.classify.1, e.display, e.classify.2⟩

/-- Raised after the broadcast, with its hash. -/
def BundlerError.late : BundlerError → Bool
  | .receiptTimeout _ => true
  | .handleOpsReverted _ _ _ => true
  | _ => false

/-- What a check, or the node at a check, ends a call with: no hash, and not `WrongChainId`. -/
def Exit.ofChecks : Exit → Bool
  | .err (.wrongChainId _ _) => false
  | .err e => !e.late
  | .panic _ => true

theorem not_late_of_ofChecks {e : BundlerError} (h : (Exit.err e).ofChecks = true) : e.late = false := by
  cases e <;> first | rfl | cases h

theorem txHash_of_not_late {e : BundlerError} (h : e.late = false) : e.classify.2.get? "txHash" = none := by
  refine txHash_get?_eq_none ?_ ?_
  · rintro hash rfl
    cases h
  · rintro hash n r rfl
    cases h

variable {A : Alloy} {b : Bundler} {ops : List UserOpV07} {opts : BuildOpts} {t : BundlerTrace}

theorem early_orErr {ε α : Type} {conv : ε → BundlerError} {r : Except ε α}
    (h : ∀ e, r = .error e → (Exit.err (conv e)).ofChecks = true) :
    FailsWith (fun x => x.ofChecks = true) (orErr conv r) := by
  intro t e he
  obtain ⟨-, x, hr, rfl⟩ := run_orErr_error.1 he
  exact h x hr

theorem early_rpc {q : Query} : FailsWith (fun x => x.ofChecks = true) (rpc q) := by
  intro t e he
  obtain ⟨pe, rfl, -⟩ := run_await_error.1 he
  rfl

theorem early_orPanic {α : Type} {r : Except Panic α} : FailsWith (fun x => x.ofChecks = true) (orPanic r) := by
  intro t e he
  obtain ⟨-, p, -, rfl⟩ := run_orPanic_error.1 he
  rfl

theorem early_checkOp {baseFee : U256} {nowUnix : U64} {i : Nat} {acc : LoopAcc} {op : UserOpV07} :
    FailsWith (fun x => x.ofChecks = true) (checkOp b baseFee nowUnix i acc op) := by
  unfold checkOp checkPrefund
  refine FailsWith.bind (early_orErr fun e he => ?_) fun _ _ _ => ?_
  · unfold checkPerOpFees at he
    simp only at he
    split at he
    · cases he
      rfl
    split at he
    · cases he
      rfl
    split at he
    · cases he
      rfl
    · cases he
  refine FailsWith.bind (early_orErr fun _ _ => rfl) fun _ _ _ => FailsWith.bind ?_ fun _ _ _ => ?_
  · refine FailsWith.bind (early_orErr fun _ _ => rfl) fun _ _ _ => ?_
    exact FailsWith.bind early_rpc fun _ _ _ => failsWith_failIf rfl
  refine FailsWith.bind (FailsWith.mapFail fun _ _ _ => rfl) fun _ _ _ => ?_
  exact FailsWith.bind early_rpc fun _ _ _ => failsWith_ret

theorem early_opLoop {baseFee : U256} {nowUnix : U64} : ∀ {ops : List UserOpV07} {i : Nat} {acc : LoopAcc},
    FailsWith (fun x => x.ofChecks = true) (opLoop b baseFee nowUnix i acc ops)
  | [], _, _ => failsWith_ret
  | _ :: _, _, _ => FailsWith.bind early_checkOp fun _ _ _ => early_opLoop

theorem early_prepare : FailsWith (fun x => x.ofChecks = true) (prepare A b ops) := by
  unfold prepare
  refine FailsWith.bind early_rpc fun _ _ _ => FailsWith.bind early_rpc fun _ _ _ => ?_
  refine FailsWith.bind ?_ fun _ _ _ => ?_
  · intro t e he
    obtain ⟨_, -, h⟩ := run_unixNow.1 he
    cases h
  refine FailsWith.bind early_opLoop fun _ _ _ => FailsWith.bind early_rpc fun _ _ _ => ?_
  refine FailsWith.bind early_orPanic fun _ _ _ => FailsWith.bind early_orPanic fun _ _ _ => ?_
  refine FailsWith.bind early_orPanic fun _ _ _ => ?_
  refine FailsWith.bind (early_orErr fun e he => ?_) fun _ _ _ => failsWith_ret
  unfold chooseOuterFees at he
  simp only at he
  split at he
  · cases he
    rfl
  · cases he

theorem late_sanity {e : BundlerError} (h : sanity b ops opts = .error e) : e.late = false := by
  unfold sanity at h
  split at h
  · cases h
    rfl
  split at h
  · cases h
    rfl
  split at h
  · cases h
    rfl
  · cases h

/-- What the error of a call tells about its transaction. -/
structure Told (A : Alloy) (t : BundlerTrace) (e : BundlerError) : Prop where
  /-- A hash it names is that of an accepted transaction. -/
  hash : ∀ v, e.classify.2.get? "txHash" = some v → ∃ env, Broadcast A t env ∧ v = .str (debugHex (A.txHash env))
  /-- Without one, any code but that of an internal error says that nothing was sent. -/
  unsent : e.classify.2.get? "txHash" = none → e.classify.1 ≠ INTERNAL_ERROR →
    ∀ raw x, ⟨.rpc (.sendRawTransaction raw), x⟩ ∉ t

theorem Told.of_early {e : BundlerError} (he : e.late = false)
    (h : e.classify.1 = INTERNAL_ERROR ∨ ∀ ev ∈ t, ev.1.isCheck) : Told A t e where
  hash v hv := by
    rw [txHash_of_not_late he] at hv
    cases hv
  unsent _ hcode raw x hm := by
    rcases h with h | h
    · exact hcode h
    · exact h _ hm

theorem Told.of_hash {e : BundlerError} {env : TxEnvelope} (he : e.CarriesTxHash (A.txHash env))
    (h : Broadcast A t env) : Told A t e where
  hash v hv := by
    rw [BundlerError.CarriesTxHash, hv, Option.some.injEq] at he
    exact ⟨env, h, he⟩
  unsent hnone := by
    rw [BundlerError.CarriesTxHash, hnone] at he
    cases he

theorem told {e : BundlerError} (h : Run (buildInner A b ops opts) t (.error (.err e))) : Told A t e := by
  have hcall := run_buildInner_cases h
  generalize hr : Except.error (Exit.err e) = r at hcall
  cases hcall with
  | insane e' he =>
    cases hr
    exact .of_early (late_sanity he) (Or.inr (by simp))
  | unprepared t x hx =>
    cases hr
    exact .of_early (not_late_of_ofChecks (early_prepare t _ hx)) (Or.inr fun ev hm => only_prepare.mem hx hm)
  | unsigned s u x hu =>
    cases hr
    cases hu with
    | nonceFailed pe => exact .of_early rfl (Or.inl rfl)
    | unbuildable nonce e' he =>
      rw [buildTx_ok s] at he
      cases he
    | signFailed nonce tx se htx => exact .of_early rfl (Or.inl rfl)
    | sendFailed nonce env pe hs htx => exact .of_early rfl (Or.inl rfl)
  | signed s u v tx w hu hv =>
    cases hu with
    | signOnly nonce env hs htx =>
      cases hv with
      | signOnly _ => cases hr
      | waitFailed _ hs' | timeout hs' | succeeded _ hs' _ | replayFailed _ _ hs' _ | reverted _ _ hs' _ =>
        rw [hs] at hs'
        cases hs'
    | sent nonce env submitted hs htx hd =>
      have hsent : Broadcast A (s.events A ++ (guardEvents opts (sentEvents A b nonce env submitted) ++ v)) env :=
        broadcast_call.2 (broadcast_sentEvents v)
      cases hv with
      | signOnly _ => cases hr
      | waitFailed pe _ =>
        cases hr
        exact .of_early rfl (Or.inl rfl)
      | timeout _ =>
        cases hr
        exact .of_hash (receiptTimeout_carriesTxHash _) hsent
      | succeeded receipt _ _ => cases hr
      | replayFailed receipt pe _ _ =>
        cases hr
        exact .of_early rfl (Or.inl rfl)
      | reverted receipt data _ _ =>
        cases hr
        exact .of_hash (handleOpsReverted_carriesTxHash _ _ _) hsent

/-! ## Replies -/

inductive Reply where
  | result (j : Json)
  | error (o : ErrorObject)

/-- What the server is handed for a call, once it has returned. A panic is no reply. -/
def reply (C : AlloyCodecs) (c : Call Op Op.Ans Exit SignedTxResp) : Option Reply :=
  match returned c with
  | some (.ok resp) => some (.result ((SignedTxResp.codec C).ser resp))
  | some (.error (.err e)) => some (.error (.ofError e))
  | _ => none

theorem reply_cases {C : AlloyCodecs} {c : Call Op Op.Ans Exit SignedTxResp} {a : Reply} (h : reply C c = some a) :
    (∃ resp, returned c = some (.ok resp) ∧ a = .result ((SignedTxResp.codec C).ser resp)) ∨
      ∃ e, returned c = some (.error (.err e)) ∧ a = .error (.ofError e) := by
  unfold reply at h
  split at h
  · cases h
    exact Or.inl ⟨_, ‹_›, rfl⟩
  · cases h
    exact Or.inr ⟨_, ‹_›, rfl⟩
  · cases h

/-- The codes `classify` can give (`errors.rs:18-32`). -/
def errorCodes : List Int :=
  [INVALID_PARAMS, INTERNAL_ERROR, SIMULATE_VALIDATION_REJECTED, PAYMASTER_REJECTED, OUT_OF_TIME_RANGE,
    ACCOUNT_VALIDATION_REVERTED]

/-- The payload is an object: its keys are distinct, and its `reason` is text. -/
structure ErrorObject.WellFormed (o : ErrorObject) : Prop where
  code : o.code ∈ errorCodes
  keys : (o.data.map Prod.fst).Nodup
  reason : ∃ s, o.data.get? "reason" = some (.str s)

theorem ErrorObject.WellFormed.set {code : Int} {message : String} {data : Payload}
    (h : ErrorObject.WellFormed ⟨code, message, data⟩) {key : String} (value : JsonVal) (hkey : key ≠ "reason") :
    ErrorObject.WellFormed ⟨code, message, data.set key value⟩ where
  code := h.code
  keys := by
    have hsub : ((data.filter (·.1 != key)).map Prod.fst).Sublist (data.map Prod.fst) := List.filter_sublist.map _
    refine List.nodup_cons.2 ⟨?_, h.keys.sublist hsub⟩
    simp
  reason := by
    obtain ⟨s, hs⟩ := h.reason
    exact ⟨s, (Payload.get?_set_of_ne data value (Ne.symm hkey)).trans hs⟩

theorem wellFormed_revert (r : HandleOpsRevertReason) (message : String) :
    ErrorObject.WellFormed ⟨r.classify.1, message, r.classify.2⟩ where
  code := by
    cases r with
    | failedOp opIndex reason =>
      simp only [HandleOpsRevertReason.classify]
      split <;> simp [errorCodes]
    | failedOpWithRevert opIndex reason inner =>
      simp only [HandleOpsRevertReason.classify]
      split <;> simp [errorCodes]
    | _ => simp [HandleOpsRevertReason.classify, errorCodes]
  keys := by cases r <;> simp [HandleOpsRevertReason.classify]
  reason := by cases r <;> exact ⟨_, rfl⟩

theorem wellFormed_ofError (e : BundlerError) : (ErrorObject.ofError e).WellFormed := by
  cases e with
  | handleOpsReverted txHash blockNumber r =>
    exact ((wellFormed_revert r _).set (.str (debugHex txHash)) (by decide)).set (.num blockNumber.toNat) (by decide)
  | validation e =>
    refine ⟨?_, ?_, ?_⟩
    · cases e <;> simp [ErrorObject.ofError, BundlerError.classify, errorCodes]
    · cases e <;> simp [ErrorObject.ofError, BundlerError.classify]
    · cases e <;> exact ⟨_, rfl⟩
  | _ =>
    refine ⟨?_, ?_, _, rfl⟩
    · simp [ErrorObject.ofError, BundlerError.classify, errorCodes]
    · simp [ErrorObject.ofError, BundlerError.classify]

/-! ## What the client learns -/

section

variable {ι : Type} [DecidableEq ι] {req : ι → Request} {n₀ : Nat} {s : SubmitPool ι}

/-- A call that returned without being cancelled is at the end of a run. -/
theorem run_of_returned (h : Reachable A b req n₀ s) {i : ι} {r : Except Exit SignedTxResp}
    (hr : returned (s.calls i) = some r) :
    (r = .error (.err .cancelled) ∧ (s.calls i).dropped = true) ∨ Run ((req i).call A b) (s.calls i).hist r := by
  have hafter := h.after i
  unfold returned at hr
  split at hr
  · cases hr
    exact Or.inl ⟨rfl, ‹_›⟩
  · rename_i resp _ hcur
    cases hr
    rw [hcur] at hafter
    exact Or.inr hafter
  · rename_i e _ hcur
    cases hr
    rw [hcur] at hafter
    exact Or.inr hafter
  · cases hr

end

/-- A result is for the chain that was asked for, and in submit mode of a transaction that was sent. -/
theorem run_result {resp : SignedTxResp} (h : Run (buildInner A b ops opts) t (.ok resp)) :
    resp.chainId = opts.chainId ∧
      (opts.submit = true → ∃ submitted, ⟨.rpc (.sendRawTransaction resp.raw), .ok submitted⟩ ∈ t) := by
  have hsane : opts.chainId = b.cfg.chainId := by
    obtain ⟨_, _, _, -, h1, -⟩ := run_bind_ok.1 h
    obtain ⟨-, hs⟩ := run_orErr_ok.1 h1
    by_contra hne
    rw [sanity, if_pos hne] at hs
    cases hs
  obtain ⟨s, nonce, env, submitted, receipt, -, rfl, rfl⟩ := run_buildInner_ok h
  refine ⟨hsane.symm, fun hs => ⟨submitted, ?_⟩⟩
  simp [guardEvents, broadcastEvents, hs, response, SignedTx.of]

/-- **What a reply tells the client.** In every state of every run of any number of calls: a result
decodes to the response about the one transaction that was signed for the client's ops, on the chain
it asked for, and in submit mode the execution layer accepted it; an error is a well-formed object, a
hash it names is that of a transaction of this call the execution layer accepted, and one that names
none and is no internal error comes from a call that sent nothing. -/
theorem reply_tells (C : AlloyCodecs) (hC : C.Lawful) (A : Alloy) (b : Bundler) {ι : Type} [DecidableEq ι]
    (req : ι → Request) (n₀ : Nat) (s : SubmitPool ι) (h : Reachable A b req n₀ s) (i : ι) :
    (∀ j, reply C (s.calls i) = some (.result j) → ∃ resp env, (SignedTxResp.codec C).de j = .ok resp ∧
      ResponseAgrees A b (req i).ops (s.calls i).hist resp env ∧ resp.chainId = (req i).opts.chainId ∧
      ((req i).opts.submit = true → (i, resp.raw) ∈ s.world.accepted)) ∧
    ∀ o, reply C (s.calls i) = some (.error o) → o.WellFormed ∧
      (∀ v, o.data.get? "txHash" = some v → ∃ env, v = .str (debugHex (A.txHash env)) ∧
        signedWith env ∈ (s.calls i).hist ∧ (i, A.encoded2718 env) ∈ s.world.accepted) ∧
      (o.data.get? "txHash" = none → o.code ≠ INTERNAL_ERROR →
        (∀ raw x, ⟨.rpc (.sendRawTransaction raw), x⟩ ∉ (s.calls i).hist) ∧ ∀ raw, (i, raw) ∉ s.world.accepted) := by
  refine ⟨fun j hj => ?_, fun o ho => ?_⟩
  · obtain ⟨resp, hret, ha⟩ | ⟨e, -, ha⟩ := reply_cases hj
    · cases ha
      obtain ⟨he, -⟩ | hrun := run_of_returned h hret
      · cases he
      obtain ⟨env, hagrees⟩ := response_agrees hrun
      obtain ⟨hchain, hsent⟩ := run_result hrun
      refine ⟨resp, env, (SignedTxResp.lawful_codec hC).de_ser resp, hagrees, hchain, fun hs => ?_⟩
      obtain ⟨x, hx⟩ := hsent hs
      exact (counted h).recorded i _ x hx
    · cases ha
  · obtain ⟨resp, -, ha⟩ | ⟨e, hret, ha⟩ := reply_cases ho
    · cases ha
    cases ha
    have haccepted (env : TxEnvelope) (hb : Broadcast A (s.calls i).hist env) :
        (i, A.encoded2718 env) ∈ s.world.accepted := by
      obtain ⟨-, x, hx⟩ := hb
      exact (counted h).recorded i _ x hx
    have htold : Told A (s.calls i).hist e := by
      obtain ⟨he, -⟩ | hrun := run_of_returned h hret
      · cases he
        exact .of_early rfl (Or.inl rfl)
      · exact told hrun
    refine ⟨wellFormed_ofError e, fun v hv => ?_, fun hnone hcode => ?_⟩
    · obtain ⟨env, hb, rfl⟩ := htold.hash v hv
      exact ⟨env, rfl, hb.1, haccepted env hb⟩
    · have hunsent := htold.unsent hnone hcode
      refine ⟨hunsent, fun raw hm => ?_⟩
      obtain ⟨env, hacc⟩ := exists_acceptedAs h hm
      obtain ⟨x, hx⟩ := hacc.answered
      exact hunsent raw _ hx

/-- The first of the three calls: its client can read the response, and its transaction was accepted. -/
theorem reply_tells_threeCalls : ∃ (s : SubmitPool (Fin 3)) (j : Json) (resp : SignedTxResp),
    Reachable alloy testBundler threeCalls 7 s ∧ reply hexCodecs (s.calls 0) = some (.result j) ∧
      (SignedTxResp.codec hexCodecs).de j = .ok resp ∧ (0, resp.raw) ∈ s.world.accepted := by
  obtain ⟨s, hs, hp⟩ := exists_reach_of_run ledgerRules anyStep
    (.start (calls alloy testBundler threeCalls) (.start 7)) threeCallsRun
    (fun s => (returned (s.calls 0)).any (·.toBool)) (by decide)
  obtain ⟨r, hr, hok⟩ := (Option.any_eq_true _ _).1 hp
  cases r with
  | error e => cases hok
  | ok resp =>
    have hj : reply hexCodecs (s.calls 0) = some (.result ((SignedTxResp.codec hexCodecs).ser resp)) := by
      rw [reply, hr]
    obtain ⟨hresult, -⟩ := reply_tells hexCodecs lawful_hexCodecs alloy testBundler threeCalls 7 s hs 0
    obtain ⟨resp', env, hde, -, -, hacc⟩ := hresult _ hj
    exact ⟨s, _, resp', hs, hj, hde, hacc rfl⟩

end EtheraBundler

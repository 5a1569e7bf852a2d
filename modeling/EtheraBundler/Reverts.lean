import EtheraBundler.Mock
/-!
# Decoding `handleOps` reverts

`decode_handle_ops_revert` (`errors.rs:313-357`) is a table of six error shapes: a selector, a
decoder for the bytes behind it, and the raw bytes when neither applies. `ErrorShape` is that
table; every property is proved once, for a shape, and holds of the six of them.

* `ErrorShape.selector_eq` — the selectors are those of the Solidity signatures.
* `decode_of_selector`, `decode_of_no_selector` — the dispatch.
* `decodeSlicing_eq` — the one slice of the function is never out of range.
* `decode_encode` — an encoded error comes back with its arguments, the number clamped.
* `revert_decoding` — **round trip, totality, and nothing lost on the way.**
-/

namespace EtheraBundler

open BigEndian

/-! ## The six shapes -/

/-- The errors the decoder knows: four of the EntryPoint's, the two of Solidity. -/
inductive ErrorShape where
  | failedOp
  | failedOpWithRevert
  | signatureValidationFailed
  | postOpReverted
  | standardError
  | panic
deriving DecidableEq

namespace ErrorShape

def selector : ErrorShape → Bytes
  | failedOp => FailedOp.SELECTOR
  | failedOpWithRevert => FailedOpWithRevert.SELECTOR
  | signatureValidationFailed => SignatureValidationFailed.SELECTOR
  | postOpReverted => PostOpReverted.SELECTOR
  | standardError => ERROR_STRING_SELECTOR
  | panic => PANIC_UINT_SELECTOR

def signature : ErrorShape → String
  | failedOp => "FailedOp(uint256,string)"
  | failedOpWithRevert => "FailedOpWithRevert(uint256,string,bytes)"
  | signatureValidationFailed => "SignatureValidationFailed(address)"
  | postOpReverted => "PostOpReverted(bytes)"
  | standardError => "Error(string)"
  | panic => "Panic(uint256)"

/-- What the function makes of a body behind the shape's selector. -/
def decodeBody (A : Alloy) (body : Bytes) : ErrorShape → Option HandleOpsRevertReason
  | failedOp => (A.failedOpDecode body).map fun x => .failedOp (clampU64 x.1) x.2
  | failedOpWithRevert =>
    (A.failedOpWithRevertDecode body).map fun x => .failedOpWithRevert (clampU64 x.1) x.2.1 x.2.2
  | signatureValidationFailed => (A.signatureValidationFailedDecode body).map .signatureValidationFailed
  | postOpReverted => (A.postOpRevertedDecode body).map .postOpReverted
  | standardError => (A.stringDecode body).map .standardError
  | panic => (A.uint256Decode body).map fun x => .panic (clampU64 x)

@[simp] theorem length_selector (s : ErrorShape) : s.selector.length = 4 := by cases s <;> rfl

/-- The shape a selector picks. -/
def ofSelector (selector : Bytes) : Option ErrorShape :=
  [failedOp, failedOpWithRevert, signatureValidationFailed, postOpReverted, standardError, panic].find?
    (·.selector = selector)

theorem ofSelector_eq_some {selector : Bytes} {s : ErrorShape} (h : ofSelector selector = some s) :
    selector = s.selector := by
  have := List.find?_some h
  simpa using (of_decide_eq_true this).symm

theorem ofSelector_eq_none {selector : Bytes} (h : ofSelector selector = none) (s : ErrorShape) :
    selector ≠ s.selector := by
  rintro rfl
  cases s <;> cases h

theorem selector_injective {s s' : ErrorShape} (h : s.selector = s'.selector) : s = s' := by
  revert h
  cases s <;> cases s' <;> decide

set_option maxRecDepth 100000 in
/-- A selector is the first four bytes of the hash of its signature. -/
theorem selector_eq (s : ErrorShape) : (Keccak.keccak256 s.signature.toUTF8.toList).take 4 = s.selector := by
  cases s <;> decide +kernel

end ErrorShape

/-- The variant a reason is, none for the raw bytes. -/
def HandleOpsRevertReason.shape : HandleOpsRevertReason → Option ErrorShape
  | .failedOp _ _ => some .failedOp
  | .failedOpWithRevert _ _ _ => some .failedOpWithRevert
  | .signatureValidationFailed _ => some .signatureValidationFailed
  | .postOpReverted _ => some .postOpReverted
  | .standardError _ => some .standardError
  | .panic _ => some .panic
  | .unknown _ => none

theorem shape_of_decodeBody {A : Alloy} {s : ErrorShape} {body : Bytes} {r : HandleOpsRevertReason}
    (h : s.decodeBody A body = some r) : r.shape = some s := by
  cases s <;>
    (simp only [ErrorShape.decodeBody, Option.map_eq_some_iff] at h; obtain ⟨_, -, rfl⟩ := h; rfl)

/-! ## The dispatch -/

variable {A : Alloy}

/-- Behind a known selector the shape's decoder decides. -/
theorem decode_of_selector {s : ErrorShape} {data : Bytes} (h : data.take 4 = s.selector) :
    decodeHandleOpsRevert A data = (s.decodeBody A (data.drop 4)).getD (.unknown data) := by
  have hlen : ¬ data.length < 4 := by
    have := congrArg List.length h
    simp only [List.length_take, ErrorShape.length_selector] at this
    omega
  unfold decodeHandleOpsRevert
  simp only [if_neg hlen, h]
  cases s with
  | failedOp =>
    rw [if_pos (by rfl), ErrorShape.decodeBody]
    cases A.failedOpDecode (data.drop 4) <;> rfl
  | failedOpWithRevert =>
    rw [if_neg (by decide), if_pos (by rfl), ErrorShape.decodeBody]
    cases A.failedOpWithRevertDecode (data.drop 4) <;> rfl
  | signatureValidationFailed =>
    rw [if_neg (by decide), if_neg (by decide), if_pos (by rfl), ErrorShape.decodeBody]
    cases A.signatureValidationFailedDecode (data.drop 4) <;> rfl
  | postOpReverted =>
    rw [if_neg (by decide), if_neg (by decide), if_neg (by decide), if_pos (by rfl), ErrorShape.decodeBody]
    cases A.postOpRevertedDecode (data.drop 4) <;> rfl
  | standardError =>
    rw [if_neg (by decide), if_neg (by decide), if_neg (by decide), if_neg (by decide), if_pos (by rfl),
      ErrorShape.decodeBody]
    cases A.stringDecode (data.drop 4) <;> rfl
  | panic =>
    rw [if_neg (by decide), if_neg (by decide), if_neg (by decide), if_neg (by decide), if_neg (by decide),
      if_pos (by rfl), ErrorShape.decodeBody]
    cases A.uint256Decode (data.drop 4) <;> rfl

/-- Behind any other bytes, or too few of them, everything is kept raw. -/
theorem decode_of_no_selector {data : Bytes} (h : ∀ s : ErrorShape, data.take 4 ≠ s.selector) :
    decodeHandleOpsRevert A data = .unknown data := by
  unfold decodeHandleOpsRevert
  by_cases hlen : data.length < 4
  · rw [if_pos hlen]
  · have h1 : data.take 4 ≠ FailedOp.SELECTOR := h .failedOp
    have h2 : data.take 4 ≠ FailedOpWithRevert.SELECTOR := h .failedOpWithRevert
    have h3 : data.take 4 ≠ SignatureValidationFailed.SELECTOR := h .signatureValidationFailed
    have h4 : data.take 4 ≠ PostOpReverted.SELECTOR := h .postOpReverted
    have h5 : data.take 4 ≠ ERROR_STRING_SELECTOR := h .standardError
    have h6 : data.take 4 ≠ PANIC_UINT_SELECTOR := h .panic
    simp only [if_neg hlen, if_neg h1, if_neg h2, if_neg h3, if_neg h4, if_neg h5, if_neg h6]

theorem selector_prefix_iff {s : ErrorShape} {data : Bytes} : s.selector <+: data ↔ data.take 4 = s.selector := by
  rw [List.prefix_iff_eq_take, ErrorShape.length_selector]
  exact eq_comm

/-- **Nothing is lost**: either the bytes come back raw, exactly when no shape claims them and
decodes the rest, or a shape decoded what stands behind its selector. -/
theorem decode_cases (A : Alloy) (data : Bytes) :
    (decodeHandleOpsRevert A data = .unknown data ∧
        ∀ s : ErrorShape, s.selector <+: data → s.decodeBody A (data.drop 4) = none) ∨
      ∃ s : ErrorShape, s.selector <+: data ∧
        s.decodeBody A (data.drop 4) = some (decodeHandleOpsRevert A data) := by
  by_cases h : ∃ s : ErrorShape, data.take 4 = s.selector
  · obtain ⟨s, hs⟩ := h
    have hdec := decode_of_selector (A := A) hs
    rcases hbody : s.decodeBody A (data.drop 4) with - | r
    · rw [hbody, Option.getD_none] at hdec
      refine Or.inl ⟨hdec, fun s' hs' => ?_⟩
      rw [selector_prefix_iff, hs] at hs'
      rw [← ErrorShape.selector_injective hs', hbody]
    · rw [hbody, Option.getD_some] at hdec
      exact Or.inr ⟨s, selector_prefix_iff.2 hs, by rw [hdec, hbody]⟩
  · have hno : ∀ s : ErrorShape, data.take 4 ≠ s.selector := fun s hs => h ⟨s, hs⟩
    exact Or.inl ⟨decode_of_no_selector hno, fun s hs => absurd (selector_prefix_iff.1 hs) (hno s)⟩

/-! ## Slices -/

/-- `data.get(0..n)`. -/
def getTo (data : Bytes) (n : Nat) : Option Bytes := if n ≤ data.length then some (data.take n) else none

/-- `&data[n..]`; `none` is the panic of a range that starts past the end. -/
def sliceFrom (data : Bytes) (n : Nat) : Option Bytes := if n ≤ data.length then some (data.drop n) else none

/-- The function as its table, slices kept partial (`errors.rs:314-317`). -/
def decodeSlicing (A : Alloy) (data : Bytes) : Option HandleOpsRevertReason :=
  match getTo data 4 with
  | none => some (.unknown data)
  | some selector => (sliceFrom data 4).map fun body =>
    ((ErrorShape.ofSelector selector).bind (·.decodeBody A body)).getD (.unknown data)

/-- The selector it has read makes the slice of the body a legal one. -/
theorem decodeSlicing_eq (A : Alloy) (data : Bytes) :
    decodeSlicing A data = some (decodeHandleOpsRevert A data) := by
  unfold decodeSlicing getTo sliceFrom
  by_cases h : 4 ≤ data.length
  · simp only [if_pos h, Option.map_some, Option.some.injEq]
    rcases hs : ErrorShape.ofSelector (data.take 4) with - | s
    · rw [decode_of_no_selector (ErrorShape.ofSelector_eq_none hs)]
      rfl
    · rw [decode_of_selector (ErrorShape.ofSelector_eq_some hs)]
      rfl
  · have hno (s : ErrorShape) : data.take 4 ≠ s.selector := by
      intro hs
      have := congrArg List.length hs
      simp only [List.length_take, ErrorShape.length_selector] at this
      omega
    simp only [if_neg h, decode_of_no_selector hno]

/-! ## Round trip -/

/-- A revert with its arguments. -/
inductive SolError where
  | failedOp (opIndex : U256) (reason : String)
  | failedOpWithRevert (opIndex : U256) (reason : String) (inner : Bytes)
  | signatureValidationFailed (aggregator : Address)
  | postOpReverted (returnData : Bytes)
  | standardError (message : String)
  | panic (code : U256)

/-- The argument encoders of the four errors the bundler itself never encodes. -/
structure ErrorEncoders where
  signatureValidationFailedEncode : Address → Bytes
  postOpRevertedEncode : Bytes → Bytes
  stringEncode : String → Bytes
  uint256Encode : U256 → Bytes

namespace SolError

def shape : SolError → ErrorShape
  | failedOp _ _ => .failedOp
  | failedOpWithRevert _ _ _ => .failedOpWithRevert
  | signatureValidationFailed _ => .signatureValidationFailed
  | postOpReverted _ => .postOpReverted
  | standardError _ => .standardError
  | panic _ => .panic

/-- The ABI-encoded arguments. -/
def encodeArgs (A : Alloy) (E : ErrorEncoders) : SolError → Bytes
  | failedOp i reason => A.failedOpEncode i reason
  | failedOpWithRevert i reason inner => A.failedOpWithRevertEncode i reason inner
  | signatureValidationFailed aggregator => E.signatureValidationFailedEncode aggregator
  | postOpReverted returnData => E.postOpRevertedEncode returnData
  | standardError message => E.stringEncode message
  | panic code => E.uint256Encode code

/-- Selector, then arguments. -/
def encode (A : Alloy) (E : ErrorEncoders) (err : SolError) : Bytes :=
  err.shape.selector ++ err.encodeArgs A E

/-- `alloy` decodes the arguments it encoded. -/
def DecodesBack (A : Alloy) (E : ErrorEncoders) : SolError → Prop
  | failedOp i reason => A.failedOpDecode (A.failedOpEncode i reason) = some (i, reason)
  | failedOpWithRevert i reason inner =>
    A.failedOpWithRevertDecode (A.failedOpWithRevertEncode i reason inner) = some (i, reason, inner)
  | signatureValidationFailed aggregator =>
    A.signatureValidationFailedDecode (E.signatureValidationFailedEncode aggregator) = some aggregator
  | postOpReverted returnData => A.postOpRevertedDecode (E.postOpRevertedEncode returnData) = some returnData
  | standardError message => A.stringDecode (E.stringEncode message) = some message
  | panic code => A.uint256Decode (E.uint256Encode code) = some code

/-- `min(i, 2 ^ 64 - 1)`. -/
def clamped (i : U256) : U64 := BitVec.ofNat 64 (min i.toNat (2 ^ 64 - 1))

/-- The variant of the same name, with the same arguments but for the clamped number. -/
def reason : SolError → HandleOpsRevertReason
  | failedOp i reason => .failedOp (clamped i) reason
  | failedOpWithRevert i reason inner => .failedOpWithRevert (clamped i) reason inner
  | signatureValidationFailed aggregator => .signatureValidationFailed aggregator
  | postOpReverted returnData => .postOpReverted returnData
  | standardError message => .standardError message
  | panic code => .panic (clamped code)

end SolError

theorem clampU64_eq (i : U256) : clampU64 i = SolError.clamped i := by
  apply BitVec.eq_of_toNat_eq
  unfold clampU64 u64TryFrom SolError.clamped
  rw [BitVec.toNat_ofNat]
  by_cases h : i.toNat < 2 ^ 64
  · rw [if_pos h, Option.getD_some, BitVec.toNat_setWidth]
    omega
  · rw [if_neg h, Option.getD_none, BitVec.toNat_allOnes]
    omega

theorem decodeBody_encodeArgs {E : ErrorEncoders} {err : SolError} (h : err.DecodesBack A E) :
    err.shape.decodeBody A (err.encodeArgs A E) = some err.reason := by
  cases err with
  | failedOp i reason =>
    have hi : A.failedOpDecode (A.failedOpEncode i reason) = some (i, reason) := h
    simp [SolError.shape, SolError.encodeArgs, SolError.reason, ErrorShape.decodeBody, hi, clampU64_eq]
  | failedOpWithRevert i reason inner =>
    have hi : A.failedOpWithRevertDecode (A.failedOpWithRevertEncode i reason inner) = some (i, reason, inner) := h
    simp [SolError.shape, SolError.encodeArgs, SolError.reason, ErrorShape.decodeBody, hi, clampU64_eq]
  | panic code =>
    have hi : A.uint256Decode (E.uint256Encode code) = some code := h
    simp [SolError.shape, SolError.encodeArgs, SolError.reason, ErrorShape.decodeBody, hi, clampU64_eq]
  | signatureValidationFailed aggregator => exact congrArg (Option.map _) h
  | postOpReverted returnData => exact congrArg (Option.map _) h
  | standardError message => exact congrArg (Option.map _) h

/-- **Round trip**, for all six shapes. -/
theorem decode_encode {E : ErrorEncoders} {err : SolError} (h : err.DecodesBack A E) :
    decodeHandleOpsRevert A (err.encode A E) = err.reason := by
  have htake : (err.encode A E).take 4 = err.shape.selector := List.take_left' (ErrorShape.length_selector _)
  have hdrop : (err.encode A E).drop 4 = err.encodeArgs A E := List.drop_left' (ErrorShape.length_selector _)
  rw [decode_of_selector htake, hdrop, decodeBody_encodeArgs h, Option.getD_some]

/-- **Revert decoding.** What `alloy` encoded comes back, the number clamped. On every byte
string the function returns: the very bytes exactly when no shape claims and decodes them, a
named variant only behind its selector. -/
theorem revert_decoding (A : Alloy) (E : ErrorEncoders) :
    (∀ err : SolError, err.DecodesBack A E → decodeHandleOpsRevert A (err.encode A E) = err.reason) ∧
    ∀ data : Bytes, decodeSlicing A data = some (decodeHandleOpsRevert A data) ∧
      (decodeHandleOpsRevert A data = .unknown data ↔
        ∀ s : ErrorShape, s.selector <+: data → s.decodeBody A (data.drop 4) = none) ∧
      (∀ raw, decodeHandleOpsRevert A data = .unknown raw → raw = data) ∧
      ∀ s : ErrorShape, (decodeHandleOpsRevert A data).shape = some s → s.selector <+: data := by
  refine ⟨fun err h => decode_encode h, fun data => ⟨decodeSlicing_eq A data, ?_⟩⟩
  rcases decode_cases A data with ⟨hraw, hnone⟩ | ⟨s, hsel, hbody⟩
  · refine ⟨iff_of_true hraw hnone, fun raw h => ?_, fun s h => ?_⟩
    · rw [hraw, HandleOpsRevertReason.unknown.injEq] at h
      exact h.symm
    · rw [hraw] at h
      cases h
  · have hshape := shape_of_decodeBody hbody
    refine ⟨⟨fun h => ?_, fun h => ?_⟩, fun raw h => ?_, fun s' h => ?_⟩
    · rw [h] at hshape
      cases hshape
    · rw [h s hsel] at hbody
      cases hbody
    · rw [h] at hshape
      cases hshape
    · rw [h, Option.some.injEq] at hshape
      rw [hshape]
      exact hsel

/-- The Solidity ABI of the four. -/
def errorEncoders : ErrorEncoders where
  signatureValidationFailedEncode := Abi.address
  postOpRevertedEncode returnData := Abi.tuple [.dynamic (Abi.bytes returnData)]
  stringEncode message := Abi.tuple [.dynamic (Abi.string message)]
  uint256Encode code := Abi.word code.toNat

/-- One revert of each shape, the two numbers beyond 64 bits. -/
def sampleErrors : List SolError :=
  [.failedOp 2 "AA21 didn't pay prefund", .failedOpWithRevert 18446744073709551616 "AA23 reverted" [0xde, 0xad],
    .signatureValidationFailed (repeatAddress 0x0a), .postOpReverted [0x01, 0x02, 0x03], .standardError "boom",
    .panic 0x8000000000000000000000000000000000000000000000000000000000000011]

theorem sampleErrors_decodesBack : ∀ err ∈ sampleErrors, err.DecodesBack alloy errorEncoders := by
  simp only [sampleErrors, List.forall_mem_cons]
  refine ⟨?_, ?_, ?_, ?_, ?_, ?_, List.forall_mem_nil _⟩
  · show alloy.failedOpDecode _ = _
    decide +kernel
  · show alloy.failedOpWithRevertDecode _ = _
    decide +kernel
  · show alloy.signatureValidationFailedDecode _ = _
    decide +kernel
  · show alloy.postOpRevertedDecode _ = _
    decide +kernel
  · show alloy.stringDecode _ = _
    decide +kernel
  · show alloy.uint256Decode _ = _
    decide +kernel

theorem revert_decoding_samples :
    sampleErrors.map (fun err => decodeHandleOpsRevert alloy (err.encode alloy errorEncoders)) =
      sampleErrors.map SolError.reason := by
  refine List.map_congr_left fun err h => ?_
  exact (revert_decoding alloy errorEncoders).1 err (sampleErrors_decodesBack err h)

end EtheraBundler

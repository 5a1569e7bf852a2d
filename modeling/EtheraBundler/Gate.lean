import EtheraBundler.Fees
/-!
# What is validated is what is signed

The events of a call stand at fixed positions: base fee, tip and clock at `0 .. 2`, then three
questions per op, then the gas estimate. `CheckedAt` says that the three questions of op `i`
were asked about one packed op and passed; `Vetted` says so for the whole batch.

* `vetted_of_asks_sign` — the signer is only ever asked behind a vetted batch.
* `asks_send` — a broadcast is only ever asked behind a signature.
* `response_agrees` — a success returns what was signed.
* `validated_is_signed` — **the gate**: all of it, with its converse.
-/

namespace EtheraBundler

open BigEndian Interact

variable {A : Alloy} {b : Bundler} {ops : List UserOpV07} {opts : BuildOpts} {t : BundlerTrace}
  {baseFee : U256} {nowUnix : U64}

/-! ## Vetted batches -/

/-- Op `i` packs to `p`, and `p` went through every check of the loop. -/
structure CheckedAt (b : Bundler) (t : BundlerTrace) (baseFee : U256) (nowUnix : U64) (i : Nat)
    (op : UserOpV07) (p : PackedUserOperation) : Prop where
  pack_eq : pack op = .ok p
  fees : checkPerOpFees b i op baseFee = .ok ()
  deposit : ∃ sponsor required deposit, prefundRequirement op p = .ok (sponsor, required) ∧
    required ≤ deposit ∧ t[3 + 3 * i]? = some ⟨.rpc (.balanceOf b.cfg.entrypointAddress sponsor), .ok deposit⟩
  simulated : ∃ v report, judge v nowUnix = .ok report ∧
    t[4 + 3 * i]? = some ⟨.rpc (.simulateValidation b.cfg.entrypointAddress b.simulationsCode p), .ok v⟩
  hashed : ∃ hash, t[5 + 3 * i]? = some ⟨.rpc (.userOpHash b.cfg.entrypointAddress p), .ok hash⟩
  blob : p.paymasterAndData = [] ∨ 52 ≤ p.paymasterAndData.length

/-- The batch packs to `packed`, op by op and in order, every op was checked against the one
base fee and the one clock reading, and the calldata of exactly these ops was estimated. -/
def Vetted (A : Alloy) (b : Bundler) (ops : List UserOpV07) (t : BundlerTrace)
    (packed : List PackedUserOperation) : Prop :=
  ∃ baseFee clock estimated, t[0]? = some ⟨.rpc .baseFee, .ok baseFee⟩ ∧ t[2]? = some ⟨.sinceEpoch, clock⟩ ∧
    packed.length = ops.length ∧
    (∀ i op p, ops[i]? = some op → packed[i]? = some p → CheckedAt b t baseFee (clock.getD 0) i op p) ∧
    t[3 + 3 * ops.length]? = some ⟨.rpc (.estimateHandleOpsGas b.signerAddress b.cfg.entrypointAddress
      (A.handleOpsAbiEncode packed b.signerAddress)), .ok estimated⟩

theorem getElem?_append_of_some {α : Type} {l : List α} {i : Nat} {x : α} (h : l[i]? = some x) (l' : List α) :
    (l ++ l')[i]? = some x := by
  obtain ⟨hlt, -⟩ := List.getElem?_eq_some_iff.1 h
  rw [List.getElem?_append_left hlt, h]

/-- What happens later does not undo a check. -/
theorem CheckedAt.append {i : Nat} {op : UserOpV07} {p : PackedUserOperation}
    (h : CheckedAt b t baseFee nowUnix i op p) (u : BundlerTrace) :
    CheckedAt b (t ++ u) baseFee nowUnix i op p := by
  obtain ⟨sponsor, required, deposit, hreq, hle, h1⟩ := h.deposit
  obtain ⟨v, report, hv, h2⟩ := h.simulated
  obtain ⟨hash, h3⟩ := h.hashed
  exact ⟨h.pack_eq, h.fees, ⟨sponsor, required, deposit, hreq, hle, getElem?_append_of_some h1 u⟩,
    ⟨v, report, hv, getElem?_append_of_some h2 u⟩, ⟨hash, getElem?_append_of_some h3 u⟩, h.blob⟩

theorem Vetted.append {packed : List PackedUserOperation} (h : Vetted A b ops t packed) (u : BundlerTrace) :
    Vetted A b ops (t ++ u) packed := by
  obtain ⟨baseFee, clock, estimated, h0, h2, hlen, hall, hest⟩ := h
  exact ⟨baseFee, clock, estimated, getElem?_append_of_some h0 u, getElem?_append_of_some h2 u, hlen,
    fun i op p hop hp => (hall i op p hop hp).append u, getElem?_append_of_some hest u⟩

/-! ## Where the events of a settled batch stand -/

theorem length_events (c : CheckedOp b baseFee nowUnix) : c.events.length = 3 := rfl

theorem length_flatMap_events (cs : List (CheckedOp b baseFee nowUnix)) :
    (cs.flatMap (·.events)).length = 3 * cs.length := by
  induction cs with
  | nil => rfl
  | cons c cs ih =>
    rw [List.flatMap_cons, List.length_append, ih, length_events, List.length_cons]
    omega

/-- Turn `i` holds positions `3 * i` to `3 * i + 2`. -/
theorem getElem?_flatMap_events : ∀ (cs : List (CheckedOp b baseFee nowUnix)) (i j : Nat), j < 3 →
    (cs.flatMap (·.events))[3 * i + j]? = cs[i]?.bind fun c => c.events[j]?
  | [], _, _, _ => by simp
  | c :: cs, 0, j, hj => by
    rw [List.flatMap_cons, List.getElem?_append_left (by rw [length_events]; omega)]
    simp
  | c :: cs, i + 1, j, hj => by
    rw [List.flatMap_cons, List.getElem?_append_right (by rw [length_events]; omega), length_events,
      List.getElem?_cons_succ, show 3 * (i + 1) + j - 3 = 3 * i + j by omega]
    exact getElem?_flatMap_events cs i j hj

namespace Settled

variable (s : Settled b ops)

theorem length_checked : s.checked.length = ops.length := by
  have h := congrArg List.length s.ops_eq
  rwa [List.length_map] at h

theorem exists_checkedAt {i : Nat} {op : UserOpV07} (h : ops[i]? = some op) :
    ∃ c, s.checked[i]? = some c ∧ c.op = op := by
  have h' := congrArg (·[i]?) s.ops_eq
  simp only [List.getElem?_map, h, Option.map_eq_some_iff] at h'
  exact h'

/-- Event `j` of turn `i`, seen from the start of the call. -/
theorem getElem?_events {i j : Nat} {c : CheckedOp b s.baseFee (s.clock.getD 0)} (hj : j < 3)
    (hc : s.checked[i]? = some c) : (s.events A)[3 + j + 3 * i]? = c.events[j]? := by
  have hi : i < s.checked.length := (List.getElem?_eq_some_iff.1 hc).1
  rw [events, List.append_assoc, List.getElem?_append_right (by simp; omega), List.getElem?_append_left]
  · rw [show 3 + j + 3 * i - List.length _ = 3 * i + j by simp; omega, getElem?_flatMap_events _ _ _ hj, hc]
    rfl
  · rw [length_flatMap_events]
    simp only [List.length_cons, List.length_nil]
    omega

theorem vetted : Vetted A b ops (s.events A) (s.checked.map (·.packed)) := by
  refine ⟨s.baseFee, s.clock, s.estimated, rfl, rfl, by rw [List.length_map, s.length_checked], ?_, ?_⟩
  · intro i op p hop hp
    obtain ⟨c, hc, rfl⟩ := s.exists_checkedAt hop
    rw [List.getElem?_map, hc, Option.map_some, Option.some.injEq] at hp
    subst hp
    obtain ⟨report, hv⟩ := c.accepted
    have hparse : ∃ r, parsePaymasterAndData c.packed.paymasterAndData = .ok r := by
      have hreq := c.prefund_eq
      unfold prefundRequirement at hreq
      rcases hr : parsePaymasterAndData c.packed.paymasterAndData with e | r
      · rw [hr] at hreq
        cases hreq
      · exact ⟨r, rfl⟩
    exact
      { pack_eq := c.pack_eq
        fees := checkPerOpFees_ok_iff.2 c.fees_ok
        deposit := ⟨c.sponsor, c.required, c.deposit, c.prefund_eq, c.covered,
          s.getElem?_events (j := 0) (by omega) hc⟩
        simulated := ⟨c.validation, report, hv, s.getElem?_events (j := 1) (by omega) hc⟩
        hashed := ⟨c.hash, s.getElem?_events (j := 2) (by omega) hc⟩
        blob := (parse_ok_iff _).1 hparse }
  · have hl : ([⟨.rpc .baseFee, .ok s.baseFee⟩, ⟨.rpc .maxPriorityFee, .ok s.suggestedTip⟩,
        ⟨.sinceEpoch, s.clock⟩] ++ s.checked.flatMap (·.events) : BundlerTrace).length = 3 + 3 * ops.length := by
      rw [List.length_append, length_flatMap_events, s.length_checked]
      rfl
    rw [events, ← hl, List.getElem?_concat_length]
    rfl

end Settled

/-- **The signer is only asked behind a vetted batch**, for the calldata of exactly that batch. -/
theorem vetted_of_asks_sign {tx : TxEip1559} (h : Asks (buildInner A b ops opts) t (.signEip1559 tx)) :
    ∃ packed, Vetted A b ops t packed ∧ tx.input = A.handleOpsAbiEncode packed b.signerAddress := by
  obtain ⟨-, s, nonce, hb, rfl⟩ := asks_sign_iff.1 h
  refine ⟨s.checked.map (·.packed), s.vetted.append _, ?_⟩
  rw [buildTx_ok s, Except.ok.injEq] at hb
  rw [← hb]
  rfl

/-! ## Behind the signature -/

theorem asks_signAndSend_send {p : Prepared} {raw : Bytes}
    (h : Asks (signAndSend A b opts p) t (.rpc (.sendRawTransaction raw))) :
    ∃ nonce env, buildTx b p nonce = .ok env.tx ∧ raw = A.encoded2718 env ∧
      t = [nonceRead b nonce, signedWith env] := by
  rw [signAndSend, asks_bind] at h
  rcases h with h | ⟨t₁, _, nonce, rfl, h1, h2⟩
  · cases (asks_await.1 h).2
  rcases asks_bind.1 h2 with h2 | ⟨_, _, tx, rfl, h2, h3⟩
  · exact absurd h2 asks_orErr
  obtain ⟨rfl, hb⟩ := run_orErr_ok.1 h2
  rcases asks_bind.1 h3 with h3 | ⟨_, _, env, rfl, h3, h4⟩
  · cases (asks_signEip1559.1 h3).2
  obtain ⟨rfl, rfl⟩ := run_signEip1559_ok.1 h3
  rcases asks_bind.1 h4 with h4 | ⟨_, _, _, -, -, h5⟩
  · obtain ⟨-, rfl, ho⟩ := asks_broadcast h4
    cases ho
    exact ⟨nonce, env, hb, rfl, by rw [run_await_ok.1 h1]; rfl⟩
  · exact absurd h5 asks_ret

/-- **A broadcast follows the signature at once**, and sends the signed bytes. -/
theorem asks_send {raw : Bytes} (h : Asks (buildInner A b ops opts) t (.rpc (.sendRawTransaction raw))) :
    ∃ t' env, t = t' ++ [signedWith env] ∧ raw = A.encoded2718 env ∧
      Asks (buildInner A b ops opts) t' (.signEip1559 env.tx) := by
  rw [buildInner, asks_bind] at h
  rcases h with h | ⟨_, t, _, rfl, h1, h2⟩
  · exact absurd h asks_orErr
  obtain ⟨rfl, hsan⟩ := run_orErr_ok.1 h1
  rcases asks_bind.1 h2 with h2 | ⟨_, t, p, rfl, h2, h3⟩
  · exact absurd (only_prepare.asks h2) id
  obtain ⟨s, rfl, rfl⟩ := run_prepare_ok.1 h2
  rcases asks_bind.1 h3 with h3 | ⟨_, _, _, rfl, -, h4⟩
  · have hsigned : ∃ nonce env, buildTx b (s.prepared A) nonce = .ok env.tx ∧ raw = A.encoded2718 env ∧
        t = lockEvents opts ++ [nonceRead b nonce, signedWith env] := by
      unfold signed at h3
      unfold lockEvents
      by_cases hs : opts.submit = true
      · rw [if_pos hs] at h3 ⊢
        rcases asks_withGuard.1 h3 with ⟨-, h3⟩ | ⟨_, t', rfl, h3 | ⟨h3, -⟩⟩
        · cases h3
        · obtain ⟨nonce, env, hb, hraw, rfl⟩ := asks_signAndSend_send h3
          exact ⟨nonce, env, hb, hraw, rfl⟩
        · cases h3
      · rw [if_neg hs] at h3 ⊢
        exact asks_signAndSend_send h3
    obtain ⟨nonce, env, hb, hraw, rfl⟩ := hsigned
    refine ⟨s.events A ++ (lockEvents opts ++ [nonceRead b nonce]), env, ?_, hraw, ?_⟩
    · simp only [List.nil_append, List.append_assoc, List.cons_append]
    · exact asks_sign_iff.2 ⟨hsan, s, nonce, hb, rfl⟩
  · rcases asks_bind.1 h4 with h4 | ⟨_, _, _, -, -, h5⟩
    · rcases asks_awaitReceipt h4 with h4 | h4 <;> cases h4
    · exact absurd h5 asks_ret

/-- The two questions that commit the sequencer: a signature and a broadcast. -/
def Op.commits : Op → Prop
  | .signEip1559 _ | .rpc (.sendRawTransaction _) => True
  | _ => False

theorem vetted_of_asks_commits {o : Op} (ho : o.commits) (h : Asks (buildInner A b ops opts) t o) :
    ∃ packed, Vetted A b ops t packed := by
  unfold Op.commits at ho
  split at ho
  · obtain ⟨packed, hv, -⟩ := vetted_of_asks_sign h
    exact ⟨packed, hv⟩
  · obtain ⟨t', env, rfl, -, h'⟩ := asks_send h
    obtain ⟨packed, hv, -⟩ := vetted_of_asks_sign h'
    exact ⟨packed, hv.append _⟩
  · exact absurd ho id

/-- **The converse**: without a vetted batch nothing has been or is being signed or broadcast. -/
theorem commits_of_vetted {q : M SignedTxResp} (h : After (buildInner A b ops opts) t q)
    (hv : ∀ packed, ¬ Vetted A b ops t packed) :
    (∀ e ∈ t, ¬ e.1.commits) ∧ ∀ o, Asks (buildInner A b ops opts) t o → ¬ o.commits := by
  refine ⟨fun ⟨o, x⟩ he ho => ?_, fun o hasks ho => ?_⟩
  · obtain ⟨t₁, t₂, rfl, hasks⟩ := h.asks_of_mem he
    obtain ⟨packed, hp⟩ := vetted_of_asks_commits ho hasks
    exact hv packed (hp.append _)
  · obtain ⟨packed, hp⟩ := vetted_of_asks_commits ho hasks
    exact hv packed hp

/-! ## The response -/

/-- The response is about the transaction that was signed and the ops that were asked for. -/
structure ResponseAgrees (A : Alloy) (b : Bundler) (ops : List UserOpV07) (t : BundlerTrace)
    (resp : SignedTxResp) (env : TxEnvelope) : Prop where
  signed : ∀ tx x, ⟨.signEip1559 tx, x⟩ ∈ t ↔ tx = env.tx ∧ x = .ok env.signature
  sent : ∀ raw x, ⟨.rpc (.sendRawTransaction raw), x⟩ ∈ t → raw = resp.raw
  raw : resp.raw = A.encoded2718 env
  hash : resp.hash = A.txHash env
  kind : env.tx.to = .call resp.to
  chainId : resp.chainId = env.tx.chainId
  gas : resp.gas.toNat = env.tx.gasLimit.toNat
  maxFeePerGas : resp.maxFeePerGas.toNat = env.tx.maxFeePerGas.toNat
  maxPriorityFeePerGas : resp.maxPriorityFeePerGas.toNat = env.tx.maxPriorityFeePerGas.toNat
  length_hashes : resp.userOpHashes.length = ops.length
  hashes : ∀ i op, ops[i]? = some op → ∃ p hash, pack op = .ok p ∧ resp.userOpHashes[i]? = some hash ∧
    t[5 + 3 * i]? = some ⟨.rpc (.userOpHash b.cfg.entrypointAddress p), .ok hash⟩

theorem response_agrees {resp : SignedTxResp} (h : Run (buildInner A b ops opts) t (.ok resp)) :
    ∃ env, ResponseAgrees A b ops t resp env := by
  obtain ⟨s, nonce, env, submitted, receipt, hb, rfl, rfl⟩ := run_buildInner_ok h
  have hcheck : ∀ o x, ⟨o, x⟩ ∈ s.events A → Op.isCheck o := fun o x hm =>
    only_prepare.mem (run_prepare_ok.2 ⟨s, rfl, rfl⟩) hm
  have htail (e : Event Op Op.Ans) : e ∈ guardEvents opts (nonceRead b nonce :: signedWith env ::
      broadcastEvents opts (A.encoded2718 env) submitted) ++ receiptEvents opts (A.txHash env) receipt →
      (∀ tx x, e = ⟨.signEip1559 tx, x⟩ → tx = env.tx ∧ x = .ok env.signature) ∧
      ∀ raw x, e = ⟨.rpc (.sendRawTransaction raw), x⟩ → raw = A.encoded2718 env := by
    intro he
    unfold guardEvents broadcastEvents receiptEvents at he
    by_cases hs : opts.submit = true
    · simp only [if_pos hs, List.cons_append, List.nil_append, List.mem_cons, List.not_mem_nil, or_false] at he
      rcases he with rfl | rfl | rfl | rfl | rfl | rfl
      all_goals
        refine ⟨fun tx x hx => ?_, fun raw x hx => ?_⟩ <;> cases hx <;> simp
    · simp only [if_neg hs, List.append_nil, List.mem_cons, List.not_mem_nil, or_false] at he
      rcases he with rfl | rfl
      all_goals
        refine ⟨fun tx x hx => ?_, fun raw x hx => ?_⟩ <;> cases hx <;> simp
  have hsign : signedWith env ∈ guardEvents opts (nonceRead b nonce :: signedWith env ::
      broadcastEvents opts (A.encoded2718 env) submitted) := by
    unfold guardEvents
    split <;> simp
  rw [buildTx_ok s, Except.ok.injEq] at hb
  refine ⟨env, ?_⟩
  refine ⟨fun tx x => ⟨fun hm => ?_, ?_⟩, fun raw x hm => ?_, rfl, rfl, by rw [← hb]; rfl, by rw [← hb]; rfl,
    ?_, ?_, ?_, ?_, fun i op hop => ?_⟩
  · rcases List.mem_append.1 hm with hm | hm
    · exact absurd (hcheck _ _ hm) id
    · exact (htail _ hm).1 tx x rfl
  · rintro ⟨rfl, rfl⟩
    exact List.mem_append_right _ (List.mem_append_left _ hsign)
  · rcases List.mem_append.1 hm with hm | hm
    · exact absurd (hcheck _ _ hm) id
    · exact (htail _ hm).2 raw x rfl
  · rw [← hb]
    simp only [response, Settled.prepared, BitVec.toNat_setWidth]
    exact Nat.mod_eq_of_lt (Nat.lt_trans s.gas.isLt (by decide))
  · rw [← hb]
    simp only [response, Settled.prepared, BitVec.toNat_setWidth, Nat.mod_eq_of_lt s.outerFeeCap_lt]
  · rw [← hb]
    simp only [response, Settled.prepared, BitVec.toNat_setWidth, Nat.mod_eq_of_lt s.outerTip_lt]
  · simp only [response, Settled.prepared, List.length_map, s.length_checked]
  · obtain ⟨c, hc, rfl⟩ := s.exists_checkedAt hop
    refine ⟨c.packed, c.hash, c.pack_eq, ?_, ?_⟩
    · simp only [response, Settled.prepared, List.getElem?_map, hc, Option.map_some]
    · exact getElem?_append_of_some (s.getElem?_events (j := 2) (by omega) hc) _

/-! ## The gate -/

/-- **What is validated is what is signed.** Whatever the provider answers, a transaction handed
to the signer carries exactly the batch that was vetted in this call; a success answers with
what was signed; and without a vetted batch nothing is signed or broadcast. What is assumed of
`alloy`'s decoders stands where it is used. -/
theorem validated_is_signed (A : Alloy) (b : Bundler) (ops : List UserOpV07) (opts : BuildOpts) :
    (∀ t tx, Asks (buildInner A b ops opts) t (.signEip1559 tx) → ∃ packed, Vetted A b ops t packed ∧
      tx.input = A.handleOpsAbiEncode packed b.signerAddress ∧
      ∀ abiDecode : Bytes → Option (List PackedUserOperation × Address),
        (∀ ps beneficiary, abiDecode (A.handleOpsAbiEncode ps beneficiary) = some (ps, beneficiary)) →
        abiDecode tx.input = some (packed, b.signerAddress)) ∧
    (∀ t resp, Run (buildInner A b ops opts) t (.ok resp) → ∃ env, ResponseAgrees A b ops t resp env ∧
      ∀ decode2718 : Bytes → Option TxEnvelope, (∀ e, decode2718 (A.encoded2718 e) = some e) →
        decode2718 resp.raw = some env) ∧
    (∀ t q, After (buildInner A b ops opts) t q → (∀ packed, ¬ Vetted A b ops t packed) →
      (∀ e ∈ t, ¬ e.1.commits) ∧ ∀ o, Asks (buildInner A b ops opts) t o → ¬ o.commits) := by
  refine ⟨fun t tx h => ?_, fun t resp h => ?_, fun t q h hv => commits_of_vetted h hv⟩
  · obtain ⟨packed, hv, hinput⟩ := vetted_of_asks_sign h
    refine ⟨packed, hv, hinput, fun abiDecode hdec => ?_⟩
    rw [hinput, hdec]
  · obtain ⟨env, henv⟩ := response_agrees h
    refine ⟨env, henv, fun decode2718 hdec => ?_⟩
    rw [henv.raw, hdec]

/-- On the test-suite's node the signer is asked for a batch of two, and the call returns what it signed. -/
theorem validated_is_signed_happy :
    (∃ t tx packed, Asks (buildInner alloy testBundler twoOps submitOpts) t (.signEip1559 tx) ∧
      Vetted alloy testBundler twoOps t packed ∧ packed.length = 2 ∧
      tx.input = alloy.handleOpsAbiEncode packed testSigner) ∧
    ∃ t resp env, Run (buildInner alloy testBundler twoOps submitOpts) t (.ok resp) ∧
      ResponseAgrees alloy testBundler twoOps t resp env := by
  obtain ⟨hsign, hresp, -⟩ := validated_is_signed alloy testBundler twoOps submitOpts
  constructor
  · obtain ⟨t, o, ho, h, -⟩ := exec_asks mockAnswer (buildInner alloy testBundler twoOps submitOpts) Op.isSign
      (by decide)
    cases o with
    | signEip1559 tx =>
      obtain ⟨packed, hv, hinput, -⟩ := hsign t tx h
      obtain ⟨_, _, _, -, -, hlen, -⟩ := id hv
      exact ⟨t, tx, packed, h, hv, hlen, hinput⟩
    | _ => cases ho
  · have hrun := exec_run mockAnswer (buildInner alloy testBundler twoOps submitOpts)
    have hok : (exec mockAnswer (buildInner alloy testBundler twoOps submitOpts)).2.toBool = true := by decide
    rcases hr : (exec mockAnswer (buildInner alloy testBundler twoOps submitOpts)).2 with e | resp
    · rw [hr] at hok
      cases hok
    · rw [hr] at hrun
      obtain ⟨env, hagrees, -⟩ := hresp _ resp hrun
      exact ⟨_, resp, env, hrun, hagrees⟩

end EtheraBundler

import EtheraBundler.Service
/-!
# What a client gets

From the JSON a client sends to the transaction on its way to the chain, and back to the JSON it is
sent: the wire format (`Wire.lean`), the call (`Gate.lean`), the calls beside it (`SubmitLock.lean`) and
the process around them (`Service.lean`) in one statement.

* `Honoured` — what a result means to the client it goes to.
* `result_honoured` — **results are honest**, in every run of the service.
-/

namespace EtheraBundler

open Interact Wire

/-- The result `j` of the call that was asked for by `p`, in the history `t` of the call: there is a request
that `p` says and a response that `j` says, and one transaction that carries the ops of the one, in their
order and no others, and is the one the other is about. -/
structure Honoured (C : AlloyCodecs) (A : Alloy) (b : Bundler) (p : Params) (t : BundlerTrace) (j : Json)
    (r : Request) (resp : SignedTxResp) (envelope : TxEnvelope) : Prop where
  asked : p.Says C r
  told : (SignedTxResp.schema C).Says j (SignedTxResp.equivFields resp)
  signed : signedWith envelope ∈ t
  raw : resp.raw = A.encoded2718 envelope
  hash : resp.hash = A.txHash envelope
  target : resp.chainId = envelope.tx.chainId ∧ envelope.tx.to = .call resp.to
  carries : ∃ packed, List.Forall₂ PacksTo r.ops packed ∧
    envelope.tx.input = A.handleOpsAbiEncode packed b.signerAddress
  length_hashes : resp.userOpHashes.length = r.ops.length

theorem Vetted.packsTo {A : Alloy} {b : Bundler} {ops : List UserOpV07} {t : BundlerTrace}
    {packed : List PackedUserOperation} (h : Vetted A b ops t packed) : List.Forall₂ PacksTo ops packed := by
  obtain ⟨baseFee, clock, estimated, -, -, hlen, hchecked, -⟩ := h
  refine List.forall₂_iff_get.2 ⟨hlen.symm, fun i hi hi' => ?_⟩
  have hat := hchecked i _ _ (List.getElem?_eq_getElem hi) (List.getElem?_eq_getElem hi')
  exact (pack_ok.1 hat.pack_eq).2

/-- The transaction behind a result. -/
theorem honoured_of_run {C : AlloyCodecs} (hC : C.Lawful) {A : Alloy} {b : Bundler} {p : Params} {r : Request}
    {t : BundlerTrace} {resp : SignedTxResp} (hp : p.decode C = .ok r) (h : Run (r.call A b) t (.ok resp)) :
    ∃ envelope, Honoured C A b p t ((SignedTxResp.codec C).ser resp) r resp envelope := by
  obtain ⟨envelope, hagrees⟩ := response_agrees h
  have hsigned : signedWith envelope ∈ t := (hagrees.signed _ _).2 ⟨rfl, rfl⟩
  obtain ⟨t₁, t₂, rfl, hasks⟩ := After.asks_of_mem h hsigned
  obtain ⟨packed, hvetted, hinput⟩ := vetted_of_asks_sign hasks
  exact ⟨envelope, Params.decode_iff.1 hp, Schema.record_de_iff.1 ((SignedTxResp.lawful_codec hC).de_ser resp), hsigned,
    hagrees.raw, hagrees.hash, ⟨hagrees.chainId, hagrees.kind⟩, ⟨packed, hvetted.packsTo, hinput⟩,
    hagrees.length_hashes⟩

/-- **Results are honest.** In every run of the service, with any number of calls in any interleaving: where
the client that sent `p` gets the result `j`, there is one transaction that carries the ops `p` says and is
the one `j` is about; it is for the chain the node told the probe, goes to an address where the probe found
code, and in submit mode was accepted from this call. -/
theorem result_honoured {ι : Type} [DecidableEq ι] (C : AlloyCodecs) (hC : C.Lawful) (H : Host) (c : MainConfig)
    (A : Alloy) (code : Bytes) (build : BuildProfile) (p : ι → Params) (req : ι → Request)
    (hreq : ∀ i, (p i).decode C = .ok (req i)) (n₀ : Nat) (s : Service ι)
    (h : Served (.boot H c A code build req n₀) s) (i : ι) (j : Json)
    (hj : reply C (s.pool.calls i) = some (.result j)) :
    ∃ r resp envelope, Honoured C A (bundlerOf H c code build) (p i) (s.pool.calls i).hist j r resp envelope ∧
      ⟨.node .getChainId, .ok envelope.tx.chainId⟩ ∈ s.hist ∧
      (∃ found, found ≠ [] ∧ ⟨.node (.getCodeAt resp.to), .ok found⟩ ∈ s.hist) ∧
      (r.opts.submit = true → (i, resp.raw) ∈ s.pool.world.accepted) := by
  have hsound := sound_of_served h
  obtain ⟨resp, hret, ha⟩ | ⟨e, -, ha⟩ := reply_cases hj
  swap
  · cases ha
  cases ha
  obtain ⟨he, -⟩ | hrun := run_of_returned hsound.calls hret
  · cases he
  obtain ⟨envelope, hon⟩ := honoured_of_run hC (hreq i) hrun
  obtain ⟨hchain, hto⟩ := run_target hrun
  obtain ⟨-, hsent⟩ := run_result hrun
  have hprobed := probed_of_asked h (List.ne_nil_of_mem hon.signed)
  refine ⟨req i, resp, envelope, hon, ?_, ?_, fun hs => ?_⟩
  · rw [← hon.target.1, hchain]
    exact hprobed.chainId
  · rw [hto]
    exact hprobed.code
  · obtain ⟨x, hx⟩ := hsent hs
    exact (counted hsound.calls).recorded i _ x hx

/-- The first of the three calls, from its JSON to its result. -/
theorem result_honoured_threeCalls : ∃ (s : Service (Fin 3)) (j : Json) (r : Request) (resp : SignedTxResp),
    Served (.boot testHost testMain alloy [0x60, 0x80] .release threeCalls 7) s ∧
      reply hexCodecs (s.pool.calls 0) = some (.result j) ∧ (Params.encode hexCodecs (threeCalls 0)).Says hexCodecs r ∧
      (SignedTxResp.schema hexCodecs).Says j (SignedTxResp.equivFields resp) := by
  obtain ⟨s, hs, -, -, resp, hr⟩ := exists_served_threeCalls
  have hj : reply hexCodecs (s.pool.calls 0) = some (.result ((SignedTxResp.codec hexCodecs).ser resp)) := by
    rw [reply, hr]
  obtain ⟨r, resp', envelope, hon, -⟩ := result_honoured hexCodecs lawful_hexCodecs testHost testMain alloy [0x60, 0x80]
    .release (fun i => Params.encode hexCodecs (threeCalls i)) threeCalls
    (fun i => Params.decode_encode lawful_hexCodecs (threeCalls i)) 7 s hs 0 _ hj
  exact ⟨s, _, r, resp', hs, hj, hon.asked, hon.told⟩

end EtheraBundler

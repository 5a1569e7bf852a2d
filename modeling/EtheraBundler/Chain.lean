import EtheraBundler.Budget
import EtheraBundler.InFlight
import Mathlib.Data.List.Nodup
/-!
# What reaches the chain

Requests get lost, arrive late and arrive twice, callers go away, and two calls may draw one nonce
(`nonce_delivered_twice`). What the execution layer makes of it is a chain all the same: the
requests that raise its pending nonce one after the other.

* `mined` — those requests, read off the ones delivered.
* `Commissioned` — what a request is: one call's signature over the batch that call vetted.
* `NoGap`, `noGap` — no request is ahead of the pending nonce, over a step and over a run.
* `chain_contiguous` — **the chain has no gap**, holds at most one transaction a call, and each of
  its transactions is a vetted batch.
-/

namespace EtheraBundler

open Interact

variable {A : Alloy} {b : Bundler} {ι : Type} {req : ι → Request} {n₀ : Nat}

/-! ## The chain -/

/-- The requests at the pending nonce of their moment, `n` at first. -/
def mined (n : Nat) : List (Msg ι) → List (Msg ι)
  | [] => []
  | m :: ms => if m.nonce.toNat = n then m :: mined (n + 1) ms else mined n ms

theorem mined_append_singleton (n : Nat) (ms : List (Msg ι)) (m : Msg ι) :
    mined n (ms ++ [m]) = mined n ms ++ if m.nonce.toNat = n + (mined n ms).length then [m] else [] := by
  induction ms generalizing n with
  | nil =>
    simp only [List.nil_append, mined, List.length_nil, Nat.add_zero]
    rfl
  | cons m' ms ih =>
    simp only [List.cons_append, mined]
    by_cases hm : m'.nonce.toNat = n
    · simp only [if_pos hm, List.cons_append, List.length_cons, ih]
      congr 2
      have : n + 1 + (mined (n + 1) ms).length = n + ((mined (n + 1) ms).length + 1) := by omega
      rw [this]
    · simp only [if_neg hm, ih]

theorem mem_of_mem_mined {n : Nat} {ms : List (Msg ι)} {m : Msg ι} (h : m ∈ mined n ms) : m ∈ ms := by
  induction ms generalizing n with
  | nil => cases h
  | cons m' ms ih =>
    rw [mined] at h
    split at h
    · rcases List.mem_cons.1 h with rfl | h
      · exact List.mem_cons_self
      · exact List.mem_cons_of_mem _ (ih h)
    · exact List.mem_cons_of_mem _ (ih h)

/-- Their nonces count up from the first. -/
theorem map_nonce_mined (n : Nat) (ms : List (Msg ι)) :
    (mined n ms).map (·.nonce.toNat) = List.range' n (mined n ms).length := by
  induction ms generalizing n with
  | nil => rfl
  | cons m ms ih =>
    rw [mined]
    split
    · rw [List.map_cons, List.length_cons, List.range'_succ, ih, ‹m.nonce.toNat = n›]
    · exact ih n

/-! ## Whose signature it is -/

/-- The signatures of a call. -/
def signPrice : OpKind → Nat
  | .signEip1559 => 1
  | _ => 0

/-- A call asks for one signature at most. -/
theorem signed_once {ops : List UserOpV07} {opts : BuildOpts} {t : BundlerTrace} {q : M SignedTxResp}
    (h : After (buildInner A b ops opts) t q) {env env' : TxEnvelope} (he : signedWith env ∈ t)
    (he' : signedWith env' ∈ t) : env = env' := by
  by_contra hne
  have hcosts : Costs (priceOf signPrice) (buildInner A b ops opts) _ := costs_buildInner
  have hspent := hcosts.spent_le h
  have hbudget : callBudget signPrice (min ops.length b.cfg.maxBatchSize) opts.submit = 1 := by
    unfold callBudget checkBudget opBudget sendBudget receiptBudget receiptCost
    simp [signPrice]
  obtain ⟨t₁, t₂, rfl⟩ := List.append_of_mem he
  have hother : signedWith env' ∈ t₁ ++ t₂ := by
    have hne' : signedWith env' ≠ signedWith env := fun h => hne (eq_of_signedWith h).symm
    simp only [List.mem_append, List.mem_cons] at he' ⊢
    tauto
  have hprice (env : TxEnvelope) : priceOf signPrice (signedWith env).1 = 1 := rfl
  have hone : priceOf signPrice (signedWith env').1 ≤ spent (priceOf signPrice) (t₁ ++ t₂) := price_le_spent hother
  rw [hbudget, spent_append, spent_cons, hprice] at hspent
  rw [spent_append, hprice] at hone
  omega

/-- What a request is: a `handleOps` transaction of the call it came from, which is a submit, over the
batch that this call was asked for and has vetted. -/
structure Commissioned (A : Alloy) (b : Bundler) (req : ι → Request) (s : NetPool ι) (m : Msg ι) : Prop where
  submit : (req m.sender).opts.submit = true
  raw : m.raw = A.encoded2718 m.env
  signed : signedWith m.env ∈ (s.calls m.sender).hist
  chainId : m.env.tx.chainId = b.cfg.chainId
  kind : m.env.tx.to = .call b.cfg.entrypointAddress
  value : m.env.tx.value = 0
  vetted : ∃ packed, Vetted A b (req m.sender).ops (s.calls m.sender).hist packed ∧
    m.env.tx.input = A.handleOpsAbiEncode packed b.signerAddress

variable [DecidableEq ι] {s s' : NetPool ι}

/-- Only a call past its lock sends requests. -/
theorem msgs_submit (h : NetReachable A b req n₀ anyStep s) :
    ∀ m ∈ s.world.msgs, (req m.sender).opts.submit = true := by
  refine h.inv (I := fun s => ∀ m ∈ s.world.msgs, (req m.sender).opts.submit = true) ?_ ?_
  · intro m hm
    cases hm
  · intro s s' l hr _ hstep hI
    cases hstep with
    | answer i f o k w live hcur hw =>
      obtain ⟨-, hw', -⟩ := netAnswer_some hw
      rw [Pool.answered_world, hw']
      exact hI
    | act i l o k w live hcur hw =>
      obtain ⟨raw, env, rfl, hph, rfl⟩ := netAct_some hw
      intro m hm
      simp only [Net.msgs, List.mem_append, List.mem_singleton] at hm
      rcases hm with (hm | rfl) | hm
      · exact hI m (List.mem_append_left _ hm)
      · refine (phaseAgrees_of_reach hr i).submits ?_
        rw [hph]
        intro h
        cases h
      · exact hI m (List.mem_append_right _ hm)
    | drop i w live hw =>
      rw [net_drop hw]
      exact hI
    | env e w hw =>
      rcases netEnv_some hw with ⟨k, m, hk, rfl⟩ | ⟨k, rfl⟩
      · exact fun m' hm' => hI m' (mem_msgs_deliver hk hm')
      · intro m hm
        rcases List.mem_append.1 hm with hm | hm
        · exact hI m (List.mem_append_left _ (List.mem_of_mem_eraseIdx hm))
        · exact hI m (List.mem_append_right _ hm)

/-- **Every request was commissioned** by the call it came from. -/
theorem commissioned (h : NetReachable A b req n₀ anyStep s) {m : Msg ι} (hm : m ∈ s.world.msgs) :
    Commissioned A b req s m := by
  obtain ⟨hraw, hsigned⟩ := msgs_signed h m hm
  have hafter : After (buildInner A b (req m.sender).ops (req m.sender).opts) (s.calls m.sender).hist
      (s.calls m.sender).cur := h.after m.sender
  obtain ⟨t₁, t₂, ht, hasks⟩ := hafter.asks_of_mem hsigned
  obtain ⟨packed, hv, hinput⟩ := vetted_of_asks_sign hasks
  obtain ⟨-, settled, nonce, hb, -⟩ := asks_sign_iff.1 hasks
  rw [buildTx_ok, Except.ok.injEq] at hb
  refine ⟨msgs_submit h m hm, hraw, hsigned, ?_, ?_, ?_, packed, ?_, hinput⟩
  · rw [← hb]
  · rw [← hb]
  · rw [← hb]
  · rw [ht]
    exact hv.append _

/-- One call's requests are one transaction. -/
theorem msgs_same (h : NetReachable A b req n₀ anyStep s) {m m' : Msg ι} (hm : m ∈ s.world.msgs)
    (hm' : m' ∈ s.world.msgs) (he : m.sender = m'.sender) : m.env = m'.env ∧ m.raw = m'.raw := by
  have hc := commissioned h hm
  have hc' := commissioned h hm'
  have henv : m.env = m'.env := by
    refine signed_once (h.after m.sender) hc.signed ?_
    rw [he]
    exact hc'.signed
  refine ⟨henv, ?_⟩
  rw [hc.raw, hc'.raw, henv]

/-! ## No gap -/

/-- The pending nonce counts the chain, and no nonce drawn or under way is ahead of it. -/
structure NoGap (n₀ : Nat) (s : NetPool ι) : Prop where
  pending : s.world.pending = n₀ + (mined n₀ s.world.delivered).length
  reached : ∀ m ∈ s.world.inflight, n₀ ≤ m.nonce.toNat ∧ m.nonce.toNat ≤ s.world.pending
  passed : ∀ m ∈ s.world.delivered, n₀ ≤ m.nonce.toNat ∧ m.nonce.toNat < s.world.pending
  drawn : ∀ i n, (Phase.of (s.calls i).hist).nonce = some n → n₀ ≤ n.toNat ∧ n.toNat ≤ s.world.pending

omit [DecidableEq ι] in
/-- Steps that answer nobody and leave what was delivered as it is. -/
theorem NoGap.quiet (h : NoGap n₀ s) (hhist : ∀ j, (s'.calls j).hist = (s.calls j).hist)
    (hp : s'.world.pending = s.world.pending) (hd : s'.world.delivered = s.world.delivered)
    (hin : ∀ m ∈ s'.world.inflight, m ∈ s.world.inflight) : NoGap n₀ s' where
  pending := by
    rw [hp, hd]
    exact h.pending
  reached m hm := by
    rw [hp]
    exact h.reached m (hin m hm)
  passed m hm := by
    rw [hd] at hm
    rw [hp]
    exact h.passed m hm
  drawn i n hn := by
    rw [hhist] at hn
    rw [hp]
    exact h.drawn i n hn

/-- One answer: the nonce it tells, if it tells one, is the pending one. -/
theorem NoGap.answered (hr : NetReachable A b req n₀ anyStep s) (h : NoGap n₀ s) {i : ι} {f : (o : Op) → o.Ans}
    {o : Op} {k : o.Ans → M SignedTxResp} {w : Net ι} (hcur : (s.calls i).cur = .ask o k)
    (hw : netAnswer s.world i o (f o) = some w) : NoGap n₀ (s.answered i ⟨o, f o⟩ (k (f o)) w) := by
  obtain ⟨-, hw', hread⟩ := netAnswer_some hw
  have hp : w.pending = s.world.pending := by rw [hw']
  have hi : w.inflight = s.world.inflight := by rw [hw']
  have hd : w.delivered = s.world.delivered := by rw [hw']
  refine ⟨?_, ?_, ?_, fun j n hn => ?_⟩
  · rw [Pool.answered_world, hp, hd]
    exact h.pending
  · rw [Pool.answered_world, hi, hp]
    exact h.reached
  · rw [Pool.answered_world, hd, hp]
    exact h.passed
  rw [Pool.answered_world, hp]
  by_cases hji : j = i
  · subst hji
    rw [Pool.answered_self, Phase.of_snoc] at hn
    rcases (answer_step hr hcur (f o)).nonce hn with hn' | he
    · exact h.drawn j n hn'
    · have hpend := hread b n he
      have hstart := h.pending
      omega
  · rw [Pool.answered_of_ne _ _ _ _ hji] at hn
    exact h.drawn j n hn

omit [DecidableEq ι] in
/-- One request processed: at the pending nonce it is mined, below it it is refused. -/
theorem NoGap.delivered (h : NoGap n₀ s) {k : Nat} {m : Msg ι} (hk : s.world.inflight[k]? = some m) :
    NoGap n₀ { s with world := s.world.deliver k m } := by
  have hp : s.world.pending ≤ (s.world.deliver k m).pending := by
    simp only [Net.deliver]
    split <;> omega
  have hm := h.reached m (List.mem_of_getElem? hk)
  refine ⟨?_, fun m' hm' => ?_, fun m' hm' => ?_, fun i n hn => ?_⟩
  · simp only [Net.deliver, mined_append_singleton, ← h.pending]
    by_cases hat : m.nonce.toNat = s.world.pending
    · rw [if_pos hat, if_pos hat, List.length_append, List.length_singleton, h.pending]
      omega
    · rw [if_neg hat, if_neg hat, List.append_nil, h.pending]
  · obtain ⟨h1, h2⟩ := h.reached m' (List.mem_of_mem_eraseIdx hm')
    exact ⟨h1, Nat.le_trans h2 hp⟩
  · rcases List.mem_append.1 hm' with hm' | hm'
    · obtain ⟨h1, h2⟩ := h.passed m' hm'
      exact ⟨h1, Nat.lt_of_lt_of_le h2 hp⟩
    · cases List.mem_singleton.1 hm'
      refine ⟨hm.1, ?_⟩
      simp only [Net.deliver]
      split <;> omega
  · obtain ⟨h1, h2⟩ := h.drawn i n hn
    exact ⟨h1, Nat.le_trans h2 hp⟩

theorem noGap (h : NetReachable A b req n₀ anyStep s) : NoGap n₀ s := by
  refine h.inv (I := NoGap n₀) ?_ ?_
  · refine ⟨rfl, fun m hm => (by cases hm), fun m hm => (by cases hm), ?_⟩
    intro i n hn
    cases hn
  · intro s s' l hr _ hm hI
    cases hm with
    | answer i f o k w live hcur hw => exact hI.answered hr hcur hw
    | act i l o k w live hcur hw =>
      obtain ⟨raw, env, rfl, hph, rfl⟩ := netAct_some hw
      have hn : (Phase.of (s.calls i).hist).nonce = some env.tx.nonce := by
        rw [hph]
        rfl
      refine ⟨hI.pending, fun m hm => ?_, hI.passed, hI.drawn⟩
      rcases List.mem_append.1 hm with hm | hm
      · exact hI.reached m hm
      · cases List.mem_singleton.1 hm
        exact hI.drawn i _ hn
    | drop i w live hw =>
      rw [net_drop hw]
      exact hI.quiet (fun j => Pool.cut_hist ..) rfl rfl fun _ hm => hm
    | env e w hw =>
      rcases netEnv_some hw with ⟨k, m, hk, rfl⟩ | ⟨k, rfl⟩
      · exact hI.delivered hk
      · exact hI.quiet (fun _ => rfl) rfl rfl fun m hm => List.mem_of_mem_eraseIdx hm

omit [DecidableEq ι] in
theorem NoGap.reaches (h : NoGap n₀ s) {m : Msg ι} (hm : m ∈ s.world.msgs) :
    n₀ ≤ m.nonce.toNat ∧ m.nonce.toNat ≤ s.world.pending := by
  rcases List.mem_append.1 hm with hm | hm
  · exact h.reached m hm
  · obtain ⟨h1, h2⟩ := h.passed m hm
    exact ⟨h1, Nat.le_of_lt h2⟩

/-- No two transactions of the chain come from one call. -/
theorem nodup_senders_mined (h : NetReachable A b req n₀ anyStep s) :
    ((mined n₀ s.world.delivered).map (·.sender)).Nodup := by
  -- Different places of the chain have different nonces, and one call has one nonce.
  have hnodup : ((mined n₀ s.world.delivered).map (·.nonce.toNat)).Nodup := by
    rw [map_nonce_mined]
    exact List.nodup_range'
  refine List.Nodup.map_on ?_ (List.Nodup.of_map _ hnodup)
  intro m hm m' hm' he
  have hin := List.mem_append_right s.world.inflight (mem_of_mem_mined hm)
  have hin' := List.mem_append_right s.world.inflight (mem_of_mem_mined hm')
  obtain ⟨henv, -⟩ := msgs_same h hin hin' he
  refine List.inj_on_of_nodup_map hnodup hm hm' ?_
  simp only [Msg.nonce, henv]

/-- **The chain has no gap.** In every run, whatever is lost, late, repeated, cancelled or overtaken:
no request is ahead of the pending nonce, so the next call's transaction is always the next to be
mined; the chain's nonces count up from the first one to the pending one; no two of its transactions
come from one call; and every request is the transaction one submit signed over the batch it vetted,
the same however often it was sent. -/
theorem chain_contiguous (A : Alloy) (b : Bundler) (req : ι → Request) (n₀ : Nat) (s : NetPool ι)
    (h : NetReachable A b req n₀ anyStep s) :
    (∀ m ∈ s.world.msgs, Commissioned A b req s m ∧ n₀ ≤ m.nonce.toNat ∧ m.nonce.toNat ≤ s.world.pending) ∧
    (∀ m ∈ s.world.msgs, ∀ m' ∈ s.world.msgs, m.sender = m'.sender → m.env = m'.env ∧ m.raw = m'.raw) ∧
    s.world.pending = n₀ + (mined n₀ s.world.delivered).length ∧
    (mined n₀ s.world.delivered).map (·.nonce.toNat) = List.range' n₀ (s.world.pending - n₀) ∧
    ((mined n₀ s.world.delivered).map (·.sender)).Nodup := by
  have hgap := noGap h
  refine ⟨fun m hm => ⟨commissioned h hm, hgap.reaches hm⟩, fun m hm m' hm' he => msgs_same h hm hm' he, hgap.pending,
    ?_, nodup_senders_mined h⟩
  rw [map_nonce_mined, hgap.pending, Nat.add_sub_cancel_left]

/-- Two calls signed nonce 7 and both were delivered: one of them is on the chain. -/
theorem chain_contiguous_overtaken : ∃ s : NetPool (Fin 2),
    NetReachable alloy testBundler twoSubmits 7 anyStep s ∧ s.world.delivered.length = 2 ∧
      s.world.pending = 8 ∧ (mined 7 s.world.delivered).length = 1 := by
  obtain ⟨s, hs, hp⟩ := exists_reach_of_run netRules anyStep
    (.start (calls alloy testBundler twoSubmits) (.start 7)) overtakenRun
    (fun s => s.world.delivered.length == 2 && s.world.pending == 8) (by decide)
  rw [Bool.and_eq_true, beq_iff_eq, beq_iff_eq] at hp
  obtain ⟨-, -, hpending, -, -⟩ := chain_contiguous alloy testBundler twoSubmits 7 s hs
  rw [hp.2] at hpending
  exact ⟨s, hs, hp.1, hp.2, by omega⟩

end EtheraBundler

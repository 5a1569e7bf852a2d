import EtheraBundler.Budget
import EtheraBundler.Cancel
import EtheraBundler.Lib.Progress
/-!
# Every call comes to an end

Safety is `SubmitLock.lean`; here is the other half, for the same calls, lock and execution layer.

* `enabled_of_truthful` — a call waits for nothing but the lock.
* `Node`, `Truthful` — any behaviour of the node and the signer, but for made-up nonces.
* `all_calls_end` — **every call ends**: no run of answers is longer than the budgets of the calls,
  and where no answer is possible all calls are over and the lock is free.
* `shutdown_completes` — **a shutdown can end** without another answer of the node: once the token has
  fired some schedule returns every call, and what was sent by then is all that is sent.
* `section_bounded` — **the lock is passed on**: whoever holds it can go on, or free it at once where the
  token has fired, and gives it back within its next four answers.
-/

namespace EtheraBundler

open Interact

variable {A : Alloy} {b : Bundler} {ι : Type} [DecidableEq ι] {req : ι → Request} {n₀ : Nat} {s s' : SubmitPool ι}

/-! ## What a call can wait for -/

/-- A call that has returned is over, any other waits for an answer. -/
theorem returned_or_asks (c : Call Op Op.Ans Exit SignedTxResp) :
    (returned c).isSome = true ∨ (c.dropped = false ∧ ∃ o k, c.cur = .ask o k) := by
  obtain ⟨hist, cur, dropped⟩ := c
  rcases dropped with - | -
  · rcases cur with resp | e | ⟨o, k⟩
    · exact Or.inl rfl
    · exact Or.inl rfl
    · exact Or.inr ⟨rfl, o, k, rfl⟩
  · exact Or.inl rfl

theorem returned_of_dropped {c : Call Op Op.Ans Exit SignedTxResp} (h : c.dropped = true) :
    (returned c).isSome = true := by
  obtain ⟨hist, cur, dropped⟩ := c
  subst h
  rfl

theorem not_returned_of_asks {c : Call Op Op.Ans Exit SignedTxResp} {o : Op} {k : o.Ans → M SignedTxResp}
    (live : c.dropped = false) (hcur : c.cur = .ask o k) : (returned c).isSome = false := by
  obtain ⟨hist, cur, dropped⟩ := c
  subst live
  subst hcur
  rfl

omit [DecidableEq ι] in
/-- The execution layer can always answer, but for a free lock and a nonce that is not its own. -/
theorem ledgerAnswer_enabled {w : Ledger ι} {i : ι} {o : Op} {x : o.Ans} (hlock : o = .lock → w.lock = none)
    (hnonce : ∀ addr n, (⟨o, x⟩ : Event Op Op.Ans) = ⟨.rpc (.pendingNonce addr), .ok n⟩ → n.toNat = w.pending) :
    ∃ w', ledgerAnswer w i o x = some w' := by
  have hl : ∃ lock, lockAnswer w.lock i o = some lock := by
    unfold lockAnswer
    split
    · exact ⟨some i, by rw [hlock rfl]; rfl⟩
    · exact ⟨none, rfl⟩
    · exact ⟨w.lock, rfl⟩
  obtain ⟨lock, hl⟩ := hl
  unfold ledgerAnswer
  rw [hl, Option.bind_some]
  unfold Ledger.answer
  split
  · rename_i addr n
    rw [if_pos (hnonce addr n rfl)]
    exact ⟨_, rfl⟩
  · exact ⟨_, rfl⟩
  · exact ⟨_, rfl⟩

/-- What the node and the signer say to each call in each state. -/
abbrev Node (ι : Type) := SubmitPool ι → ι → (o : Op) → o.Ans

/-- The one thing asked of a node: a nonce it gives out is the pending one. -/
def Truthful (node : Node ι) : Prop :=
  ∀ s i addr n, node s i (.rpc (.pendingNonce addr)) = .ok n → n.toNat = s.world.pending

/-- Call `i` is given the node's answer. -/
def turn (node : Node ι) (s : SubmitPool ι) (i : ι) : Option (SubmitPool ι) :=
  ledgerRules.step s (.answer i (node s i))

/-- **A call waits for nothing but the lock.** -/
theorem enabled_of_truthful {node : Node ι} (hnode : Truthful node) {i : ι} {o : Op} {k : o.Ans → M SignedTxResp}
    (live : (s.calls i).dropped = false) (hcur : (s.calls i).cur = .ask o k)
    (hlock : o = .lock → s.world.lock = none) : ∃ s', turn node s i = some s' := by
  have henabled : ∃ w, ledgerAnswer s.world i o (node s i o) = some w := by
    refine ledgerAnswer_enabled hlock fun addr n he => ?_
    obtain rfl : o = .rpc (.pendingNonce addr) := congrArg Sigma.fst he
    exact hnode s i addr n (eq_of_heq (Sigma.mk.inj he).2)
  obtain ⟨w, hw⟩ := henabled
  refine ⟨s.answered i ⟨o, node s i o⟩ (k (node s i o)) w, ?_⟩
  simp only [turn, Rules.step, live, hcur]
  rw [show ledgerRules.answer s.world i (s.calls i).hist o (node s i o) = some w from hw]
  rfl

/-- Whoever holds the lock waits for something else. -/
theorem holder_asks (h : Reachable A b req n₀ s) {j : ι} (hj : s.world.lock = some j) :
    (s.calls j).dropped = false ∧ ∃ o k, (s.calls j).cur = .ask o k ∧ o ≠ .lock := by
  obtain ⟨live, hin⟩ := (lock_iff h j).1 hj
  rcases returned_or_asks (s.calls j) with hret | ⟨-, o, k, hcur⟩
  · -- an ended call is out of the section
    exfalso
    have hended : ∃ r, (s.calls j).cur = Prog.exit r := by
      rcases hcur : (s.calls j).cur with resp | e | ⟨o, k⟩
      · exact ⟨.ok resp, rfl⟩
      · exact ⟨.error e, rfl⟩
      · rw [not_returned_of_asks live hcur] at hret
        cases hret
    obtain ⟨r, hr⟩ := hended
    exact (serialised h).ended j r hr ((inside_iff h j).2 ⟨live, hin⟩)
  · refine ⟨live, o, k, hcur, ?_⟩
    rintro rfl
    have ha := h.allowed (fun i => obeys_call A b (req i)) hcur
    rw [submitProtocol_phase] at ha
    rw [((bracketed A b (req j).opts.submit).enter _ () ha).1] at hin
    cases hin

/-! ## Every call ends -/

/-- The answers call `i` may still get. -/
def answersLeft (b : Bundler) (req : ι → Request) (i : ι) (c : Call Op Op.Ans Exit SignedTxResp) : Nat :=
  callBudget (fun _ => 1) (min (req i).ops.length b.cfg.maxBatchSize) (req i).opts.submit - c.hist.length

omit [DecidableEq ι] in
theorem hist_length_le {i : ι} {c : Call Op Op.Ans Exit SignedTxResp}
    (h : After ((req i).call A b) c.hist c.cur) :
    c.hist.length ≤ callBudget (fun _ => 1) (min (req i).ops.length b.cfg.maxBatchSize) (req i).opts.submit := by
  have hcosts : Costs (priceOf fun _ => 1) ((req i).call A b) _ := costs_buildInner
  have hle := hcosts.spent_le h
  rwa [show priceOf (fun _ => 1) = fun _ => 1 from rfl, spent_one] at hle

/-- A turn uses up one answer. -/
theorem turn_rank [Fintype ι] {node : Node ι} (h : Reachable A b req n₀ s) {i : ι} (hs : turn node s i = some s') :
    Reachable A b req n₀ s' ∧ totalRank (answersLeft b req) s' < totalRank (answersLeft b req) s := by
  have h' : Reachable A b req n₀ s' := .step _ h rfl hs
  have hm := step_moves hs
  have hle := hist_length_le (h'.after i)
  refine ⟨h', hm.rank_lt (i := i) ?_⟩
  unfold answersLeft
  cases hm with
  | answer i f o k w live hcur hw =>
    rw [Pool.answered_self] at hle ⊢
    simp only [List.length_append, List.length_singleton] at hle ⊢
    omega

/-- Where no turn is possible all calls are over. -/
theorem all_returned_of_stuck {node : Node ι} (hnode : Truthful node) (h : Reachable A b req n₀ s)
    (hstuck : ∀ i, turn node s i = none) : (∀ i, (returned (s.calls i)).isSome = true) ∧ s.world.lock = none := by
  have hfree : s.world.lock = none := by
    rcases hl : s.world.lock with - | j
    · rfl
    obtain ⟨live, o, k, hcur, hne⟩ := holder_asks h hl
    obtain ⟨s', hs⟩ := enabled_of_truthful hnode live hcur fun ho => absurd ho hne
    rw [hstuck j] at hs
    cases hs
  refine ⟨fun i => ?_, hfree⟩
  rcases returned_or_asks (s.calls i) with hret | ⟨live, o, k, hcur⟩
  · exact hret
  · obtain ⟨s', hs⟩ := enabled_of_truthful hnode live hcur fun _ => hfree
    rw [hstuck i] at hs
    cases hs

/-- **Every call ends.** Whatever the node and the signer answer, errors included, and whoever's
turn it is: from every reachable state, a schedule is never longer than the answers the calls have
left; one after which no turn is possible leaves all calls over and the lock free; and there is one.
The schedules are of answers alone; what a fired token adds to them is `shutdown_completes`. -/
theorem all_calls_end [Fintype ι] (A : Alloy) (b : Bundler) (req : ι → Request) (n₀ : Nat) (node : Node ι)
    (hnode : Truthful node) (s : SubmitPool ι) (h : Reachable A b req n₀ s) :
    (∀ (sched : List ι) s', sched.foldlM (turn node) s = some s' →
      sched.length + totalRank (answersLeft b req) s' ≤ totalRank (answersLeft b req) s ∧
      ((∀ i, turn node s' i = none) → (∀ i, (returned (s'.calls i)).isSome = true) ∧ s'.world.lock = none)) ∧
    ∃ (sched : List ι) (s' : SubmitPool ι), sched.foldlM (turn node) s = some s' ∧
      (∀ i, (returned (s'.calls i)).isSome = true) ∧ s'.world.lock = none := by
  constructor
  · intro sched s' hrun
    refine ⟨foldlM_rank (I := Reachable A b req n₀) (fun _ _ _ hI hs => turn_rank hI hs) h hrun, ?_⟩
    exact all_returned_of_stuck hnode (foldlM_inv (fun _ _ _ hI hs => (turn_rank hI hs).1) h hrun)
  · have hstep (s : SubmitPool ι) (hI : Reachable A b req n₀ s) (hd : ¬ ∀ i, turn node s i = none) :
        ∃ i s', turn node s i = some s' ∧ Reachable A b req n₀ s' ∧
          totalRank (answersLeft b req) s' < totalRank (answersLeft b req) s := by
      simp only [not_forall] at hd
      obtain ⟨i, hi⟩ := hd
      obtain ⟨s', hs⟩ := Option.ne_none_iff_exists'.1 hi
      exact ⟨i, s', hs, turn_rank hI hs⟩
    obtain ⟨sched, s', hrun, -, h', hstuck⟩ := drive hstep h
    exact ⟨sched, s', hrun, all_returned_of_stuck hnode h' hstuck⟩

/-- The mock node with a pending nonce of its own. -/
def honestNode : Node ι := fun s _ o =>
  match o with
  | .rpc (.pendingNonce _) =>
    if s.world.pending < 18446744073709551616 then .ok (BitVec.ofNat 64 s.world.pending)
    else .error (.transport "nonce too high")
  | o => mockAnswer o

omit [DecidableEq ι] in
theorem truthful_honestNode : Truthful (honestNode (ι := ι)) := by
  intro s i addr n h
  simp only [honestNode] at h
  split at h
  · rename_i hlt
    cases h
    rw [BitVec.toNat_ofNat]
    omega
  · cases h

/-- Two submits and a sign-only call, from their start to their end. -/
theorem all_calls_end_threeCalls : ∃ (sched : List (Fin 3)) (s : SubmitPool (Fin 3)),
    sched.foldlM (turn honestNode) (.start (calls alloy testBundler threeCalls) (.start 7)) = some s ∧
      (∀ i, (returned (s.calls i)).isSome = true) ∧ s.world.lock = none := by
  obtain ⟨-, sched, s', hrun, hret, hlock⟩ :=
    all_calls_end alloy testBundler threeCalls 7 honestNode truthful_honestNode _ .init
  exact ⟨sched, s', hrun, hret, hlock⟩

/-! ## Shutdown -/

/-- The steps of a shutdown: a plain function call returns, or a suspended call is dropped. -/
def shutdownStep (s : SubmitPool ι) : Label ι Empty Unit Op Op.Ans → Option (SubmitPool ι)
  | .answer i f =>
    if (s.calls i).pending.any fun o => !o.isAwait then ledgerRules.step s (.answer i f) else none
  | .drop i => ledgerRules.step s (.drop i)
  | _ => none

/-- The steps a call is from returning. -/
def shutdownRank (_ : ι) (c : Call Op Op.Ans Exit SignedTxResp) : Nat :=
  if (returned c).isSome then 0 else if suspended c.hist c.pending then 1 else 2

theorem step_of_shutdownStep {l : Label ι Empty Unit Op Op.Ans} (h : shutdownStep s l = some s') :
    ledgerRules.step s l = some s' := by
  unfold shutdownStep at h
  split at h
  · split at h
    · exact h
    · cases h
  · exact h
  · cases h

/-- Only the lock moves. -/
theorem shutdownStep_world {l : Label ι Empty Unit Op Op.Ans} (h : shutdownStep s l = some s') :
    s'.world.accepted = s.world.accepted ∧ s'.world.pending = s.world.pending ∧
      s'.world.cancelled = s.world.cancelled := by
  have hm := step_moves (step_of_shutdownStep h)
  cases hm with
  | answer i f o k w live hcur hw =>
    unfold shutdownStep at h
    simp only [Call.pending, hcur, Option.any_some] at h
    split at h
    · rename_i hplain
      simp only [Pool.answered_world]
      have hlock : ∃ lock, w = { s.world with lock := lock } := by
        obtain ⟨lock, -, hw⟩ := Option.bind_eq_some_iff.1 hw
        refine ⟨lock, ?_⟩
        rcases Ledger.answer_cases hw with ⟨raw, y, he, -⟩ | ⟨-, rfl, -⟩
        · obtain rfl : o = .rpc (.sendRawTransaction raw) := congrArg Sigma.fst he
          cases hplain
        · rfl
      obtain ⟨lock, rfl⟩ := hlock
      exact ⟨rfl, rfl, rfl⟩
    · cases h
  | act i l => exact nomatch l
  | drop i w live hw =>
    obtain ⟨-, rfl⟩ := ledger_drop hw
    exact ⟨rfl, rfl, rfl⟩
  | env e w hw => cases h

/-- Counts the readings of the clock. -/
def clockPrice : OpKind → Nat
  | .sinceEpoch => 1
  | _ => 0

theorem clockBudget (n : Nat) (submit : Bool) : callBudget clockPrice n submit ≤ 1 := by
  cases submit <;> simp [callBudget, checkBudget, opBudget, sendBudget, receiptBudget, receiptCost, clockPrice]

/-- No two plain function calls follow one another. -/
theorem isAwait_after_plain {r : Request} {t : BundlerTrace} {o o' : Op} {x : o.Ans} {k : o'.Ans → M SignedTxResp}
    (h : After (r.call A b) (t ++ [⟨o, x⟩]) (.ask o' k)) (ho : o.isAwait = false) : o'.isAwait = true := by
  have ha : Phase.allow A b r.opts.submit (Phase.of t) o := (obeys_call A b r).asks h.asks
  have ha' : Phase.allow A b r.opts.submit (Phase.of (t ++ [⟨o, x⟩])) o' := (obeys_call A b r).asks ⟨k, h⟩
  rw [Phase.of_snoc] at ha'
  generalize Phase.of t = ph at ha ha'
  cases o with
  | unlock =>
    -- past the guard only the receipt is left to ask about
    have hleft : ∃ sent, ph.next ⟨.unlock, x⟩ = .left sent := by
      have hstep := next_step ha x
      generalize ph.next ⟨.unlock, x⟩ = ph' at hstep
      cases hstep with
      | check o x ho => exact absurd ho id
      | signOnly o x hs ho => rcases ho with ho | ⟨_, ho⟩ <;> cases ho
      | unlock ph hin => exact ⟨_, rfl⟩
      | receipt o x ho => exact ⟨_, rfl⟩
    obtain ⟨sent, hleft⟩ := hleft
    rw [hleft] at ha'
    obtain ⟨-, hrec⟩ := ha'
    cases o' with
    | rpc q => rfl
    | _ => exact absurd hrec id
  | sinceEpoch =>
    have hbefore : ph.next ⟨.sinceEpoch, x⟩ = ph := by
      cases ph <;> rfl
    have hout : ph.inside = false := by
      cases ph with
      | before => rfl
      | left sent => rfl
      | locked => rcases ha with ha | ha <;> cases ha
      | read n => rcases ha with ⟨_, ha, -⟩ | ha <;> cases ha
      | signed env => cases ha
      | answered sent => cases ha
    cases o' with
    | unlock =>
      rw [hbefore] at ha'
      rw [((bracketed A b r.opts.submit).leave _ () ha').1] at hout
      cases hout
    | sinceEpoch =>
      -- the clock is read once
      have hcosts : Costs (priceOf clockPrice) (r.call A b) _ := costs_buildInner
      have hspent := hcosts.spent_le (h.snoc none)
      have hbudget := clockBudget (min r.ops.length b.cfg.maxBatchSize) r.opts.submit
      simp only [spent_append, spent_cons, spent_nil] at hspent
      have h1 : priceOf clockPrice .sinceEpoch = 1 := rfl
      omega
    | _ => rfl
  | _ => cases ho

/-- **A call of a fired token can move towards its end** without another answer of the node. -/
theorem shutdownStep_exists (h : Reachable A b req n₀ s) (hc : s.world.cancelled = true) (f : (o : Op) → o.Ans)
    {i : ι} (hi : (returned (s.calls i)).isSome = false) : ∃ l s', (l = .drop i ∨ l = .answer i f) ∧
      shutdownStep s l = some s' ∧ shutdownRank i (s'.calls i) < shutdownRank i (s.calls i) := by
  rcases returned_or_asks (s.calls i) with hret | ⟨live, o, k, hcur⟩
  · rw [hret] at hi
    cases hi
  have hpend : (s.calls i).pending = some o := by
    rw [Call.pending, hcur]
  by_cases hsus : suspended (s.calls i).hist (s.calls i).pending = true
  · refine ⟨.drop i, s.cut i { s.world with lock := lockDrop s.world.lock i }, Or.inl rfl, ?_, ?_⟩
    · simp [shutdownStep, Rules.step, live, ledgerRules, hc, hsus]
    · rw [Pool.cut_self]
      simp [shutdownRank, returned_of_dropped, hi, hsus]
  · have hplain : o.isAwait = false := by
      rw [suspended, hpend] at hsus
      simpa using (Bool.or_eq_false_iff.1 (Bool.not_eq_true _ ▸ hsus)).2
    have hlock : o = .lock → s.world.lock = none := by
      rintro rfl
      cases hplain
    obtain ⟨w, hw⟩ := ledgerAnswer_enabled (i := i) (x := f o) hlock fun addr n he => by
      obtain rfl : o = .rpc (.pendingNonce addr) := congrArg Sigma.fst he
      cases hplain
    have hs : shutdownStep s (.answer i f) = some (s.answered i ⟨o, f o⟩ (k (f o)) w) := by
      simp only [shutdownStep, hpend, Option.any_some, hplain, Bool.not_false, if_true, Rules.step, live, hcur]
      rw [show ledgerRules.answer s.world i (s.calls i).hist o (f o) = some w from hw]
      rfl
    refine ⟨.answer i f, _, Or.inr rfl, hs, ?_⟩
    have h' : Reachable A b req n₀ (s.answered i ⟨o, f o⟩ (k (f o)) w) := .step _ h rfl (step_of_shutdownStep hs)
    have hafter := h'.after i
    rw [Pool.answered_self] at hafter ⊢
    have hrank : shutdownRank i (s.calls i) = 2 := by
      simp [shutdownRank, hi, hsus]
    rw [hrank]
    unfold shutdownRank
    split
    · omega
    split
    · omega
    rename_i hnret hnsus
    exfalso
    rcases hnext : k (f o) with resp | e | ⟨o', k'⟩
    · simp [returned, live, hnext] at hnret
    · simp [returned, live, hnext] at hnret
    · rw [hnext] at hafter
      have hawait := isAwait_after_plain hafter hplain
      simp [suspended, Call.pending, hnext, hawait] at hnsus

/-- **A shutdown can end.** Once the token has fired, in whatever state, there is a schedule of two
plain steps a call at most that brings every call to its end without another answer of the node or
the signer; the lock is free then, and nothing was accepted on the way. Of other schedules, in which
calls still being polled are answered, this says nothing. -/
theorem shutdown_completes [Fintype ι] (A : Alloy) (b : Bundler) (req : ι → Request) (n₀ : Nat) (s : SubmitPool ι)
    (h : Reachable A b req n₀ s) (hc : s.world.cancelled = true) (f : (o : Op) → o.Ans) :
    ∃ (ls : List (Label ι Empty Unit Op Op.Ans)) (s' : SubmitPool ι), ls.foldlM shutdownStep s = some s' ∧
      ls.length ≤ 2 * Fintype.card ι ∧ (∀ i, (returned (s'.calls i)).isSome = true) ∧ s'.world.lock = none ∧
      s'.world.accepted = s.world.accepted ∧ s'.world.pending = s.world.pending := by
  have hstep (s₁ : SubmitPool ι)
      (hI : Reachable A b req n₀ s₁ ∧ s₁.world.cancelled = true ∧ s₁.world.accepted = s.world.accepted ∧
        s₁.world.pending = s.world.pending)
      (hd : ¬ ∀ i, (returned (s₁.calls i)).isSome = true) :
      ∃ l s₂, shutdownStep s₁ l = some s₂ ∧ (Reachable A b req n₀ s₂ ∧ s₂.world.cancelled = true ∧
        s₂.world.accepted = s.world.accepted ∧ s₂.world.pending = s.world.pending) ∧
        totalRank shutdownRank s₂ < totalRank shutdownRank s₁ := by
    obtain ⟨hr, hc, hacc, hpend⟩ := hI
    obtain ⟨i, hi⟩ := not_forall.1 hd
    obtain ⟨l, s₂, -, hs, hlt⟩ := shutdownStep_exists hr hc f (Bool.not_eq_true _ ▸ hi)
    obtain ⟨h1, h2, h3⟩ := shutdownStep_world hs
    refine ⟨l, s₂, hs, ⟨.step l hr rfl (step_of_shutdownStep hs), h3.trans hc, h1.trans hacc, h2.trans hpend⟩, ?_⟩
    exact (step_moves (step_of_shutdownStep hs)).rank_lt hlt
  obtain ⟨ls, s', hrun, hlen, ⟨h', -, hacc, hpend⟩, hdone⟩ := drive hstep ⟨h, hc, rfl, rfl⟩
  refine ⟨ls, s', hrun, hlen.trans ?_, hdone, ?_, hacc, hpend⟩
  · have hle : totalRank shutdownRank s ≤ ∑ _i : ι, 2 := by
      refine Finset.sum_le_sum fun i _ => ?_
      unfold shutdownRank
      split
      · omega
      split <;> omega
    rw [Finset.sum_const_nat fun _ _ => rfl, Finset.card_univ, Nat.mul_comm] at hle
    exact hle
  · rcases hl : s'.world.lock with - | j
    · rfl
    obtain ⟨live, o, k, hcur, -⟩ := holder_asks h' hl
    have hj := hdone j
    rw [not_returned_of_asks live hcur] at hj
    cases hj

/-- The token fires while the second of three calls waits for its signature, under the lock. -/
theorem shutdown_completes_threeCalls : ∃ (s : SubmitPool (Fin 3)) (ls : List (Label (Fin 3) Empty Unit Op Op.Ans))
    (s' : SubmitPool (Fin 3)), Reachable alloy testBundler threeCalls 7 s ∧ s.world.lock = some 1 ∧
      ls.foldlM shutdownStep s = some s' ∧ ls.length ≤ 6 ∧ (∀ i, (returned (s'.calls i)).isSome = true) ∧
      s'.world.lock = none ∧ s'.world.accepted = [] := by
  obtain ⟨s, hs, hp⟩ := exists_reach_of_run ledgerRules anyStep
    (.start (calls alloy testBundler threeCalls) (.start 7))
    (List.replicate 9 (.answer 1 (mockAnswerAt 7)) ++ [.env ()])
    (fun s => s.world.cancelled && s.world.accepted.isEmpty && s.world.lock == some 1) (by decide)
  simp only [Bool.and_eq_true, List.isEmpty_iff, beq_iff_eq] at hp
  obtain ⟨ls, s', hrun, hlen, hret, hlock, hacc, -⟩ :=
    shutdown_completes alloy testBundler threeCalls 7 s hs hp.1.1 mockAnswer
  exact ⟨s, ls, s', hs, hp.2, hrun, hlen, hret, hlock, hacc.trans hp.1.2⟩

/-! ## The lock is passed on -/

/-- Counts the questions asked under the guard. -/
def sectionPrice : OpKind → Nat
  | .pendingNonce | .signEip1559 | .sendRawTransaction => 1
  | _ => 0

theorem sectionBudget (n : Nat) (submit : Bool) : callBudget sectionPrice n submit ≤ 3 := by
  cases submit <;> simp [callBudget, checkBudget, opBudget, sendBudget, receiptBudget, receiptCost, sectionPrice]

/-- Between the lock and its release nothing else is asked. -/
theorem sectionPrice_of_inside {r : Request} {t u : BundlerTrace} {e : Event Op Op.Ans} {q : M SignedTxResp}
    (h : After (r.call A b) (t ++ e :: u) q) (hin : (Phase.of t).inside = true) (hout : e ≠ ⟨.unlock, ()⟩) :
    sectionPrice e.1.kind = 1 := by
  obtain ⟨o, x⟩ := e
  have ha := (obeys_call A b r).asks h.asks
  rw [submitProtocol_phase] at ha
  have hne : o ≠ .unlock := by
    rintro rfl
    exact hout rfl
  rcases hph : Phase.of t with - | - | n | env | sent | sent
  all_goals rw [hph] at ha hin
  · cases hin
  · rcases ha with rfl | ha
    · rfl
    · exact absurd ha hne
  · rcases ha with ⟨tx, rfl, -⟩ | ha
    · rfl
    · exact absurd ha hne
  · obtain rfl := ha
    rfl
  · exact absurd ha hne
  · cases hin

/-- The one plain call in the section is the drop of the guard. -/
theorem plain_inside {submit : Bool} {ph : Phase} {o : Op} (ha : Phase.allow A b submit ph o)
    (hin : ph.inside = true) (ho : o.isAwait = false) : o = .unlock := by
  cases ph with
  | before => cases hin
  | locked =>
    rcases ha with rfl | rfl
    · cases ho
    · rfl
  | read n =>
    rcases ha with ⟨tx, rfl, -⟩ | rfl
    · cases ho
    · rfl
  | signed env =>
    obtain rfl := ha
    cases ho
  | answered sent => exact ha
  | left sent => cases hin

/-- While a call keeps the lock it gets three answers at most. -/
theorem answers_inside {r : Request} {t u : BundlerTrace} {q : M SignedTxResp} (h : After (r.call A b) (t ++ u) q)
    (ht : (Phase.of t).inside = true) (hu : (Phase.of (t ++ u)).inside = true) : u.length ≤ 3 := by
  have hagrees := phaseAgrees h
  have hunlock : ⟨.unlock, ()⟩ ∉ t ++ u := (hagrees.inside_iff.1 hu).2
  obtain ⟨q₁, h₁, -⟩ := after_append.1 h
  have hlock : ⟨.lock, ()⟩ ∈ t := ((phaseAgrees h₁).inside_iff.1 ht).1
  have hprice (e : Event Op Op.Ans) (he : e ∈ u) : 1 ≤ priceOf sectionPrice e.1 := by
    obtain ⟨u₁, u₂, rfl⟩ := List.append_of_mem he
    have hsplit : t ++ (u₁ ++ e :: u₂) = (t ++ u₁) ++ e :: u₂ := (List.append_assoc _ _ _).symm
    rw [hsplit] at h hunlock
    obtain ⟨q₂, h₂, -⟩ := after_append.1 h
    have hin : (Phase.of (t ++ u₁)).inside = true := by
      refine (phaseAgrees h₂).inside_iff.2 ⟨List.mem_append_left _ hlock, fun hm => ?_⟩
      exact hunlock (List.mem_append_left _ hm)
    refine Nat.le_of_eq (sectionPrice_of_inside h hin ?_).symm
    rintro rfl
    exact hunlock (by simp)
  have hcosts : Costs (priceOf sectionPrice) (r.call A b) _ := costs_buildInner
  have hspent := hcosts.spent_le h
  have hbudget := sectionBudget (min r.ops.length b.cfg.maxBatchSize) r.opts.submit
  have hlen := length_le_spent hprice
  rw [spent_append] at hspent
  omega

/-- After the token has fired the holder is dropped where it waits, or drops its guard itself. -/
theorem shutdownStep_frees (h : Reachable A b req n₀ s) (hc : s.world.cancelled = true) (f : (o : Op) → o.Ans) {j : ι}
    (hj : s.world.lock = some j) : ∃ l s', (l = .drop j ∨ l = .answer j f) ∧ shutdownStep s l = some s' ∧
      s'.world.lock = none := by
  obtain ⟨live, o, k, hcur, hne⟩ := holder_asks h hj
  have hi := not_returned_of_asks live hcur
  obtain ⟨l, s', hl, hs, -⟩ := shutdownStep_exists h hc f hi
  refine ⟨l, s', hl, hs, ?_⟩
  have hm := step_moves (step_of_shutdownStep hs)
  rcases hl with rfl | rfl
  · cases hm with
    | drop i w _ hw =>
      obtain ⟨-, rfl⟩ := ledger_drop hw
      exact if_pos hj
  · -- the one plain call of the section is the drop of the guard
    have hplain : o.isAwait = false := by
      simp only [shutdownStep, Call.pending, hcur, Option.any_some] at hs
      split at hs
      · rename_i ho
        simpa using ho
      · cases hs
    have ha := h.allowed (fun i => obeys_call A b (req i)) hcur
    rw [submitProtocol_phase] at ha
    obtain rfl : o = .unlock := plain_inside ha ((lock_iff h j).1 hj).2 hplain
    cases hm with
    | answer i f o' k' w _ hcur' hw =>
      rw [hcur] at hcur'
      cases hcur'
      cases hw
      rfl

/-- **The lock is passed on.** In every run, whoever holds the lock can be given the answer it waits
for, whatever the node says, or, once the token has fired, can free the lock with its next step: it
is dropped at its `.await`, or drops its guard. It is given three answers at most before the lock is
free of it. -/
theorem section_bounded (A : Alloy) (b : Bundler) (req : ι → Request) (n₀ : Nat) (s : SubmitPool ι)
    (h : Reachable A b req n₀ s) (j : ι) (hj : s.world.lock = some j) :
    (s.world.cancelled = false → ∀ node, Truthful node → ∃ s', turn node s j = some s') ∧
    (s.world.cancelled = true → ∀ f : (o : Op) → o.Ans, ∃ l s', (l = .drop j ∨ l = .answer j f) ∧
      shutdownStep s l = some s' ∧ s'.world.lock = none) ∧
    ∀ (ls : List (Label ι Empty Unit Op Op.Ans)) s', ls.foldlM ledgerRules.step s = some s' →
      s'.world.lock = some j → (s'.calls j).hist.length ≤ (s.calls j).hist.length + 3 := by
  refine ⟨fun _ node hnode => ?_, fun hc f => shutdownStep_frees h hc f hj, fun ls s' hrun hj' => ?_⟩
  · obtain ⟨live, o, k, hcur, hne⟩ := holder_asks h hj
    exact enabled_of_truthful hnode live hcur fun ho => absurd ho hne
  · have h' : Reachable A b req n₀ s' := h.foldlM hrun
    obtain ⟨u, hu⟩ := foldlM_hist_grows hrun j
    have hafter := h'.after j
    have hin' := ((lock_iff h' j).1 hj').2
    rw [← hu] at hafter hin' ⊢
    rw [List.length_append]
    have hlen := answers_inside hafter ((lock_iff h j).1 hj).2 hin'
    omega

/-- A submit that has just taken the lock, and the token fires: it can be dropped, and gets three
answers at most if it is not. -/
theorem section_bounded_locked : ∃ s : SubmitPool Unit, Reachable alloy testBundler loneSubmit 7 s ∧
    s.world.lock = some () ∧ s.world.cancelled = true ∧
    (∃ l s', shutdownStep s l = some s' ∧ s'.world.lock = none) ∧
    ∀ (ls : List (Label Unit Empty Unit Op Op.Ans)) s', ls.foldlM ledgerRules.step s = some s' →
      s'.world.lock = some () → (s'.calls ()).hist.length ≤ (s.calls ()).hist.length + 3 := by
  obtain ⟨s, hs, hp⟩ := exists_reach_of_run ledgerRules anyStep
    (.start (calls alloy testBundler loneSubmit) (.start 7)) (List.replicate 8 (.answer () mockAnswer) ++ [.env ()])
    (fun s => s.world.lock == some () && s.world.cancelled) (by decide)
  rw [Bool.and_eq_true, beq_iff_eq] at hp
  obtain ⟨-, hfree, hthree⟩ := section_bounded alloy testBundler loneSubmit 7 s hs () hp.1
  obtain ⟨l, s', -, hs', hnone⟩ := hfree hp.2 mockAnswer
  exact ⟨s, hs, hp.1, hp.2, ⟨l, s', hs', hnone⟩, hthree⟩

end EtheraBundler

import EtheraBundler.Backend
/-!
# What a call sends over JSON-RPC

The budget of a call (`Budget.lean`) counts a receipt wait as one question; over JSON-RPC it is a
loop that polls until the clock says so. On a clock that does not go back the loop has a budget too,
and the two add up to that of the whole call.

* `Steady` — the readings of `Instant::now()` do not go back, and `sleep(d)` takes at least `d`.
* `after_waitForReceipt` — the receipt wait, at any point of it.
* `over_rpc_refines` — **a call over JSON-RPC is a call**: each of its runs is a run of `build_inner`
  on the answers the methods computed, and the other way round.
* `over_rpc_bounded` — **the requests of a call are counted**, and its sleeps add up to at most the
  receipt timeout.
-/

namespace EtheraBundler

open Interact

/-! ## The clock of a run -/

/-- The receipt wait's own part of a run. -/
def receiptPart : RawTrace → WaitTrace
  | [] => []
  | ⟨.receipt o, x⟩ :: v => ⟨o, x⟩ :: receiptPart v
  | _ :: v => receiptPart v

/-- Every reading of the clock is as late as the last one and the sleeps since. -/
def SteadyTrace (t : WaitTrace) : Prop := ∀ u now, u ++ [readClock now] <+: t → clockAt u ≤ now

def Steady (v : RawTrace) : Prop := SteadyTrace (receiptPart v)

variable {t u : WaitTrace} {v w : RawTrace}

theorem receiptPart_append : receiptPart (v ++ w) = receiptPart v ++ receiptPart w := by
  induction v with
  | nil => rfl
  | cons e v ih =>
    obtain ⟨o, x⟩ := e
    cases o with
    | receipt o => exact congrArg (_ :: ·) ih
    | _ => exact ih

@[simp] theorem receiptPart_receipt (t : WaitTrace) : receiptPart (t.map receiptEvent) = t := by
  induction t with
  | nil => rfl
  | cons e t ih => exact congrArg (e :: ·) ih

theorem receiptPart_node (t : Trace NodeOp NodeOp.Ans) : receiptPart (t.map nodeEvent) = [] := by
  induction t with
  | nil => rfl
  | cons e t ih => exact ih

theorem receiptPart_eth (t : Trace Rpc Rpc.Ans) : receiptPart (t.map ethEvent) = [] := by
  induction t with
  | nil => rfl
  | cons e t ih => exact ih

theorem tick_mono {c c' : Nat} (h : c ≤ c') (e : Event ReceiptOp ReceiptOp.Ans) : tick c e ≤ tick c' e := by
  obtain ⟨o, x⟩ := e
  cases o with
  | getTransactionReceipt hash => exact h
  | now => exact Nat.le_refl _
  | sleep d => exact Nat.add_le_add_right h d

theorem foldl_tick_mono {c c' : Nat} (h : c ≤ c') : u.foldl tick c ≤ u.foldl tick c' := by
  induction u generalizing c c' with
  | nil => exact h
  | cons e u ih => exact ih (tick_mono h e)

/-- What came before only makes it later. -/
theorem clockAt_le_append : clockAt u ≤ clockAt (t ++ u) := by
  unfold clockAt
  rw [List.foldl_append]
  exact foldl_tick_mono (Nat.zero_le _)

theorem SteadyTrace.split (h : SteadyTrace (t ++ u)) : SteadyTrace t ∧ SteadyTrace u := by
  constructor
  · intro a now ha
    exact h a now (ha.trans (List.prefix_append _ _))
  · intro a now ha
    have hpre : (t ++ a) ++ [readClock now] <+: t ++ u := by
      rw [List.append_assoc]
      exact (List.prefix_append_right_inj t).2 ha
    exact Nat.le_trans clockAt_le_append (h (t ++ a) now hpre)

theorem Steady.split (h : Steady (v ++ w)) : Steady v ∧ Steady w := by
  unfold Steady at h
  rw [receiptPart_append] at h
  exact h.split

/-! ## The wait, at any point of it -/

/-- A clock that stands still but for the sleeps, and a node that knows no receipt. -/
def idle : Env ReceiptOp ReceiptOp.Ans
  | _, .getTransactionReceipt _ => .ok none
  | t, .now => clockAt t
  | _, .sleep _ => ()

theorem steadyClock_follow (h : SteadyTrace t) : SteadyClock (follow t idle) := by
  intro u
  rcases follow_cases t u idle .now with hpre | heq
  · exact h u _ hpre
  · rw [heq]
    exact Nat.le_refl _

variable {fuel maxInstant timeout : Nat} {hash : B256}

/-- What the wait has polled and slept so far is within its timeout, and where it is over, it is over
as `WaitOutcome` says. -/
theorem after_waitForReceipt {q : Prog ReceiptOp ReceiptOp.Ans WaitExit (Option ReceiptInfo)}
    (h : After (AlloyProvider.waitForReceipt fuel maxInstant hash timeout) t q) (ht : SteadyTrace t)
    (hfuel : 2 + timeout / millis 200 ≤ fuel) :
    (polls t).length ≤ 2 + timeout / millis 200 ∧ slept t ≤ timeout ∧
      ∀ r, q = Prog.exit r → ∃ start, readClock start ∈ t ∧ WaitOutcome maxInstant start hash timeout t r := by
  have hclock := steadyClock_follow ht
  have hplay : play (follow t idle) [] (AlloyProvider.waitForReceipt fuel maxInstant hash timeout) =
      play (follow t idle) t q := play_follow h List.prefix_rfl
  obtain ⟨t', r', hout, hend⟩ : ∃ t' r', WaitOutcome maxInstant (follow t idle [] .now) hash timeout t' r' ∧
      play (follow t idle) t q = (t', r') := by
    rw [← hplay]
    by_cases hmax : follow t idle [] .now + timeout ≤ maxInstant
    · obtain ⟨t', r', hout, hend⟩ := play_waitForReceipt hash hclock hmax
      exact ⟨t', r', hout, hend fuel hfuel⟩
    · have hadd : instantAdd maxInstant (follow t idle [] .now) timeout = .error (.panic .instantOverflow) :=
        if_neg hmax
      refine ⟨_, _, waitOutcome_overflow (Nat.lt_of_not_le hmax), ?_⟩
      unfold AlloyProvider.waitForReceipt
      rw [play_ask, hadd]
      rfl
  obtain ⟨u, rfl, -⟩ := play_run hend
  have hpolls := hout.polls_le
  have hslept := hout.slept_le
  rw [polls_append, List.length_append] at hpolls
  rw [slept_append] at hslept
  refine ⟨by omega, by omega, ?_⟩
  rintro r rfl
  have hself : play (follow t idle) t (Prog.exit r) = (t, r) := by
    rcases r with e | a
    · rfl
    · rfl
  rw [hself] at hend
  obtain ⟨ht', rfl⟩ := Prod.mk.inj hend
  rw [← ht'] at hout
  obtain ⟨start, t₁, rfl, -⟩ :=
    run_ask.1 (show Run (AlloyProvider.waitForReceipt fuel maxInstant hash timeout) t r from h)
  have hstart : follow (readClock start :: t₁) idle [] .now = start :=
    follow_eq (List.prefix_append [readClock start] t₁)
  rw [hstart] at hout
  exact ⟨start, List.mem_cons_self, hout⟩

/-! ## Prices -/

/-- One for each request to the node. -/
def requestPrice : RawOp → Nat
  | .node _ => 1
  | .eth _ => 1
  | .receipt (.getTransactionReceipt _) => 1
  | _ => 0

/-- What is slept. -/
def sleepPrice : RawOp → Nat
  | .receipt (.sleep d) => d
  | _ => 0

/-- The polls a receipt wait can take. -/
def maxPolls (timeoutSecs : Nat) : Nat := 2 + secs timeoutSecs / millis 200

/-- The requests behind each question of the pipeline. -/
def requestsOf : OpKind → Nat
  | .lock => 0
  | .unlock => 0
  | .sinceEpoch => 0
  | .signEip1559 => 0
  | .waitForReceipt => maxPolls RECEIPT_TIMEOUT
  | _ => 1

/-- The sleep behind each question of the pipeline. -/
def sleepOf : OpKind → Nat
  | .waitForReceipt => secs RECEIPT_TIMEOUT
  | _ => 0

theorem spent_requests_receipt (t : WaitTrace) : spent requestPrice (t.map receiptEvent) = (polls t).length := by
  induction t with
  | nil => rfl
  | cons e t ih =>
    obtain ⟨o, x⟩ := e
    rw [List.map_cons, spent_cons, ih]
    cases o with
    | getTransactionReceipt hash => exact Nat.add_comm _ _
    | now => exact Nat.zero_add _
    | sleep d => exact Nat.zero_add _

theorem spent_sleep_receipt (t : WaitTrace) : spent sleepPrice (t.map receiptEvent) = slept t := by
  induction t with
  | nil => rfl
  | cons e t ih =>
    obtain ⟨o, x⟩ := e
    rw [List.map_cons, spent_cons, ih]
    cases o with
    | getTransactionReceipt hash => exact Nat.zero_add _
    | now => exact Nat.zero_add _
    | sleep d => rfl

section Methods

variable {A : Alloy} {α : Type} {price : RawOp → Nat} {n : Nat}

/-- At any point, the requests of a method are those of its program. -/
theorem after_overNode {p : Prog NodeOp NodeOp.Ans ProviderError α} {q : Prog RawOp RawOp.Ans RawExit _}
    (h : After (overNode p) v q) : ∃ t q', v = t.map nodeEvent ∧ After p t q' := by
  obtain ⟨t, q₁, ht, hq, -⟩ := after_relabel h
  obtain ⟨q', hq', -⟩ := after_attempt hq
  refine ⟨t, q', eq_map_of_renames ?_ ht, hq'⟩
  rintro ⟨o, x⟩ e' ⟨y, rfl, rfl⟩
  rfl

theorem after_overEth {p : Prog Rpc Rpc.Ans ProviderError α} {q : Prog RawOp RawOp.Ans RawExit _}
    (h : After (overEth p) v q) : ∃ t q', v = t.map ethEvent ∧ After p t q' := by
  obtain ⟨t, q₁, ht, hq, -⟩ := after_relabel h
  obtain ⟨q', hq', -⟩ := after_attempt hq
  refine ⟨t, q', eq_map_of_renames ?_ ht, hq'⟩
  rintro ⟨o, x⟩ e' ⟨y, rfl, rfl⟩
  rfl

theorem after_overReceipt {p : Prog ReceiptOp ReceiptOp.Ans WaitExit α} {q : Prog RawOp RawOp.Ans RawExit _}
    (h : After (overReceipt p) v q) :
    ∃ t q', v = t.map receiptEvent ∧ After p t q' ∧ q = (q'.attempt waitAnswered).relabel .receipt fun _ y => y := by
  obtain ⟨t, q₁, ht, hq, rfl⟩ := after_relabel h
  obtain ⟨q', hq', rfl⟩ := after_attempt hq
  refine ⟨t, q', eq_map_of_renames ?_ ht, hq', rfl⟩
  rintro ⟨o, x⟩ e' ⟨y, rfl, rfl⟩
  rfl

/-- The method is at most one request. -/
theorem spent_overNode_le {p : Prog NodeOp NodeOp.Ans ProviderError α} {q : Prog RawOp RawOp.Ans RawExit _}
    (hp : Costs (fun _ => 1) p 1) (h : After (overNode p) v q) :
    spent requestPrice v ≤ 1 ∧ spent sleepPrice v = 0 := by
  obtain ⟨t, q', rfl, hq⟩ := after_overNode h
  have hlen := hp.spent_le hq
  have hsame : spent requestPrice (t.map nodeEvent) = spent (fun _ => 1) t ∧
      spent sleepPrice (t.map nodeEvent) = 0 := by
    clear hq hlen h
    induction t with
    | nil => exact ⟨rfl, rfl⟩
    | cons e t ih => exact ⟨congrArg (1 + ·) ih.1, congrArg (0 + ·) ih.2⟩
  omega

theorem spent_overEth_le {p : Prog Rpc Rpc.Ans ProviderError α} {q : Prog RawOp RawOp.Ans RawExit _}
    (hp : Costs (fun _ => 1) p 1) (h : After (overEth p) v q) :
    spent requestPrice v ≤ 1 ∧ spent sleepPrice v = 0 := by
  obtain ⟨t, q', rfl, hq⟩ := after_overEth h
  have hlen := hp.spent_le hq
  have hsame : spent requestPrice (t.map ethEvent) = spent (fun _ => 1) t ∧ spent sleepPrice (t.map ethEvent) = 0 := by
    clear hq hlen h
    induction t with
    | nil => exact ⟨rfl, rfl⟩
    | cons e t ih => exact ⟨congrArg (1 + ·) ih.1, congrArg (0 + ·) ih.2⟩
  omega

theorem costs_request (o : NodeOp) : Costs (fun _ => 1) (AlloyProvider.request o) 1 := by
  refine ⟨0, rfl, fun x => ?_⟩
  rcases x with e | w
  · trivial
  · trivial

/-- **The requests behind one question**, and the sleep. -/
theorem spent_method_le {q : Query} {q' : Prog RawOp RawOp.Ans RawExit (Except ProviderError q.Val)}
    (hq : ∀ hash n, q = .waitForReceipt hash n → n = RECEIPT_TIMEOUT) (hfuel : maxPolls RECEIPT_TIMEOUT ≤ fuel)
    (hv : Steady v) (h : After (AlloyProvider.method A fuel maxInstant q) v q') :
    spent requestPrice v ≤ requestsOf q.kind ∧ spent sleepPrice v ≤ sleepOf q.kind := by
  cases q with
  | baseFee =>
    have hp : Costs (fun _ => 1) AlloyProvider.baseFee 1 := by
      refine (Costs.bind (m := 0) (costs_request _) fun block => ?_).mono (Nat.le_refl _)
      rcases block with - | block
      · trivial
      · trivial
    obtain ⟨h1, h2⟩ := spent_overNode_le hp h
    exact ⟨h1, Nat.le_of_eq h2⟩
  | maxPriorityFee =>
    have hp : Costs (fun _ => 1) AlloyProvider.maxPriorityFee 1 :=
      (Costs.bind (m := 0) (costs_request _) fun tip => costs_ret).mono (Nat.le_refl _)
    obtain ⟨h1, h2⟩ := spent_overNode_le hp h
    exact ⟨h1, Nat.le_of_eq h2⟩
  | pendingNonce addr =>
    obtain ⟨h1, h2⟩ := spent_overNode_le (costs_request _) h
    exact ⟨h1, Nat.le_of_eq h2⟩
  | balanceOf entrypoint account =>
    obtain ⟨h1, h2⟩ := spent_overNode_le (costs_request _) h
    exact ⟨h1, Nat.le_of_eq h2⟩
  | userOpHash entrypoint op =>
    obtain ⟨h1, h2⟩ := spent_overNode_le (costs_request _) h
    exact ⟨h1, Nat.le_of_eq h2⟩
  | sendRawTransaction raw =>
    obtain ⟨h1, h2⟩ := spent_overNode_le (costs_request _) h
    exact ⟨h1, Nat.le_of_eq h2⟩
  | estimateHandleOpsGas src entrypoint callData =>
    have hp : Costs (fun _ => 1) (AlloyProvider.estimateHandleOpsGas src entrypoint callData) 1 := by
      refine ⟨0, rfl, fun x => ?_⟩
      rcases x with e | gas
      · trivial
      · trivial
    obtain ⟨h1, h2⟩ := spent_overEth_le hp h
    exact ⟨h1, Nat.le_of_eq h2⟩
  | tryCallForRevert src dest callData =>
    have hp : Costs (fun _ => 1) (AlloyProvider.tryCallForRevert src dest callData) 1 := by
      refine ⟨0, rfl, fun x => ?_⟩
      rcases x with e | ret
      · trivial
      · trivial
    obtain ⟨h1, h2⟩ := spent_overEth_le hp h
    exact ⟨h1, Nat.le_of_eq h2⟩
  | simulateValidation entrypoint code op =>
    have hp : Costs (fun _ => 1) (AlloyProvider.simulateValidation A entrypoint code op) 1 := by
      refine ⟨0, rfl, fun x => ?_⟩
      rcases x with e | result
      · trivial
      · show Costs _ (if result = [] then _ else _) 0
        by_cases hr : result = []
        · rw [if_pos hr]
          trivial
        · rw [if_neg hr]
          rcases A.simulateValidationAbiDecodeReturns result with msg | w
          · trivial
          · trivial
    obtain ⟨h1, h2⟩ := spent_overEth_le hp h
    exact ⟨h1, Nat.le_of_eq h2⟩
  | waitForReceipt hash n =>
    obtain rfl := hq hash n rfl
    obtain ⟨t, q₁, rfl, ht, -⟩ := after_overReceipt h
    unfold Steady at hv
    rw [receiptPart_receipt] at hv
    obtain ⟨h1, h2, -⟩ := after_waitForReceipt ht hv hfuel
    rw [spent_requests_receipt, spent_sleep_receipt]
    exact ⟨h1, h2⟩

end Methods

/-! ## The whole call -/

/-- A wait for a receipt waits for `RECEIPT_TIMEOUT`. -/
def Op.waitsAsTold (o : Op) : Prop := ∀ hash n, o = .rpc (.waitForReceipt hash n) → n = RECEIPT_TIMEOUT

variable {A : Alloy} {b : Bundler} {ops : List UserOpV07} {opts : BuildOpts}

theorem waitsAsTold_of_isCheck {o : Op} (h : o.isCheck) : o.waitsAsTold := by
  rintro hash n rfl
  exact absurd h id

theorem only_buildInner : Only Op.waitsAsTold (buildInner A b ops opts) := by
  refine Only.bind only_exit fun _ => Only.bind (only_prepare.mono fun o => waitsAsTold_of_isCheck) fun p => ?_
  refine Only.bind ?_ fun tx => Only.bind ?_ fun _ => only_ret
  · have hsend : Only Op.waitsAsTold (signAndSend A b opts p) := by
      refine Only.bind (only_await nofun) fun nonce => Only.bind only_exit fun tx => ?_
      refine Only.bind ⟨nofun, fun x => ?_⟩ fun env => Only.bind ?_ fun _ => only_ret
      · rcases x with e | sig
        · trivial
        · trivial
      · unfold broadcast
        by_cases hs : opts.submit = true
        · rw [if_pos hs]
          exact Only.bind (only_await nofun) fun _ => only_failIf
        · rw [if_neg hs]
          trivial
    unfold signed
    by_cases hs : opts.submit = true
    · rw [if_pos hs]
      exact Only.withGuard nofun nofun hsend
    · rw [if_neg hs]
      exact hsend
  · unfold awaitReceipt
    by_cases hs : opts.submit = true
    · rw [if_pos hs]
      refine Only.bind (only_await ?_) fun receipt => ?_
      · rintro hash n he
        cases he
        rfl
      rcases receipt with - | receipt
      · trivial
      show Only _ (if receipt.success = true then _ else _)
      by_cases hr : receipt.success = true
      · rw [if_pos hr]
        trivial
      · rw [if_neg hr]
        exact Only.bind (only_await nofun) fun _ => trivial
    · rw [if_neg hs]
      trivial

theorem spends_surroundings (hfuel : maxPolls RECEIPT_TIMEOUT ≤ fuel) :
    Spends Op.waitsAsTold Steady requestPrice (surroundings A fuel maxInstant) (priceOf requestsOf) ∧
      Spends Op.waitsAsTold Steady sleepPrice (surroundings A fuel maxInstant) (priceOf sleepOf) := by
  have hlocal {o : RawOp} {u : RawTrace} {k : o.Ans → Prog RawOp RawOp.Ans RawExit o.Ans}
      {w : Prog RawOp RawOp.Ans RawExit o.Ans} (ho : requestPrice o = 0 ∧ sleepPrice o = 0)
      (hk : ∀ x, k x = .ret x) (h : After (.ask o k) u w) : spent requestPrice u = 0 ∧ spent sleepPrice u = 0 := by
    cases u with
    | nil => exact ⟨rfl, rfl⟩
    | cons e u =>
      obtain ⟨x, rfl, h⟩ := h
      rw [hk, after_ret] at h
      obtain ⟨rfl, -⟩ := h
      simp [ho]
  have hboth (o : Op) (u : RawTrace) (w : Prog RawOp RawOp.Ans RawExit o.Ans) (ho : o.waitsAsTold) (hu : Steady u)
      (h : After (surroundings A fuel maxInstant o) u w) :
      spent requestPrice u ≤ priceOf requestsOf o ∧ spent sleepPrice u ≤ priceOf sleepOf o := by
    cases o with
    | rpc q => exact spent_method_le (fun hash n he => ho hash n (congrArg _ he)) hfuel hu h
    | lock =>
      obtain ⟨h1, h2⟩ := hlocal ⟨rfl, rfl⟩ (fun _ => rfl) h
      omega
    | unlock =>
      obtain ⟨h1, h2⟩ := hlocal ⟨rfl, rfl⟩ (fun _ => rfl) h
      omega
    | sinceEpoch =>
      obtain ⟨h1, h2⟩ := hlocal ⟨rfl, rfl⟩ (fun _ => rfl) h
      omega
    | signEip1559 tx =>
      obtain ⟨h1, h2⟩ := hlocal ⟨rfl, rfl⟩ (fun _ => rfl) h
      omega
  exact ⟨fun o u w ho hu h => (hboth o u w ho hu h).1, fun o u w ho hu h => (hboth o u w ho hu h).2⟩

/-- The only question whose answer can fail to come is the receipt wait. -/
theorem surroundings_error {o : Op} {e : RawExit} (h : Run (surroundings A fuel maxInstant o) v (.error e)) :
    ∃ hash n t x, o = .rpc (.waitForReceipt hash n) ∧ v = t.map receiptEvent ∧
      Run (AlloyProvider.waitForReceipt fuel maxInstant hash (secs n)) t (.error x) ∧
      waitAnswered x = .error e := by
  have hlocal {o : RawOp} {k : o.Ans → Prog RawOp RawOp.Ans RawExit o.Ans} (hk : ∀ x, k x = .ret x) :
      ¬ Run (.ask o k) v (.error e) := by
    intro h
    obtain ⟨x, t, rfl, hx⟩ := run_ask.1 h
    rw [hk] at hx
    cases (run_ret.1 hx).2
  have hnode {α : Type} {p : Prog NodeOp NodeOp.Ans ProviderError α} : ¬ Run (overNode p) v (.error e) := by
    intro h
    obtain ⟨t, x, -, -, he⟩ := run_overNode h
    cases he
  have heth {α : Type} {p : Prog Rpc Rpc.Ans ProviderError α} : ¬ Run (overEth p) v (.error e) := by
    intro h
    obtain ⟨t, x, -, -, he⟩ := run_overEth h
    cases he
  cases o with
  | lock => exact absurd h (hlocal fun _ => rfl)
  | unlock => exact absurd h (hlocal fun _ => rfl)
  | sinceEpoch => exact absurd h (hlocal fun _ => rfl)
  | signEip1559 tx => exact absurd h (hlocal fun _ => rfl)
  | rpc q =>
    cases q with
    | waitForReceipt hash n =>
      obtain ⟨t, x, rfl, hr, he⟩ := run_overReceipt h
      rcases x with x | receipt
      · refine ⟨hash, n, t, x, rfl, rfl, hr, ?_⟩
        rcases x with pe | p | -
        · cases he
        · cases he
          rfl
        · cases he
          rfl
      · cases he
    | estimateHandleOpsGas src entrypoint callData => exact absurd h heth
    | tryCallForRevert src dest callData => exact absurd h heth
    | simulateValidation entrypoint code op => exact absurd h heth
    | baseFee => exact absurd h hnode
    | maxPriorityFee => exact absurd h hnode
    | pendingNonce addr => exact absurd h hnode
    | balanceOf entrypoint account => exact absurd h hnode
    | userOpHash entrypoint op => exact absurd h hnode
    | sendRawTransaction raw => exact absurd h hnode

/-- **A call over JSON-RPC is a call.** Its runs are exactly the runs of `build_inner` on the answers
the provider's methods computed, all of them such as an `AlloyProvider` gives; but for a receipt wait
that panics on its clock, or exceeds the model's fuel, and takes the call with it. -/
theorem over_rpc_refines (A : Alloy) (fuel maxInstant : Nat) (b : Bundler) (ops : List UserOpV07) (opts : BuildOpts)
    (v : RawTrace) (r : Except RawExit SignedTxResp) :
    Run (callOverRpc A fuel maxInstant b ops opts) v r ↔
    (∃ t r', Handled (surroundings A fuel maxInstant) t v ∧ Alloyed t ∧ Run (buildInner A b ops opts) t r' ∧
      r = r'.mapError .call) ∨
    ∃ t v₁ v₂ hash e, v = v₁ ++ v₂ ∧ Handled (surroundings A fuel maxInstant) t v₁ ∧ Alloyed t ∧
      Asks (buildInner A b ops opts) t (.rpc (.waitForReceipt hash RECEIPT_TIMEOUT)) ∧
      Run (AlloyProvider.method A fuel maxInstant (.waitForReceipt hash RECEIPT_TIMEOUT)) v₂ (.error e) ∧
      (∀ c, e ≠ .call c) ∧ r = .error e := by
  unfold callOverRpc
  rw [run_via]
  refine or_congr ?_ ?_
  · constructor
    · rintro ⟨t, hh, hr⟩
      obtain ⟨r', hr', rfl⟩ := run_mapFail.1 hr
      exact ⟨t, r', hh, alloyed_of_handled hh, hr', rfl⟩
    · rintro ⟨t, r', hh, -, hr', rfl⟩
      exact ⟨t, hh, run_mapFail.2 ⟨r', hr', rfl⟩⟩
  · constructor
    · rintro ⟨t, v₁, v₂, o, e, rfl, hh, hasks, he, rfl⟩
      obtain ⟨hash, n, u, x, rfl, rfl, hx, hwait⟩ := surroundings_error he
      have hasks' : Asks (buildInner A b ops opts) t (.rpc (.waitForReceipt hash n)) := asks_mapFail.1 hasks
      obtain rfl : n = RECEIPT_TIMEOUT := only_buildInner.asks hasks' hash n rfl
      refine ⟨t, v₁, _, hash, e, rfl, hh, alloyed_of_handled hh, hasks', he, ?_, rfl⟩
      rintro c rfl
      rcases x with pe | p | -
      · cases hwait
      · cases hwait
      · cases hwait
    · rintro ⟨t, v₁, v₂, hash, e, rfl, hh, -, hasks, he, -, rfl⟩
      exact ⟨t, v₁, v₂, _, e, rfl, hh, asks_mapFail.2 hasks, he, rfl⟩

/-- The budget of a call in requests. -/
theorem callBudget_requests (n : Nat) (submit : Bool) :
    callBudget requestsOf n submit = 4 + 3 * n + if submit then 2 + maxPolls RECEIPT_TIMEOUT else 0 := by
  unfold callBudget checkBudget opBudget sendBudget receiptBudget receiptCost
  simp only [requestsOf]
  cases submit with
  | false =>
    simp only [Bool.false_eq_true, if_false]
    omega
  | true =>
    simp only [if_true]
    omega

theorem callBudget_sleep (n : Nat) (submit : Bool) :
    callBudget sleepOf n submit = if submit then secs RECEIPT_TIMEOUT else 0 := by
  unfold callBudget checkBudget opBudget sendBudget receiptBudget receiptCost
  simp only [sleepOf]
  cases submit with
  | false => simp
  | true => simp

/-- A question whose answer never came is a receipt wait with a deadline past the end of the clock. -/
theorem wait_gives_up {t : BundlerTrace} {o : Op} {e : RawExit} (hfuel : maxPolls RECEIPT_TIMEOUT ≤ fuel)
    (hasks : Asks ((buildInner A b ops opts).mapFail RawExit.call) t o)
    (h : Run (surroundings A fuel maxInstant o) v (.error e)) (hv : Steady v) :
    e = .time .instantOverflow ∧ ∃ start, ⟨.receipt .now, start⟩ ∈ v ∧ maxInstant < start + secs RECEIPT_TIMEOUT := by
  obtain ⟨hash, n, w, x, rfl, rfl, hx, hwait⟩ := surroundings_error h
  obtain rfl : n = RECEIPT_TIMEOUT := only_buildInner.asks (asks_mapFail.1 hasks) hash n rfl
  unfold Steady at hv
  rw [receiptPart_receipt] at hv
  obtain ⟨-, -, hend⟩ := after_waitForReceipt hx hv hfuel
  obtain ⟨start, hstart, hout⟩ := hend (.error x) rfl
  rcases x with pe | p | -
  · cases hwait
  · cases hwait
    obtain ⟨rfl, hmax⟩ := (hout.panic p).1 rfl
    exact ⟨rfl, start, List.mem_map.2 ⟨readClock start, hstart, rfl⟩, hmax⟩
  · exact absurd rfl hout.ends

/-- **What a call asks of the node is bounded by its batch alone**, on a clock that does not go back:
four requests, three more for each op, and in submit mode the broadcast, 152 polls at most and the
replay; it sleeps no longer than the receipt timeout, wherever it is cut. A call that is over did not
run out of fuel, and the one panic over time it can end in is a deadline the platform's clock cannot
represent. -/
theorem over_rpc_bounded (A : Alloy) (fuel maxInstant : Nat) (b : Bundler) (ops : List UserOpV07) (opts : BuildOpts)
    (hfuel : maxPolls RECEIPT_TIMEOUT ≤ fuel) (v : RawTrace) (q : Prog RawOp RawOp.Ans RawExit SignedTxResp)
    (h : After (callOverRpc A fuel maxInstant b ops opts) v q) (hv : Steady v) :
    spent requestPrice v ≤ 4 + 3 * min ops.length b.cfg.maxBatchSize +
        (if opts.submit then 2 + maxPolls RECEIPT_TIMEOUT else 0) ∧
      spent sleepPrice v ≤ (if opts.submit then secs RECEIPT_TIMEOUT else 0) ∧
      ∀ e, q = .fail e → e ≠ .outOfFuel ∧ ∀ p, e = .time p → p = .instantOverflow ∧
        ∃ start, ⟨.receipt .now, start⟩ ∈ v ∧ maxInstant < start + secs RECEIPT_TIMEOUT := by
  obtain ⟨hrequests, hsleep⟩ : Spends Op.waitsAsTold Steady requestPrice (surroundings A fuel maxInstant) _ ∧
    Spends Op.waitsAsTold Steady sleepPrice (surroundings A fuel maxInstant) _ := spends_surroundings hfuel
  have honly : Only Op.waitsAsTold ((buildInner A b ops opts).mapFail RawExit.call) := only_buildInner.mapFail
  refine ⟨?_, ?_, ?_⟩
  · rw [← callBudget_requests]
    exact spent_via_le (fun _ _ => Steady.split) hrequests honly costs_buildInner.mapFail h hv
  · rw [← callBudget_sleep (min ops.length b.cfg.maxBatchSize)]
    exact spent_via_le (fun _ _ => Steady.split) hsleep honly costs_buildInner.mapFail h hv
  · rintro e rfl
    have hrun : Run (callOverRpc A fuel maxInstant b ops opts) v (.error e) := h
    unfold callOverRpc at hrun
    rcases run_via.1 hrun with ⟨t, -, hr⟩ | ⟨t, v₁, v₂, o, e', rfl, -, hasks, he, hee⟩
    · obtain ⟨c, rfl, -⟩ := run_mapFail_error.1 hr
      exact ⟨by simp, by simp⟩
    cases hee
    obtain ⟨rfl, start, hstart, hmax⟩ := wait_gives_up hfuel hasks he hv.split.2
    refine ⟨by simp, fun p hp => ?_⟩
    cases hp
    exact ⟨rfl, start, List.mem_append_right _ hstart, hmax⟩

/-- `ValidationResult` of a valid op, as the node returns it. -/
def simulationResult : Bytes :=
  Abi.word 32 ++ Abi.word 320 ++ (List.replicate 9 (Abi.word 0)).flatten ++ Abi.word 100000 ++ Abi.word 50000 ++
    Abi.word 0 ++ Abi.word 0 ++ Abi.word 160 ++ Abi.word 0

/-- The node behind `mockAnswer`, which has the receipt at the first poll. -/
def rawMockAnswer : (o : RawOp) → o.Ans
  | .node .getChainId => .ok 31337
  | .node .getBlockByNumberLatest => .ok (some ⟨some 1000000000⟩)
  | .node .getMaxPriorityFeePerGas => .ok 1000000000
  | .node (.getTransactionCountPending _) => .ok 7
  | .node (.getBalance _) => .ok 1000000000000000000
  | .node (.getCodeAt _) => .ok [0x60]
  | .node (.balanceOf _ _) => .ok 1000000000000000000
  | .node (.getUserOpHash _ _) => .ok testUserOpHash
  | .node (.sendRawTransaction _) => .ok testUserOpHash
  | .eth (.call _ _) => .ok simulationResult
  | .eth (.estimateGas _) => .ok 250000
  | .receipt (.getTransactionReceipt _) => .ok (some ⟨some 1, true⟩)
  | .receipt .now => secs 5
  | .receipt (.sleep _) => ()
  | .lock => ()
  | .unlock => ()
  | .sinceEpoch => some 1700000000
  | .signEip1559 _ => .ok ⟨1, 1, false⟩

abbrev mockCallOverRpc : Prog RawOp RawOp.Ans RawExit SignedTxResp :=
  callOverRpc alloy (maxPolls RECEIPT_TIMEOUT) (secs 3600) testBundler [happyOp] submitOpts

set_option maxRecDepth 4000 in
theorem exec_mockCallOverRpc : ∃ resp, (exec rawMockAnswer mockCallOverRpc).2 = .ok resp := ⟨_, rfl⟩

def RawOp.isSleep : RawOp → Bool
  | .receipt (.sleep _) => true
  | _ => false

/-- A clock that never moves is steady for as long as nothing sleeps. -/
theorem steady_of_frozen {n : Nat} (hnow : ∀ now, ⟨.receipt .now, now⟩ ∈ v → now = n)
    (hsleep : v.all (fun e => !e.1.isSleep) = true) : Steady v := by
  have hmem (e : Event ReceiptOp ReceiptOp.Ans) (h : e ∈ receiptPart v) : receiptEvent e ∈ v := by
    clear hnow hsleep
    induction v with
    | nil => cases h
    | cons e' v ih =>
      obtain ⟨o, x⟩ := e'
      cases o with
      | receipt o =>
        rcases List.mem_cons.1 h with rfl | h
        · exact List.mem_cons_self
        · exact List.mem_cons_of_mem _ (ih h)
      | _ => exact List.mem_cons_of_mem _ (ih h)
  have hclock (u : WaitTrace) (hu : ∀ e ∈ u, e ∈ receiptPart v) : clockAt u ≤ n := by
    induction u using List.reverseRecOn with
    | nil => exact Nat.zero_le _
    | append_singleton u e ih =>
      have hlast := hmem e (hu e (by simp))
      have hrest := ih fun e' he' => hu e' (List.mem_append_left _ he')
      rw [clockAt_snoc]
      obtain ⟨o, x⟩ := e
      cases o with
      | getTransactionReceipt hash => exact hrest
      | now => exact Nat.le_of_eq (hnow x hlast)
      | sleep d => exact absurd (List.all_eq_true.1 hsleep _ hlast) (by simp [RawOp.isSleep])
  intro u now hpre
  have hin (e : Event ReceiptOp ReceiptOp.Ans) (he : e ∈ u ++ [readClock now]) : e ∈ receiptPart v := hpre.subset he
  rw [hnow now (hmem _ (hin (readClock now) (by simp)))]
  exact hclock u fun e he => hin e (List.mem_append_left _ he)

set_option maxRecDepth 4000 in
theorem steady_mockCallOverRpc : Steady (exec rawMockAnswer mockCallOverRpc).1 :=
  steady_of_frozen (n := secs 5) (fun _ hm => exec_mem hm) rfl

/-- The submit of a single op that goes well: at most 161 requests, and there were some. -/
theorem over_rpc_bounded_happy : ∃ v resp, Run mockCallOverRpc v (.ok resp) ∧ spent requestPrice v ≤ 161 := by
  obtain ⟨resp, hresp⟩ := exec_mockCallOverRpc
  have hrun := exec_run rawMockAnswer mockCallOverRpc
  rw [hresp] at hrun
  exact ⟨_, resp, hrun, (over_rpc_bounded alloy (maxPolls RECEIPT_TIMEOUT) (secs 3600) testBundler [happyOp] submitOpts
    (Nat.le_refl _) _ _ hrun steady_mockCallOverRpc).1⟩

end EtheraBundler

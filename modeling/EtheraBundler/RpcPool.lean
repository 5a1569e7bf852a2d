import EtheraBundler.Accepted
import EtheraBundler.Chain
import EtheraBundler.Lib.Layers
/-!
# Concurrent calls over JSON-RPC

Calls of one bundler share a lock and an execution layer, which answer a provider method in one step
(`SubmitLock.lean`, `InFlight.lean`). In production a method is a program (`Backend.lean`): a receipt
wait is hundreds of requests and sleeps, and the requests of all calls interleave, on one clock.

| here | there |
| --- | --- |
| `rawSuspended` | `select!` (`bundler.rs:101-105`), its branch dropped inside of a provider method |
| `Timed`, `onTime` | `Instant::now()` and `tokio::time::sleep` (`provider.rs:236-256`) of one process |
| `rawLedgerRules` | the lock, the token and the execution layer, asked by JSON-RPC |
| `rawNetRules` | the same with the requests to the execution layer under way |

* `seen` — what a request is to the lock, the signer and the execution layer; the others only read.
* `Direct`, `surroundings_direct`, `looks_surroundings` — a method is either one request that they see,
  or requests that they do not.
* `phase_of_handled` — the phase of a call, read off its requests.
* `SeesAs.realises` — surroundings that see no more than that see a method happen in one step.
* `steady_of_reach` — on one clock, every call's own clock is steady.
* `pool_over_rpc_refines` — **calls over JSON-RPC are calls**, in any interleaving of their requests.
* `chain_over_rpc` — **the chain they leave behind**.
-/

namespace EtheraBundler

open Interact

variable {A : Alloy} {fuel maxInstant : Nat} {b : Bundler} {ι W : Type}

/-! ## What the surroundings see -/

/-- Where the future can be suspended: at an `.await`. -/
def RawOp.isAwait : RawOp → Bool
  | .receipt .now => false
  | .unlock => false
  | .sinceEpoch => false
  | _ => true

/-- `suspended`, one level down. -/
def rawSuspended (v : RawTrace) (o : Option RawOp) : Bool := v.isEmpty || o.any RawOp.isAwait

/-- What an answered request is to the lock, the signer and the execution layer. -/
def seen : Event RawOp RawOp.Ans → Option (Event Op Op.Ans)
  | ⟨.lock, _⟩ => some ⟨.lock, ()⟩
  | ⟨.unlock, _⟩ => some ⟨.unlock, ()⟩
  | ⟨.signEip1559 tx, x⟩ => some ⟨.signEip1559 tx, x⟩
  | ⟨.node (.getTransactionCountPending addr), x⟩ => some ⟨.rpc (.pendingNonce addr), x.mapError .transport⟩
  | ⟨.node (.sendRawTransaction raw), x⟩ => some ⟨.rpc (.sendRawTransaction raw), x.mapError .transport⟩
  | _ => none

/-- The questions of a call that only look. -/
def Op.looks (o : Op) : Prop := o.isCheck ∨ o.awaitsReceipt

/-- The question is one request, and what is seen of the request is the question. -/
def Direct (o : Op) (p : Prog RawOp RawOp.Ans RawExit o.Ans) : Prop :=
  ∃ o' k, p = .ask o' k ∧ ∀ y, ∃ x, k y = .ret x ∧ seen ⟨o', y⟩ = some ⟨o, x⟩

/-- A method that is one request. -/
theorem overNode_request (o : NodeOp) : ∃ k, overNode (AlloyProvider.request o) = .ask (.node o) k ∧
    ∀ y, k y = .ret (y.mapError .transport) := by
  refine ⟨_, rfl, fun y => ?_⟩
  cases y with
  | ok v => rfl
  | error e => rfl

theorem surroundings_direct {o : Op} (ho : ¬ o.looks) : Direct o (surroundings A fuel maxInstant o) := by
  cases o with
  | lock => exact ⟨.lock, .ret, rfl, fun y => ⟨y, rfl, rfl⟩⟩
  | unlock => exact ⟨.unlock, .ret, rfl, fun y => ⟨y, rfl, rfl⟩⟩
  | signEip1559 tx => exact ⟨.signEip1559 tx, .ret, rfl, fun y => ⟨y, rfl, rfl⟩⟩
  | sinceEpoch => exact absurd (Or.inl trivial) ho
  | rpc q =>
    cases q with
    | pendingNonce addr =>
      obtain ⟨k, hask, hk⟩ := overNode_request (.getTransactionCountPending addr)
      exact ⟨_, k, hask, fun y => ⟨_, hk y, rfl⟩⟩
    | sendRawTransaction raw =>
      obtain ⟨k, hask, hk⟩ := overNode_request (.sendRawTransaction raw)
      exact ⟨_, k, hask, fun y => ⟨_, hk y, rfl⟩⟩
    | waitForReceipt hash n => exact absurd (Or.inr trivial) ho
    | tryCallForRevert src dest callData => exact absurd (Or.inr trivial) ho
    | _ => exact absurd (Or.inl trivial) ho

/-- The requests of a question that only looks. -/
theorem looks_surroundings {o : Op} (ho : o.looks) :
    Only (fun o' => ∀ y, seen ⟨o', y⟩ = none) (surroundings A fuel maxInstant o) := by
  have hrequest {o : NodeOp} (ho : ∀ y, seen ⟨.node o, y⟩ = none) :
      Only (fun o' => ∀ y, seen ⟨o', y⟩ = none) (overNode (AlloyProvider.request o)) := by
    obtain ⟨k, hask, hk⟩ := overNode_request o
    rw [hask]
    refine ⟨ho, fun y => ?_⟩
    rw [hk]
    trivial
  cases o with
  | lock => exact (ho.elim id id).elim
  | unlock => exact (ho.elim id id).elim
  | signEip1559 tx => exact (ho.elim id id).elim
  | sinceEpoch => exact ⟨fun y => rfl, fun y => trivial⟩
  | rpc q =>
    cases q with
    | pendingNonce addr => exact (ho.elim id id).elim
    | sendRawTransaction raw => exact (ho.elim id id).elim
    | baseFee =>
      refine ⟨fun y => rfl, fun y => ?_⟩
      rcases y with e | - | block
      · trivial
      · trivial
      · trivial
    | maxPriorityFee =>
      refine ⟨fun y => rfl, fun y => ?_⟩
      rcases y with e | tip
      · trivial
      · trivial
    | balanceOf entrypoint account => exact hrequest fun y => rfl
    | userOpHash entrypoint op => exact hrequest fun y => rfl
    | estimateHandleOpsGas src entrypoint callData => exact only_relabel fun o y => rfl
    | waitForReceipt hash n => exact only_relabel fun o y => rfl
    | tryCallForRevert src dest callData => exact only_relabel fun o y => rfl
    | simulateValidation entrypoint code op => exact only_relabel fun o y => rfl

/-- An attempt of a program that asks asks. -/
theorem asks_relabel_attempt {Op : Type} {Ans : Op → Type} {δ ε α : Type} {g : ε → Except RawExit δ}
    {emb : Op → RawOp} {ret : (o : Op) → (emb o).Ans → Ans o} {p : Prog Op Ans ε α} (hp : ∃ o k, p = .ask o k) :
    ∃ o' k', (p.attempt g).relabel emb ret = .ask o' k' := by
  obtain ⟨o, k, rfl⟩ := hp
  exact ⟨emb o, _, rfl⟩

/-- No question is answered without asking outside. -/
theorem surroundings_asks (o : Op) : ∃ o' k, surroundings A fuel maxInstant o = .ask o' k := by
  cases o with
  | lock => exact ⟨_, _, rfl⟩
  | unlock => exact ⟨_, _, rfl⟩
  | sinceEpoch => exact ⟨_, _, rfl⟩
  | signEip1559 tx => exact ⟨_, _, rfl⟩
  | rpc q =>
    cases q with
    | waitForReceipt hash n =>
      refine asks_relabel_attempt ?_
      unfold AlloyProvider.waitForReceipt
      exact ⟨.now, _, rfl⟩
    | _ => exact asks_relabel_attempt ⟨_, _, rfl⟩

/-! ### What is seen of a method -/

section Seen

variable {o : Op} {o' : RawOp} {x : o.Ans} {u v : RawTrace} {t : BundlerTrace}
  {k : o'.Ans → Prog RawOp RawOp.Ans RawExit o.Ans}

theorem seen_of_looks {q : Prog RawOp RawOp.Ans RawExit o.Ans} (ho : o.looks)
    (h : After (surroundings A fuel maxInstant o) u q) : u.filterMap seen = [] := by
  rw [List.filterMap_eq_nil_iff]
  rintro ⟨o', y⟩ hm
  exact (looks_surroundings ho).mem h hm y

/-- Of a method that was answered. -/
theorem seen_of_run (h : Run (surroundings A fuel maxInstant o) u (.ok x)) :
    (o.looks ∧ u.filterMap seen = []) ∨ u.filterMap seen = [⟨o, x⟩] := by
  by_cases ho : o.looks
  · exact Or.inl ⟨ho, seen_of_looks ho h⟩
  · obtain ⟨o', k, hask, hk⟩ : Direct o (surroundings A fuel maxInstant o) := surroundings_direct ho
    rw [hask] at h
    obtain ⟨y, u', rfl, hy⟩ := run_ask.1 h
    obtain ⟨x', hx', hseen⟩ := hk y
    rw [hx'] at hy
    obtain ⟨rfl, he⟩ := run_ret.1 hy
    cases he
    refine Or.inr ?_
    rw [List.filterMap_cons_some hseen, List.filterMap_nil]

/-- Of a method under way: nothing yet. -/
theorem seen_of_asks (h : After (surroundings A fuel maxInstant o) u (.ask o' k)) :
    u.filterMap seen = [] ∧ ((o.looks ∧ ∀ y, seen ⟨o', y⟩ = none) ∨
      (u = [] ∧ ∀ y, ∃ x, k y = .ret x ∧ seen ⟨o', y⟩ = some ⟨o, x⟩)) := by
  by_cases ho : o.looks
  · exact ⟨seen_of_looks ho h, Or.inl ⟨ho, ((looks_surroundings ho).after h).1⟩⟩
  · obtain ⟨o₁, k₁, hask, hk⟩ : Direct o (surroundings A fuel maxInstant o) := surroundings_direct ho
    rw [hask] at h
    cases u with
    | nil =>
      cases after_nil.1 h
      exact ⟨rfl, Or.inr ⟨rfl, hk⟩⟩
    | cons e u =>
      obtain ⟨y, rfl, hy⟩ := h
      obtain ⟨x, hx, -⟩ := hk y
      rw [hx, after_ret] at hy
      cases hy.2

/-- Looking moves no call. -/
theorem next_of_looks (ho : o.looks) (ph : Phase) : ph.next ⟨o, x⟩ = ph := by
  cases o with
  | sinceEpoch => cases ph <;> rfl
  | lock => exact (ho.elim id id).elim
  | unlock => exact (ho.elim id id).elim
  | signEip1559 tx => exact (ho.elim id id).elim
  | rpc q =>
    cases q with
    | pendingNonce addr => exact (ho.elim id id).elim
    | sendRawTransaction raw => exact (ho.elim id id).elim
    | _ => cases ph <;> rfl

/-- **The phase of a call** is seen in its requests. -/
theorem phase_of_handled (hh : Handled (surroundings A fuel maxInstant) t v) :
    Phase.of (v.filterMap seen) = Phase.of t := by
  have hfold (ph : Phase) : (v.filterMap seen).foldl Phase.next ph = t.foldl Phase.next ph := by
    induction hh generalizing ph with
    | nil => rfl
    | cons hx _ ih =>
      rw [List.filterMap_append, List.foldl_append, ih, List.foldl_cons]
      rcases seen_of_run hx with ⟨ho, hnil⟩ | hone
      · rw [hnil, List.foldl_nil, next_of_looks ho]
      · rw [hone, List.foldl_cons, List.foldl_nil]
  exact hfold .before

/-- Nothing was asked below only if nothing was asked above. -/
theorem handled_isEmpty (hh : Handled (surroundings A fuel maxInstant) t v) (hv : v = []) : t = [] := by
  subst hv
  cases t with
  | nil => rfl
  | cons e t =>
    obtain ⟨o, x⟩ := e
    obtain ⟨u, w, huw, hx, -⟩ := handled_cons.1 hh
    obtain ⟨rfl, rfl⟩ := List.append_eq_nil_iff.1 huw.symm
    obtain ⟨o', k, hask⟩ : ∃ o' k, surroundings A fuel maxInstant o = .ask o' k := surroundings_asks o
    rw [hask] at hx
    cases after_nil.1 hx

end Seen

/-! ## One clock, one set of surroundings -/

/-- A world, and the clock of the process the calls run in. -/
structure Timed (W : Type) where
  world : W
  clock : Nat

/-- `Instant::now()` reads the clock; `sleep(d)` is not over before `d` has passed since the call looked. -/
def onTime (clock : Nat) (v : RawTrace) (o : RawOp) (x : o.Ans) : Bool :=
  match o, x with
  | .receipt .now, now => now == clock
  | .receipt (.sleep d), _ => decide (clockAt (receiptPart v) + d ≤ clock)
  | _, _ => true

/-- A request, answered on time by surroundings that answer questions by `answer`. -/
def rawAnswer (answer : W → ι → (o : Op) → o.Ans → Option W) (w : Timed W) (i : ι) (v : RawTrace) (o : RawOp)
    (x : o.Ans) : Option (Timed W) :=
  if onTime w.clock v o x = true then
    match seen ⟨o, x⟩ with
    | some e => (answer w.world i e.1 e.2).map fun w' => { w with world := w' }
    | none => some w
  else none

/-- All that a request does: what is seen of it, and the clock stands still. -/
theorem rawAnswer_some {answer : W → ι → (o : Op) → o.Ans → Option W} {w w' : Timed W} {i : ι} {v : RawTrace}
    {o : RawOp} {x : o.Ans} (h : rawAnswer answer w i v o x = some w') :
    onTime w.clock v o x = true ∧ w'.clock = w.clock ∧
      ((seen ⟨o, x⟩ = none ∧ w'.world = w.world) ∨
        ∃ e, seen ⟨o, x⟩ = some e ∧ answer w.world i e.1 e.2 = some w'.world) := by
  unfold rawAnswer at h
  split at h
  · rename_i htime
    refine ⟨htime, ?_⟩
    rcases hs : seen ⟨o, x⟩ with - | e
    · rw [hs] at h
      cases h
      exact ⟨rfl, Or.inl ⟨rfl, rfl⟩⟩
    · rw [hs] at h
      obtain ⟨v, hv, rfl⟩ := Option.map_eq_some_iff.1 h
      exact ⟨rfl, Or.inr ⟨e, rfl, hv⟩⟩
  · cases h

/-- Rules that see of a request what `R` sees of its method, on a clock that does not go back. -/
structure SeesAs {L L' E E' : Type} (answer : W → ι → (o : Op) → o.Ans → Option W) (R : Rules ι W L E Op Op.Ans)
    (R' : Rules ι (Timed W) L' E' RawOp RawOp.Ans) : Prop where
  above : ∀ w i t o x, R.answer w i t o x = answer w i o x
  below : ∀ w i v o x, R'.answer w i v o x = rawAnswer answer w i v o x
  looks : ∀ w i o x, o.looks → answer w i o x = some w
  act : ∀ {w i v o l w'}, R'.act w i v o l = some w' → w.clock ≤ w'.clock ∧
    ∃ raw l', o = .node (.sendRawTransaction raw) ∧ ∀ t, Phase.of t = Phase.of (v.filterMap seen) →
      R.act w.world i t (.rpc (.sendRawTransaction raw)) l' = some w'.world
  drop : ∀ {w i v o w'}, R'.drop w i v o = some w' → w.clock ≤ w'.clock ∧ rawSuspended v o = true ∧
    ∀ t o, suspended t o = true → R.drop w.world i t o = some w'.world
  env : ∀ {w e w'}, R'.env w e = some w' → w.clock ≤ w'.clock ∧
    (w'.world = w.world ∨ ∃ e', R.env w.world e' = some w'.world)

section SeesAs

variable {L L' E E' : Type} {answer : W → ι → (o : Op) → o.Ans → Option W} {R : Rules ι W L E Op Op.Ans}
  {R' : Rules ι (Timed W) L' E' RawOp RawOp.Ans}

/-- A call suspended below is suspended above. -/
theorem suspended_of_raw {t : BundlerTrace} {v u : RawTrace} {o : Op} {o' : RawOp}
    {k : o'.Ans → Prog RawOp RawOp.Ans RawExit o.Ans} (hh : Handled (surroundings A fuel maxInstant) t v)
    (h : After (surroundings A fuel maxInstant o) u (.ask o' k)) (hs : rawSuspended (v ++ u) (some o') = true) :
    suspended t (some o) = true := by
  unfold rawSuspended at hs
  unfold suspended
  rw [Bool.or_eq_true] at hs ⊢
  rcases hs with hs | hs
  · obtain ⟨hv, -⟩ := List.append_eq_nil_iff.1 (List.isEmpty_iff.1 hs)
    exact Or.inl (List.isEmpty_iff.2 (handled_isEmpty hh hv))
  · refine Or.inr ?_
    have hlocal (o₁ : RawOp) {k₁ : o₁.Ans → Prog RawOp RawOp.Ans RawExit o.Ans} (hnot : o₁.isAwait = false)
        (hask : surroundings A fuel maxInstant o = .ask o₁ k₁) (hk : ∀ y, ∃ x, k₁ y = .ret x) : False := by
      rw [hask] at h
      cases u with
      | nil =>
        cases after_nil.1 h
        simp [hnot] at hs
      | cons e u =>
        obtain ⟨y, -, hy⟩ := h
        obtain ⟨x, hx⟩ := hk y
        rw [hx, after_ret] at hy
        cases hy.2
    cases o with
    | unlock => exact (hlocal .unlock rfl rfl fun y => ⟨y, rfl⟩).elim
    | sinceEpoch => exact (hlocal .sinceEpoch rfl rfl fun y => ⟨y, rfl⟩).elim
    | _ => rfl

/-- **One step each.** To such surroundings a method happens at the last of its requests. -/
theorem SeesAs.realises (hR : SeesAs answer R R') : Realises Timed.world (surroundings A fuel maxInstant) R R' where
  asks := surroundings_asks
  last := by
    intro w w' i t v u o o' k y x hh h hret hw
    rw [hR.below] at hw
    rw [hR.above]
    obtain ⟨-, -, hw⟩ := rawAnswer_some hw
    rcases (seen_of_asks h).2 with ⟨ho, hnone⟩ | ⟨-, hdirect⟩
    · rw [hnone] at hw
      rcases hw with ⟨-, heq⟩ | ⟨e, he, -⟩
      · rw [hR.looks _ _ _ _ ho, heq]
      · cases he
    · obtain ⟨x', hx', hseen⟩ := hdirect y
      rw [hret] at hx'
      cases hx'
      rw [hseen] at hw
      rcases hw with ⟨he, -⟩ | ⟨e, he, hans⟩
      · cases he
      · cases he
        exact hans
  between := by
    intro w w' i t v u o o' k y hh h hret hw
    rw [hR.below] at hw
    obtain ⟨-, -, hw⟩ := rawAnswer_some hw
    rcases (seen_of_asks h).2 with ⟨-, hnone⟩ | ⟨-, hdirect⟩
    · rw [hnone] at hw
      rcases hw with ⟨-, heq⟩ | ⟨e, he, -⟩
      · exact heq
      · cases he
    · obtain ⟨x, hx, -⟩ := hdirect y
      exact absurd hx (hret x)
  act := by
    intro w w' i t v u o o' k l hh h hw
    obtain ⟨-, raw, l', rfl, hup⟩ := hR.act hw
    obtain ⟨hu, hcase⟩ := seen_of_asks h
    have hphase : Phase.of t = Phase.of ((v ++ u).filterMap seen) := by
      rw [List.filterMap_append, hu, List.append_nil, phase_of_handled hh]
    rcases hcase with ⟨-, hnone⟩ | ⟨-, hdirect⟩
    · cases hnone (.error "")
    · obtain ⟨x, -, hseen⟩ := hdirect (.error "")
      obtain rfl : Op.rpc (.sendRawTransaction raw) = o := congrArg Sigma.fst (Option.some.inj hseen)
      exact ⟨l', hup t hphase⟩
  drop := by
    intro w w' i t v u o o' k hh h hw
    obtain ⟨-, hs, hup⟩ := hR.drop hw
    exact hup t _ (suspended_of_raw hh h hs)
  dropFailed := by
    intro w w' i t v u o e hh h hw
    obtain ⟨-, hs, -⟩ := hR.drop hw
    have hnil : v ++ u = [] := by simpa [rawSuspended] using hs
    obtain ⟨-, rfl⟩ := List.append_eq_nil_iff.1 hnil
    obtain ⟨o', k, hask⟩ : ∃ o' k, surroundings A fuel maxInstant o = .ask o' k := surroundings_asks o
    rw [hask] at h
    cases after_nil.1 h
  dropOver := by
    intro w w' i t v hh hw
    obtain ⟨-, hs, hup⟩ := hR.drop hw
    have hnil : v = [] := by simpa [rawSuspended] using hs
    exact hup t none (by simp [suspended, handled_isEmpty hh hnil])
  env := fun hw => (hR.env hw).2

/-! ### The clock of each call -/

/-- A wait's own clock is that of the process, as of its last look. -/
theorem SteadyTrace.snoc {t : WaitTrace} {o : ReceiptOp} {x : o.Ans} {clock : Nat} (ht : SteadyTrace t)
    (hlate : clockAt t ≤ clock) (h : ∀ now, (⟨o, x⟩ : Event ReceiptOp ReceiptOp.Ans) = readClock now → now = clock) :
    SteadyTrace (t ++ [⟨o, x⟩]) := by
  intro u now hpre
  rcases List.prefix_concat_iff.1 hpre with heq | hpre
  · obtain ⟨rfl, he⟩ := List.append_inj' heq rfl
    rw [h now (List.singleton_inj.1 he).symm]
    exact hlate
  · exact ht u now hpre

/-- One answer on time. -/
theorem steady_snoc {v : RawTrace} {o : RawOp} {x : o.Ans} {clock : Nat}
    (hv : Steady v ∧ clockAt (receiptPart v) ≤ clock) (h : onTime clock v o x = true) :
    Steady (v ++ [⟨o, x⟩]) ∧ clockAt (receiptPart (v ++ [⟨o, x⟩])) ≤ clock := by
  unfold Steady at hv ⊢
  rw [receiptPart_append]
  have hother (hnil : receiptPart [⟨o, x⟩] = []) : SteadyTrace (receiptPart v ++ receiptPart [⟨o, x⟩]) ∧
      clockAt (receiptPart v ++ receiptPart [⟨o, x⟩]) ≤ clock := by
    rw [hnil, List.append_nil]
    exact hv
  cases o with
  | receipt o =>
    show SteadyTrace (receiptPart v ++ [⟨o, x⟩]) ∧ clockAt (receiptPart v ++ [⟨o, x⟩]) ≤ clock
    rw [clockAt_snoc]
    cases o with
    | getTransactionReceipt hash => exact ⟨hv.1.snoc hv.2 fun now he => (by cases he), hv.2⟩
    | now =>
      have hnow : x = clock := by simpa [onTime] using h
      refine ⟨hv.1.snoc hv.2 fun now he => ?_, Nat.le_of_eq hnow⟩
      cases he
      exact hnow
    | sleep d =>
      have hd : clockAt (receiptPart v) + d ≤ clock := by simpa [onTime] using h
      exact ⟨hv.1.snoc hv.2 fun now he => (by cases he), hd⟩
  | _ => exact hother rfl

variable [DecidableEq ι] {α : Type} {prog : ι → Prog RawOp RawOp.Ans RawExit α} {w₀ : Timed W}
  {ok : Pool ι (Timed W) RawOp RawOp.Ans RawExit α → Label ι L' E' RawOp RawOp.Ans → Bool}
  {s : Pool ι (Timed W) RawOp RawOp.Ans RawExit α}

/-- **On one clock** every call's own clock is steady. -/
theorem steady_of_reach (hR : SeesAs answer R R') (h : Reach R' ok (.start prog w₀) s) (i : ι) :
    Steady (s.calls i).hist := by
  let I (s : Pool ι (Timed W) RawOp RawOp.Ans RawExit α) : Prop :=
    ∀ i, Steady (s.calls i).hist ∧ clockAt (receiptPart (s.calls i).hist) ≤ s.world.clock
  have hlater {s : Pool ι (Timed W) RawOp RawOp.Ans RawExit α} {w : Timed W} (hI : I s) (hw : s.world.clock ≤ w.clock)
      (j : ι) : Steady (s.calls j).hist ∧ clockAt (receiptPart (s.calls j).hist) ≤ w.clock :=
    ⟨(hI j).1, Nat.le_trans (hI j).2 hw⟩
  refine (h.inv (I := I) ?_ ?_ i).1
  · intro i
    refine ⟨?_, Nat.zero_le _⟩
    intro u now hpre
    obtain ⟨-, he⟩ := List.append_eq_nil_iff.1 (List.prefix_nil.1 hpre)
    cases he
  · intro s s' l _ _ hm hI
    cases hm with
    | answer i f o k w live hcur hw =>
      rw [hR.below] at hw
      obtain ⟨htime, hclock, -⟩ := rawAnswer_some hw
      intro j
      rw [Pool.answered_world, hclock]
      by_cases hj : j = i
      · subst hj
        rw [Pool.answered_self]
        exact steady_snoc (hI j) htime
      · rw [Pool.answered_of_ne _ _ _ _ hj]
        exact hI j
    | act i l o k w live hcur hw => exact fun j => hlater hI (hR.act hw).1 j
    | drop i w live hw =>
      intro j
      rw [Pool.cut_hist]
      exact hlater hI (hR.drop hw).1 j
    | env e w hw => exact fun j => hlater hI (hR.env hw).1 j

end SeesAs

/-! ## The ledger, by JSON-RPC -/

/-- Any number of calls on one `AlloyProvider`. -/
def rawCalls (A : Alloy) (fuel maxInstant : Nat) (b : Bundler) (req : ι → Request) :
    ι → Prog RawOp RawOp.Ans RawExit SignedTxResp :=
  fun i => callOverRpc A fuel maxInstant b (req i).ops (req i).opts

variable [DecidableEq ι] {req : ι → Request}

/-- `ledgerRules`, request by request. Time passes on its own. As there, a fired token does not keep an answer from a
call. -/
def rawLedgerRules : Rules ι (Timed (Ledger ι)) Empty (Unit ⊕ Nat) RawOp RawOp.Ans where
  answer w i v o x := rawAnswer ledgerAnswer w i v o x
  act _ _ _ _ l := nomatch l
  drop w i v o :=
    if w.world.cancelled = true ∧ rawSuspended v o = true then
      some { w with world := { w.world with lock := lockDrop w.world.lock i } }
    else none
  env w
    | .inl _ => some { w with world := { w.world with cancelled := true } }
    | .inr d => some { w with clock := w.clock + d }

abbrev RawSubmitPool (ι : Type) := Pool ι (Timed (Ledger ι)) RawOp RawOp.Ans RawExit SignedTxResp

/-- The states of all runs over JSON-RPC. -/
abbrev RawReachable (A : Alloy) (fuel maxInstant : Nat) (b : Bundler) (req : ι → Request) (n₀ clock₀ : Nat) :
    RawSubmitPool ι → Prop :=
  Reach rawLedgerRules anyStep (.start (rawCalls A fuel maxInstant b req) ⟨.start n₀, clock₀⟩)

omit [DecidableEq ι] in
theorem ledgerAnswer_of_looks {w : Ledger ι} {i : ι} {o : Op} (ho : o.looks) (x : o.Ans) :
    ledgerAnswer w i o x = some w := by
  cases o with
  | sinceEpoch => rfl
  | lock => exact (ho.elim id id).elim
  | unlock => exact (ho.elim id id).elim
  | signEip1559 tx => rfl
  | rpc q =>
    cases q with
    | pendingNonce addr => exact (ho.elim id id).elim
    | sendRawTransaction raw => exact (ho.elim id id).elim
    | _ => rfl

theorem ledger_seesAs : SeesAs ledgerAnswer (ledgerRules (ι := ι)) rawLedgerRules where
  above _ _ _ _ _ := rfl
  below _ _ _ _ _ := rfl
  looks _ _ _ x ho := ledgerAnswer_of_looks ho x
  act {_ _ _ _ l _} := nomatch l
  drop := by
    intro w i v o w' h
    simp only [rawLedgerRules] at h
    split at h <;> cases h
    rename_i hc
    exact ⟨Nat.le_refl _, hc.2, fun t o ho => if_pos ⟨hc.1, ho⟩⟩
  env := by
    intro w e w' h
    cases e with
    | inl e =>
      cases h
      exact ⟨Nat.le_refl _, Or.inr ⟨(), rfl⟩⟩
    | inr d =>
      cases h
      exact ⟨Nat.le_add_right _ _, Or.inl rfl⟩

instance (o : Op) : Nonempty o.Ans := ⟨mockAnswer o⟩

/-- **Calls over JSON-RPC are calls.** Whatever any number of calls reach over JSON-RPC, their requests
interleaved in any order and their waits on one clock, they reach with every provider method answered
in one step: with the same lock, token, pending nonce and accepted transactions, and with each call
where its own answered methods led it, or inside the one it waits for. Their answers are those of an
`AlloyProvider`, and on the one clock each call's own clock is steady. -/
theorem pool_over_rpc_refines (A : Alloy) (fuel maxInstant : Nat) (b : Bundler) (req : ι → Request) (n₀ clock₀ : Nat)
    (s' : RawSubmitPool ι) (h : RawReachable A fuel maxInstant b req n₀ clock₀ s') :
    ∃ s : SubmitPool ι, Reachable A b req n₀ s ∧ s.world = s'.world.world ∧
      ∀ i, Under .call (surroundings A fuel maxInstant) (s.calls i) (s'.calls i) ∧ Alloyed (s.calls i).hist ∧
        Steady (s'.calls i).hist := by
  have hR : Realises Timed.world (surroundings A fuel maxInstant) ledgerRules (rawLedgerRules (ι := ι)) :=
    ledger_seesAs.realises
  have hr : Reach rawLedgerRules anyStep
    (.start (fun i => ((calls A b req i).mapFail RawExit.call).via (surroundings A fuel maxInstant)) _) s' := h
  obtain ⟨s, hs, ha⟩ := Reach.above hR hr
  refine ⟨s, hs, ha.world, fun i => ⟨ha.calls i, ?_, steady_of_reach ledger_seesAs h i⟩⟩
  obtain ⟨v, u, -, hh⟩ := (ha.calls i).handled
  exact alloyed_of_handled hh

/-- The node of `rawMockAnswer` with its pending nonce at `n`. -/
def rawMockAnswerAt (n : U64) : (o : RawOp) → o.Ans
  | .node (.getTransactionCountPending _) => .ok n
  | o => rawMockAnswer o

/-- The sign-only call while the first submit holds its nonce, then the second up to its wait, in which a
second passes. -/
def threeRawCallsRun (first second signOnly : ι) : List (Label ι Empty (Unit ⊕ Nat) RawOp RawOp.Ans) :=
  List.replicate 9 (.answer first (rawMockAnswerAt 7)) ++ List.replicate 9 (.answer signOnly (rawMockAnswerAt 7)) ++
    List.replicate 5 (.answer first (rawMockAnswerAt 7)) ++ List.replicate 13 (.answer second (rawMockAnswerAt 8)) ++
    [.env (.inr (secs 1))]

/-- Two accepted sends over JSON-RPC are two accepted sends. -/
theorem pool_over_rpc_refines_threeCalls : ∃ s : SubmitPool (Fin 3),
    Reachable alloy testBundler threeCalls 7 s ∧ s.world.accepted.length = 2 := by
  obtain ⟨s', hs', hp⟩ := exists_reach_of_run rawLedgerRules anyStep
    (.start (rawCalls alloy (maxPolls RECEIPT_TIMEOUT) (secs 3600) testBundler threeCalls) ⟨.start 7, secs 5⟩)
    (threeRawCallsRun 0 1 2) (fun s => s.world.world.accepted.length == 2) (by decide +kernel)
  obtain ⟨s, hs, hworld, -⟩ :=
    pool_over_rpc_refines alloy (maxPolls RECEIPT_TIMEOUT) (secs 3600) testBundler threeCalls 7 (secs 5) s' hs'
  refine ⟨s, hs, ?_⟩
  rw [hworld]
  simpa using hp

/-! ## The network, by JSON-RPC -/

/-- `netRules`, request by request. -/
def rawNetRules : Rules ι (Timed (Net ι)) Unit (NetEvent ⊕ Nat) RawOp RawOp.Ans where
  answer w i v o x := rawAnswer netAnswer w i v o x
  act w i v o _ :=
    match o, Phase.of (v.filterMap seen) with
    | .node (.sendRawTransaction raw), .signed env =>
      some { w with world := { w.world with inflight := w.world.inflight ++ [⟨i, raw, env⟩] } }
    | _, _ => none
  drop w i v o :=
    if rawSuspended v o = true then some { w with world := { w.world with lock := lockDrop w.world.lock i } } else none
  env w
    | .inl e => (netRules.env w.world e).map fun w' => { w with world := w' }
    | .inr d => some { w with clock := w.clock + d }

abbrev RawNetPool (ι : Type) := Pool ι (Timed (Net ι)) RawOp RawOp.Ans RawExit SignedTxResp

/-- The states of all runs over JSON-RPC and the network. -/
abbrev RawNetReachable (A : Alloy) (fuel maxInstant : Nat) (b : Bundler) (req : ι → Request) (n₀ clock₀ : Nat) :
    RawNetPool ι → Prop :=
  Reach rawNetRules anyStep (.start (rawCalls A fuel maxInstant b req) ⟨.start n₀, clock₀⟩)

theorem netAnswer_of_looks {w : Net ι} {i : ι} {o : Op} (ho : o.looks) (x : o.Ans) : netAnswer w i o x = some w := by
  cases o with
  | sinceEpoch => rfl
  | lock => exact (ho.elim id id).elim
  | unlock => exact (ho.elim id id).elim
  | signEip1559 tx => rfl
  | rpc q =>
    cases q with
    | pendingNonce addr => exact (ho.elim id id).elim
    | sendRawTransaction raw => exact (ho.elim id id).elim
    | _ => rfl

theorem net_seesAs : SeesAs netAnswer (netRules (ι := ι)) rawNetRules where
  above _ _ _ _ _ := rfl
  below _ _ _ _ _ := rfl
  looks _ _ _ x ho := netAnswer_of_looks ho x
  act := by
    intro w i v o l w' h
    simp only [rawNetRules] at h
    split at h
    · rename_i raw env hph
      cases h
      refine ⟨Nat.le_refl _, raw, (), rfl, fun t ht => ?_⟩
      rw [hph] at ht
      simp only [netRules, ht]
    · cases h
  drop := by
    intro w i v o w' h
    simp only [rawNetRules] at h
    split at h <;> cases h
    rename_i hs
    exact ⟨Nat.le_refl _, hs, fun t o ho => if_pos ho⟩
  env := by
    intro w e w' h
    cases e with
    | inl e =>
      obtain ⟨w₁, hw₁, rfl⟩ := Option.map_eq_some_iff.1 h
      exact ⟨Nat.le_refl _, Or.inr ⟨e, hw₁⟩⟩
    | inr d =>
      cases h
      exact ⟨Nat.le_add_right _ _, Or.inl rfl⟩

/-- What a request to send is: one submit's signature, got by JSON-RPC, over the batch that this very call
was asked for and vetted by JSON-RPC. -/
structure RawCommissioned (A : Alloy) (fuel maxInstant : Nat) (b : Bundler) (req : ι → Request) (s : RawNetPool ι)
    (m : Msg ι) : Prop where
  submit : (req m.sender).opts.submit = true
  raw : m.raw = A.encoded2718 m.env
  signed : ⟨.signEip1559 m.env.tx, .ok m.env.signature⟩ ∈ (s.calls m.sender).hist
  chainId : m.env.tx.chainId = b.cfg.chainId
  kind : m.env.tx.to = .call b.cfg.entrypointAddress
  value : m.env.tx.value = 0
  vetted : ∃ t v packed, v <+: (s.calls m.sender).hist ∧ Handled (surroundings A fuel maxInstant) t v ∧
    Vetted A b (req m.sender).ops t packed ∧ m.env.tx.input = A.handleOpsAbiEncode packed b.signerAddress

omit [DecidableEq ι] in
theorem Commissioned.raw_of_under {s : NetPool ι} {s' : RawNetPool ι} {m : Msg ι} (hc : Commissioned A b req s m)
    (hu : Under .call (surroundings A fuel maxInstant) (s.calls m.sender) (s'.calls m.sender)) :
    RawCommissioned A fuel maxInstant b req s' m := by
  obtain ⟨v, u, hist, hh⟩ := hu.handled
  obtain ⟨packed, hv, hinput⟩ := hc.vetted
  have hpre : v <+: (s'.calls m.sender).hist := by
    rw [hist]
    exact List.prefix_append v u
  exact ⟨hc.submit, hc.raw, hpre.subset (mem_of_signed hh hc.signed), hc.chainId, hc.kind, hc.value,
    _, v, packed, hpre, hh, hv, hinput⟩

/-- **The chain they leave behind.** Over JSON-RPC too, whatever requests of whichever calls are
interleaved, lost, late, repeated or given up: no request to send is ahead of the pending nonce, the
chain's nonces count up from the first one to the pending one, no two of its transactions come from one
call, and every request to send is the transaction that one submit got signed over the batch it vetted. -/
theorem chain_over_rpc (A : Alloy) (fuel maxInstant : Nat) (b : Bundler) (req : ι → Request) (n₀ clock₀ : Nat)
    (s' : RawNetPool ι) (h : RawNetReachable A fuel maxInstant b req n₀ clock₀ s') :
    (∀ m ∈ s'.world.world.msgs, RawCommissioned A fuel maxInstant b req s' m ∧ n₀ ≤ m.nonce.toNat ∧
      m.nonce.toNat ≤ s'.world.world.pending) ∧
    (∀ m ∈ s'.world.world.msgs, ∀ m' ∈ s'.world.world.msgs, m.sender = m'.sender → m.env = m'.env ∧ m.raw = m'.raw) ∧
    (mined n₀ s'.world.world.delivered).map (·.nonce.toNat) = List.range' n₀ (s'.world.world.pending - n₀) ∧
    ((mined n₀ s'.world.world.delivered).map (·.sender)).Nodup := by
  have hR : Realises Timed.world (surroundings A fuel maxInstant) netRules (rawNetRules (ι := ι)) := net_seesAs.realises
  have hr : Reach rawNetRules anyStep
    (.start (fun i => ((calls A b req i).mapFail RawExit.call).via (surroundings A fuel maxInstant)) _) s' := h
  obtain ⟨s, hs, ha⟩ := Reach.above hR hr
  have hs : NetReachable A b req n₀ anyStep s := hs
  rw [← ha.world]
  have hgap := noGap hs
  refine ⟨fun m hm => ⟨(commissioned hs hm).raw_of_under (ha.calls m.sender), hgap.reaches hm⟩,
    fun m hm m' hm' he => msgs_same hs hm hm' he, ?_, nodup_senders_mined hs⟩
  rw [map_nonce_mined, hgap.pending, Nat.add_sub_cancel_left]

/-- The first call is dropped with its send under way, the second draws the same nonce, and both arrive. -/
def overtakenRawRun (first second : ι) : List (Label ι Unit (NetEvent ⊕ Nat) RawOp RawOp.Ans) :=
  List.replicate 10 (.answer first (rawMockAnswerAt 7)) ++ [.act first (), .drop first] ++
    List.replicate 10 (.answer second (rawMockAnswerAt 7)) ++
    [.act second (), .env (.inl (.deliver 0)), .env (.inl (.deliver 0))]

/-- Both transactions of nonce 7 were processed, and one is on the chain. -/
theorem chain_over_rpc_overtaken : ∃ s' : RawNetPool (Fin 2),
    RawNetReachable alloy (maxPolls RECEIPT_TIMEOUT) (secs 3600) testBundler twoSubmits 7 (secs 5) s' ∧
      s'.world.world.delivered.length = 2 ∧ (mined 7 s'.world.world.delivered).length = 1 := by
  obtain ⟨s', hs', hp⟩ := exists_reach_of_run rawNetRules anyStep
    (.start (rawCalls alloy (maxPolls RECEIPT_TIMEOUT) (secs 3600) testBundler twoSubmits) ⟨.start 7, secs 5⟩)
    (overtakenRawRun 0 1)
    (fun s => s.world.world.delivered.length == 2 && s.world.world.pending == 8) (by decide +kernel)
  rw [Bool.and_eq_true, beq_iff_eq, beq_iff_eq] at hp
  obtain ⟨-, -, hnonces, -⟩ :=
    chain_over_rpc alloy (maxPolls RECEIPT_TIMEOUT) (secs 3600) testBundler twoSubmits 7 (secs 5) s' hs'
  refine ⟨s', hs', hp.1, ?_⟩
  have hlen := congrArg List.length hnonces
  rw [List.length_map, List.length_range', hp.2] at hlen
  exact hlen

end EtheraBundler

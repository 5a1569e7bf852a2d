import EtheraBundler.Exits
import EtheraBundler.Mock
import EtheraBundler.Lib.Pool
import Mathlib.Data.List.Forall2
/-!
# `submit_lock`

| here | there |
| --- | --- |
| `Request.call` | one `build_inner` (`bundler.rs:108-252`), any mode |
| `Phase` | where it stands in the critical section (`bundler.rs:189-216`) |
| `lockAnswer`, `lockDrop` | `submit_lock` and its guard |
| `Ledger`, `ledgerRules` | the lock, the cancellation token and the execution layer behind the provider |

Calls of one bundler share nothing but these. The execution layer answers `pending_nonce` with
its counter and raises it with every send it accepts; any provider or signer call may fail
instead, at any time.

* `obeys_call` — a call keeps to `submitProtocol`, whatever it is answered.
* `PhaseStep`, `next_step` — all that an answer can do to a phase.
* `phaseAgrees` — what the history of a call says about its phase.
* `holder_iff_inside` — the lock is held by exactly the live call inside the section.
* `Counted.answered`, `counted` — the nonces given out, over a step and over a run.
* `submits_serialised` — **nonce serialisation**, in every run of any number of calls.
-/

namespace EtheraBundler

open BigEndian Interact

variable {A : Alloy} {b : Bundler}

/-! ## The phases of a call -/

/-- What a caller passes to `build_signed_user_ops_tx`. -/
structure Request where
  ops : List UserOpV07
  opts : BuildOpts

def Request.call (A : Alloy) (b : Bundler) (req : Request) : M SignedTxResp := buildInner A b req.ops req.opts

/-- Where a call stands. A sign-only call stays `before`. -/
inductive Phase where
  | before
  /-- The guard is taken. -/
  | locked
  | read (nonce : U64)
  | signed (env : TxEnvelope)
  /-- `send_raw_transaction` was answered, with `Ok` or not. -/
  | answered (sent : Bool)
  /-- The guard is dropped. -/
  | left (sent : Bool)

namespace Phase

/-- Under the guard. -/
def inside : Phase → Bool
  | .before | .left _ => false
  | _ => true

/-- The nonce that was read and is not yet spent on a send. -/
def nonce : Phase → Option U64
  | .read n => some n
  | .signed env => some env.tx.nonce
  | _ => none

/-- The send was answered `Ok`. -/
def sent : Phase → Bool
  | .answered sent | .left sent => sent
  | _ => false

def next (ph : Phase) (e : Event Op Op.Ans) : Phase :=
  match ph with
  | .before =>
    match e with
    | ⟨.lock, _⟩ => .locked
    | _ => .before
  | .locked =>
    match e with
    | ⟨.rpc (.pendingNonce _), .ok n⟩ => .read n
    | ⟨.unlock, _⟩ => .left false
    | _ => .locked
  | .read n =>
    match e with
    | ⟨.signEip1559 tx, .ok sig⟩ => .signed ⟨tx, sig⟩
    | ⟨.unlock, _⟩ => .left false
    | _ => .read n
  | .signed env =>
    match e with
    | ⟨.rpc (.sendRawTransaction _), .ok _⟩ => .answered true
    | ⟨.rpc (.sendRawTransaction _), .error _⟩ => .answered false
    | _ => .signed env
  | .answered sent =>
    match e with
    | ⟨.unlock, _⟩ => .left sent
    | _ => .answered sent
  | .left sent => .left sent

/-- The phase after `t`. -/
def of (t : BundlerTrace) : Phase := t.foldl next .before

@[simp] theorem of_snoc (t : BundlerTrace) (e : Event Op Op.Ans) : of (t ++ [e]) = (of t).next e := by
  rw [of, List.foldl_append]
  rfl

/-- What may be asked. Out of submit mode the lock is left alone. -/
def allow (A : Alloy) (b : Bundler) (submit : Bool) (ph : Phase) (o : Op) : Prop :=
  match ph with
  | .before => o.isCheck ∨ (submit = true ∧ o = .lock) ∨
      (submit = false ∧ (o = .rpc (.pendingNonce b.signerAddress) ∨ ∃ tx, o = .signEip1559 tx))
  | .locked => o = .rpc (.pendingNonce b.signerAddress) ∨ o = .unlock
  | .read n => (∃ tx, o = .signEip1559 tx ∧ tx.nonce = n) ∨ o = .unlock
  | .signed env => o = .rpc (.sendRawTransaction (A.encoded2718 env))
  | .answered _ => o = .unlock
  | .left sent => sent = true ∧ o.awaitsReceipt

end Phase

/-- The protocol of a call. -/
def submitProtocol (A : Alloy) (b : Bundler) (submit : Bool) : Protocol Op Op.Ans Phase where
  allow := Phase.allow A b submit
  next := Phase.next

@[simp] theorem submitProtocol_phase {submit : Bool} {t : BundlerTrace} :
    (submitProtocol A b submit).phase .before t = Phase.of t := rfl

section Rules

variable {P : Protocol Op Op.Ans Phase} {ph : Phase} {ε : Type} {E : Phase → ε → Prop}

theorem obeys_await {conv : ProviderError → ε} {q : Query} {Q : Phase → q.Val → Prop}
    (ha : P.allow ph (.rpc q)) (hok : ∀ v, Q (P.next ph ⟨.rpc q, .ok v⟩) v)
    (herr : ∀ e, E (P.next ph ⟨.rpc q, .error e⟩) (conv e)) : Obeys P ph (await conv q) Q E := by
  refine ⟨ha, fun x => ?_⟩
  cases x with
  | ok v => exact hok v
  | error e => exact herr e

theorem obeys_signEip1559 {conv : SignerError → ε} {tx : TxEip1559} {Q : Phase → TxEnvelope → Prop}
    (ha : P.allow ph (.signEip1559 tx)) (hok : ∀ sig, Q (P.next ph ⟨.signEip1559 tx, .ok sig⟩) ⟨tx, sig⟩)
    (herr : ∀ e, E (P.next ph ⟨.signEip1559 tx, .error e⟩) (conv e)) :
    Obeys P ph (signEip1559 conv tx) Q E := by
  refine ⟨ha, fun x => ?_⟩
  cases x with
  | ok sig => exact hok sig
  | error e => exact herr e

end Rules

theorem buildTx_nonce {p : Prepared} {nonce : U64} {tx : TxEip1559} (h : buildTx b p nonce = .ok tx) :
    tx.nonce = nonce := by
  unfold buildTx at h
  rcases h1 : u128FromU256 p.outerFeeCap "outer maxFeePerGas" with e | cap
  · rw [h1] at h
    cases h
  rcases h2 : u128FromU256 p.outerTip "outer maxPriorityFeePerGas" with e | tip
  · rw [h1, h2] at h
    cases h
  rw [h1, h2] at h
  cases h
  rfl

/-- Where `signAndSend` can fail: at the nonce read, between it and the send, or after it. -/
def FailsUnderGuard (ph : Phase) (_ : Exit) : Prop :=
  ph = .locked ∨ (∃ n, ph = .read n) ∨ ∃ sent, ph = .answered sent

theorem obeys_signAndSend {opts : BuildOpts} {p : Prepared} (hs : opts.submit = true) :
    Obeys (submitProtocol A b true) .locked (signAndSend A b opts p) (fun ph _ => ph = .answered true)
      FailsUnderGuard := by
  unfold signAndSend rpc
  refine Obeys.bind (R := fun ph n => ph = .read n) ?_ ?_
  · exact obeys_await (Or.inl rfl) (fun n => rfl) fun e => Or.inl rfl
  rintro _ n rfl
  refine Obeys.bind (R := fun ph tx => ph = .read n ∧ tx.nonce = n) ?_ ?_
  · refine obeys_exit.2 ⟨fun tx h => ⟨rfl, ?_⟩, fun e _ => Or.inr (Or.inl ⟨n, rfl⟩)⟩
    rcases hb : buildTx b p n with e | tx'
    · rw [hb] at h
      cases h
    · rw [hb] at h
      cases h
      exact buildTx_nonce hb
  rintro _ tx ⟨rfl, hn⟩
  refine Obeys.bind (R := fun ph env => ph = .signed env) ?_ ?_
  · exact obeys_signEip1559 (Or.inl ⟨tx, rfl, hn⟩) (fun sig => rfl) fun e => Or.inr (Or.inl ⟨n, rfl⟩)
  rintro _ env rfl
  refine Obeys.bind (R := fun ph _ => ph = .answered true) ?_ fun _ _ h => h
  unfold broadcast rpc
  rw [if_pos hs]
  refine Obeys.bind (R := fun ph _ => ph = .answered true) ?_ ?_
  · exact obeys_await rfl (fun x => rfl) fun e => Or.inr (Or.inr ⟨false, rfl⟩)
  · rintro _ submitted rfl
    exact obeys_failIf rfl (Or.inr (Or.inr ⟨true, rfl⟩))

theorem obeys_awaitReceipt {opts : BuildOpts} {callData : Bytes} {hash : B256} :
    Obeys (submitProtocol A b true) (.left true) (awaitReceipt A b opts callData hash)
      (fun ph _ => ph.inside = false) fun ph _ => ph.inside = false := by
  have honly : Only Op.awaitsReceipt (awaitReceipt A b opts callData hash) := by
    unfold awaitReceipt rpc
    split
    · refine Only.bind (only_await trivial) fun receipt => ?_
      rcases receipt with - | receipt
      · exact only_fail
      simp only
      split
      · exact only_ret
      · exact Only.bind (only_await trivial) fun _ => only_fail
    · exact only_ret
  exact honly.obeys (fun o ho => ⟨⟨rfl, ho⟩, fun _ => rfl⟩) (fun _ => rfl) fun _ => rfl

/-- What a sign-only call may ask. -/
theorem only_signOnly {req : Request} (hs : req.opts.submit = false) :
    Only (Phase.allow A b false .before) (req.call A b) := by
  have hprep : Only (Phase.allow A b false .before) (prepare A b req.ops) :=
    only_prepare.mono fun o ho => Or.inl ho
  unfold Request.call buildInner signed signAndSend broadcast awaitReceipt rpc
  simp only [hs, Bool.false_eq_true, if_false]
  refine Only.bind only_exit fun _ => Only.bind hprep fun p => Only.bind ?_ fun tx => ?_
  swap
  · exact Only.bind only_ret fun _ => only_ret
  refine Only.bind (only_await (Or.inr (Or.inr ⟨rfl, Or.inl rfl⟩))) fun n => Only.bind only_exit fun tx => ?_
  refine Only.bind ⟨Or.inr (Or.inr ⟨rfl, Or.inr ⟨tx, rfl⟩⟩), fun x => ?_⟩ fun _ => Only.bind only_ret fun _ => only_ret
  cases x <;> trivial

/-- What a sign-only call may ask does not move it. -/
theorem next_before {o : Op} (ho : Phase.allow A b false .before o) (x : o.Ans) :
    Phase.next .before ⟨o, x⟩ = .before := by
  rcases ho with ho | ⟨h, -⟩ | ⟨-, rfl | ⟨tx, rfl⟩⟩
  · cases o <;> first | rfl | exact absurd ho id
  · cases h
  · rfl
  · rfl

/-- **The phases of a call**: whatever it is answered, it keeps to the protocol and ends outside
the critical section. -/
theorem obeys_call (A : Alloy) (b : Bundler) (req : Request) :
    Obeys (submitProtocol A b req.opts.submit) .before (req.call A b) (fun ph _ => ph.inside = false)
      fun ph _ => ph.inside = false := by
  cases hs : req.opts.submit with
  | false =>
    refine (only_signOnly (A := A) (b := b) hs).obeys (fun o ho => ⟨ho, next_before ho⟩) (fun _ => rfl) fun _ => rfl
  | true =>
    unfold Request.call buildInner
    refine Obeys.bind (R := fun ph _ => ph = .before) (obeys_exit.2 ⟨fun _ _ => rfl, fun _ _ => rfl⟩) ?_
    rintro _ _ rfl
    refine Obeys.bind (R := fun ph _ => ph = .before) ?_ ?_
    · refine only_prepare.obeys (fun o ho => ⟨Or.inl ho, fun x => ?_⟩) (fun _ => rfl) fun _ => rfl
      exact next_before (A := A) (b := b) (Or.inl ho) x
    rintro _ p rfl
    refine Obeys.bind (R := fun ph _ => ph = .left true) ?_ ?_
    · unfold signed
      rw [if_pos hs]
      refine Obeys.withGuard (Or.inr (Or.inl ⟨rfl, rfl⟩)) fun _ => ?_
      refine (obeys_signAndSend hs).mono ?_ ?_
      · rintro ph tx rfl
        exact ⟨rfl, fun _ => rfl⟩
      · rintro ph e (rfl | ⟨n, rfl⟩ | ⟨sent, rfl⟩)
        · exact ⟨Or.inr rfl, fun _ => rfl⟩
        · exact ⟨Or.inr rfl, fun _ => rfl⟩
        · exact ⟨rfl, fun _ => rfl⟩
    rintro _ tx rfl
    exact Obeys.bind (R := fun ph _ => ph.inside = false) obeys_awaitReceipt fun _ _ h => h

/-! ## What an answer does to a phase -/

/-- The moves of a call through its phases, with their events. -/
inductive PhaseStep (A : Alloy) (b : Bundler) (submit : Bool) : Phase → Event Op Op.Ans → Phase → Prop where
  | check (o : Op) (x : o.Ans) (ho : o.isCheck) : PhaseStep A b submit .before ⟨o, x⟩ .before
  | signOnly (o : Op) (x : o.Ans) (hs : submit = false)
    (ho : o = .rpc (.pendingNonce b.signerAddress) ∨ ∃ tx, o = .signEip1559 tx) :
    PhaseStep A b submit .before ⟨o, x⟩ .before
  | lock (hs : submit = true) : PhaseStep A b submit .before ⟨.lock, ()⟩ .locked
  | nonceRead (n : U64) : PhaseStep A b submit .locked (nonceRead b n) (.read n)
  | nonceFailed (e : ProviderError) :
    PhaseStep A b submit .locked ⟨.rpc (.pendingNonce b.signerAddress), .error e⟩ .locked
  | signed (env : TxEnvelope) : PhaseStep A b submit (.read env.tx.nonce) (signedWith env) (.signed env)
  | signFailed (tx : TxEip1559) (e : SignerError) :
    PhaseStep A b submit (.read tx.nonce) ⟨.signEip1559 tx, .error e⟩ (.read tx.nonce)
  | sent (env : TxEnvelope) (h : B256) :
    PhaseStep A b submit (.signed env) ⟨.rpc (.sendRawTransaction (A.encoded2718 env)), .ok h⟩ (.answered true)
  | sendFailed (env : TxEnvelope) (e : ProviderError) :
    PhaseStep A b submit (.signed env) ⟨.rpc (.sendRawTransaction (A.encoded2718 env)), .error e⟩ (.answered false)
  | unlock (ph : Phase) (hin : ph.inside = true) : PhaseStep A b submit ph ⟨.unlock, ()⟩ (.left ph.sent)
  | receipt (o : Op) (x : o.Ans) (ho : o.awaitsReceipt) : PhaseStep A b submit (.left true) ⟨o, x⟩ (.left true)

theorem next_step {submit : Bool} {ph : Phase} {o : Op} (ha : Phase.allow A b submit ph o) (x : o.Ans) :
    PhaseStep A b submit ph ⟨o, x⟩ (ph.next ⟨o, x⟩) := by
  cases ph with
  | before =>
    rcases ha with ha | ⟨hs, rfl⟩ | ⟨hs, ha⟩
    · rw [next_before (A := A) (b := b) (Or.inl ha) x]
      exact .check o x ha
    · exact .lock hs
    · rw [next_before (A := A) (b := b) (Or.inr (Or.inr ⟨rfl, ha⟩)) x]
      exact .signOnly o x hs ha
  | locked =>
    rcases ha with rfl | rfl
    · cases x with
      | ok n => exact .nonceRead n
      | error e => exact .nonceFailed e
    · exact .unlock .locked rfl
  | read n =>
    rcases ha with ⟨tx, rfl, rfl⟩ | rfl
    · cases x with
      | ok sig => exact .signed ⟨tx, sig⟩
      | error e => exact .signFailed tx e
    · exact .unlock (.read n) rfl
  | signed env =>
    obtain rfl := ha
    cases x with
    | ok h => exact .sent env h
    | error e => exact .sendFailed env e
  | answered sent =>
    obtain rfl := ha
    exact .unlock (.answered sent) rfl
  | left sent =>
    obtain ⟨rfl, ho⟩ := ha
    exact .receipt o x ho

section Facts

variable {submit : Bool} {ph ph' : Phase} {e : Event Op Op.Ans} {n : U64} {env : TxEnvelope} {t : BundlerTrace}

theorem Phase.inside_of_nonce (h : ph.nonce = some n) : ph.inside = true := by
  cases ph <;> first | rfl | cases h

/-- Only a nonce read gives a call a new nonce. -/
theorem PhaseStep.nonce (h : PhaseStep A b submit ph e ph') (hn : ph'.nonce = some n) :
    ph.nonce = some n ∨ e = EtheraBundler.nonceRead b n := by
  cases h with
  | nonceRead m =>
    cases hn
    exact Or.inr rfl
  | signed env => exact Or.inl hn
  | signFailed tx e => exact Or.inl hn
  | _ => cases hn

/-- Only a signature makes a call `signed`. -/
theorem PhaseStep.eq_signedWith (h : PhaseStep A b submit ph e (.signed env)) : e = signedWith env := by
  cases h
  rfl

/-- A send is of the envelope just signed. -/
theorem PhaseStep.of_send {raw : Bytes} {x : Except ProviderError B256}
    (h : PhaseStep A b submit ph ⟨.rpc (.sendRawTransaction raw), x⟩ ph') :
    ∃ env, ph = .signed env ∧ raw = A.encoded2718 env := by
  cases h with
  | check o x ho => cases ho
  | signOnly o x hs ho => rcases ho with ho | ⟨_, ho⟩ <;> cases ho
  | sent env h => exact ⟨env, rfl, rfl⟩
  | sendFailed env e => exact ⟨env, rfl, rfl⟩
  | receipt o x ho => cases ho

/-- Only an accepted send makes a call `sent`, and it stays so. -/
theorem PhaseStep.sent_iff (h : PhaseStep A b submit ph e ph') :
    ph'.sent = true ↔ ph.sent = true ∨ ∃ raw x, e = ⟨.rpc (.sendRawTransaction raw), .ok x⟩ := by
  cases h with
  | sent env x => exact iff_of_true rfl (Or.inr ⟨_, x, rfl⟩)
  | receipt o x ho => exact iff_of_true rfl (Or.inl rfl)
  | check o x ho =>
    refine iff_of_false (by simp [Phase.sent]) ?_
    rintro (h | ⟨raw, y, h⟩) <;> cases h
    exact ho
  | signOnly o x hs ho =>
    refine iff_of_false (by simp [Phase.sent]) ?_
    rintro (h | ⟨raw, y, h⟩) <;> cases h
    rcases ho with ho | ⟨_, ho⟩ <;> cases ho
  | unlock ph hin => simp [Phase.sent]
  | _ => simp [Phase.sent]

/-- The lock is taken on leaving `before`, and dropped on the way to `left`. -/
theorem PhaseStep.lock_iff (h : PhaseStep A b submit ph e ph') :
    (ph' ≠ .before ↔ ph ≠ .before ∨ e = ⟨.lock, ()⟩) ∧
      ((∃ sent, ph' = .left sent) ↔ (∃ sent, ph = .left sent) ∨ e = ⟨.unlock, ()⟩) := by
  cases h with
  | check o x ho =>
    have h1 : (⟨o, x⟩ : Event Op Op.Ans) ≠ ⟨.lock, ()⟩ := by rintro ⟨⟩; exact ho
    have h2 : (⟨o, x⟩ : Event Op Op.Ans) ≠ ⟨.unlock, ()⟩ := by rintro ⟨⟩; exact ho
    simp [h1, h2]
  | signOnly o x hs ho =>
    have h1 : (⟨o, x⟩ : Event Op Op.Ans) ≠ ⟨.lock, ()⟩ := by rintro ⟨⟩; simp at ho
    have h2 : (⟨o, x⟩ : Event Op Op.Ans) ≠ ⟨.unlock, ()⟩ := by rintro ⟨⟩; simp at ho
    simp [h1, h2]
  | unlock ph hin => cases ph <;> simp [Phase.inside] at hin ⊢
  | _ => simp

/-- Only a submit call leaves `before`. -/
theorem PhaseStep.submits (h : PhaseStep A b submit ph e ph') (hne : ph' ≠ .before) :
    ph ≠ .before ∨ submit = true := by
  cases h with
  | check o x ho => exact absurd rfl hne
  | signOnly o x hs ho => exact absurd rfl hne
  | lock hs => exact Or.inr hs
  | unlock ph hin =>
    refine Or.inl ?_
    rintro rfl
    cases hin
  | _ => exact Or.inl (by simp)

/-- What a phase says about the nonces read: none yet, the one it holds, or one spent on a send. -/
def Phase.Reads (b : Bundler) (submit : Bool) (ph : Phase) (t : BundlerTrace) : Prop :=
  match ph with
  | .before => submit = true → ∀ n, nonceRead b n ∉ t
  | .locked => ∀ n, nonceRead b n ∉ t
  | .read m => ∀ n, nonceRead b n ∈ t ↔ n = m
  | .signed env => ∀ n, nonceRead b n ∈ t ↔ n = env.tx.nonce
  | .answered _ => ∃ raw x, ⟨.rpc (.sendRawTransaction raw), x⟩ ∈ t
  | .left _ => True

theorem Phase.Reads.snoc (h : ph.Reads b submit t) (hstep : PhaseStep A b submit ph e ph') :
    ph'.Reads b submit (t ++ [e]) := by
  cases hstep with
  | check o x ho =>
    intro hs n hm
    rcases List.mem_append.1 hm with hm | hm
    · exact h hs n hm
    · cases List.mem_singleton.1 hm
      exact ho
  | signOnly o x hs ho =>
    intro hs'
    rw [hs] at hs'
    cases hs'
  | lock hs =>
    intro n hm
    exact h hs n (by simpa using hm)
  | nonceRead m =>
    intro n
    simp [h n]
  | nonceFailed e' =>
    intro n hm
    exact h n (by simpa using hm)
  | signed env =>
    intro n
    simp [h n]
  | signFailed tx e' =>
    intro n
    simp [h n]
  | sent env x => exact ⟨A.encoded2718 env, .ok x, by simp⟩
  | sendFailed env e' => exact ⟨A.encoded2718 env, .error e', by simp⟩
  | unlock ph hin => trivial
  | receipt o x ho => trivial

/-- What the history of a call says about its phase, and the other way round. -/
structure PhaseAgrees (b : Bundler) (submit : Bool) (ph : Phase) (t : BundlerTrace) : Prop where
  signed : ∀ env, ph = .signed env → signedWith env ∈ t
  sent : ph.sent = true ↔ ∃ raw x, ⟨.rpc (.sendRawTransaction raw), .ok x⟩ ∈ t
  submits : ph ≠ .before → submit = true
  entered : ph ≠ .before ↔ ⟨.lock, ()⟩ ∈ t
  exited : (∃ sent, ph = .left sent) ↔ ⟨.unlock, ()⟩ ∈ t
  reads : ph.Reads b submit t

theorem PhaseAgrees.snoc (h : PhaseAgrees b submit ph t) (hstep : PhaseStep A b submit ph e ph') :
    PhaseAgrees b submit ph' (t ++ [e]) where
  signed env henv := by
    subst henv
    rw [hstep.eq_signedWith]
    simp
  sent := by
    rw [hstep.sent_iff, h.sent]
    simp only [List.mem_append, List.mem_singleton]
    constructor
    · rintro (⟨raw, x, hm⟩ | ⟨raw, x, rfl⟩)
      · exact ⟨raw, x, Or.inl hm⟩
      · exact ⟨raw, x, Or.inr rfl⟩
    · rintro ⟨raw, x, hm | rfl⟩
      · exact Or.inl ⟨raw, x, hm⟩
      · exact Or.inr ⟨raw, x, rfl⟩
  submits hne := (hstep.submits hne).elim h.submits id
  entered := by rw [hstep.lock_iff.1, h.entered, List.mem_append, List.mem_singleton, eq_comm (a := e)]
  exited := by rw [hstep.lock_iff.2, h.exited, List.mem_append, List.mem_singleton, eq_comm (a := e)]
  reads := h.reads.snoc hstep

theorem phaseAgrees {req : Request} {q : M SignedTxResp} (h : After (req.call A b) t q) :
    PhaseAgrees b req.opts.submit (Phase.of t) t := by
  refine (obeys_call A b req).trace (I := PhaseAgrees b req.opts.submit) h ?_ ?_
  · exact ⟨fun env henv => (by cases henv), by simp [Phase.sent], by simp, by simp, by simp, fun _ n => by simp⟩
  · intro ph t o x hI ha
    exact hI.snoc (next_step ha x)

/-- Under the guard: the lock was taken and is not dropped yet. -/
theorem PhaseAgrees.inside_iff (h : PhaseAgrees b submit ph t) :
    ph.inside = true ↔ ⟨.lock, ()⟩ ∈ t ∧ ⟨.unlock, ()⟩ ∉ t := by
  rw [← h.entered, ← h.exited]
  cases ph <;> simp [Phase.inside]

/-- A nonce that was read and not spent is the one the phase holds. -/
theorem PhaseAgrees.nonce_of_read (h : PhaseAgrees b submit ph t) (hin : ph.inside = true)
    (hread : nonceRead b n ∈ t) (hsend : ∀ raw x, ⟨.rpc (.sendRawTransaction raw), x⟩ ∉ t) :
    ph.nonce = some n := by
  have hreads := h.reads
  cases ph with
  | before => cases hin
  | locked => exact absurd hread (hreads n)
  | read m => rw [(hreads n).1 hread]; rfl
  | signed env => rw [(hreads n).1 hread]; rfl
  | answered sent =>
    obtain ⟨raw, x, hm⟩ := hreads
    exact absurd hm (hsend raw x)
  | left sent => cases hin

/-- The bracket around the critical section. -/
theorem bracketed (A : Alloy) (b : Bundler) (submit : Bool) :
    Bracketed (submitProtocol A b submit) Phase.inside .lock .unlock where
  enter ph x ha := by
    cases ph with
    | before => exact ⟨rfl, rfl⟩
    | locked => rcases ha with ha | ha <;> cases ha
    | read n => rcases ha with ⟨_, ha, -⟩ | ha <;> cases ha
    | signed env => cases ha
    | answered sent => cases ha
    | left sent => exact absurd ha.2 id
  leave ph x ha := by
    cases ph with
    | before => rcases ha with ha | ⟨-, ha⟩ | ⟨-, ha | ⟨_, ha⟩⟩ <;> cases ha
    | left sent => exact absurd ha.2 id
    | signed env => cases ha
    | _ => exact ⟨rfl, rfl⟩
  stay ph o x hl hu ha := by
    have hstep := next_step ha x
    show (ph.next ⟨o, x⟩).inside = ph.inside
    generalize ph.next ⟨o, x⟩ = ph' at hstep
    cases hstep <;> first | rfl | contradiction

end Facts

/-! ## The calls of one bundler -/

section Calls

variable {ι W L E : Type} [DecidableEq ι] {R : Rules ι W L E Op Op.Ans} {w₀ : W} {req : ι → Request}
  {ok : Pool ι W Op Op.Ans Exit SignedTxResp → Label ι L E Op Op.Ans → Bool}
  {s : Pool ι W Op Op.Ans Exit SignedTxResp}

/-- Any number of calls, each with its own request. -/
def calls (A : Alloy) (b : Bundler) (req : ι → Request) : ι → M SignedTxResp := fun i => (req i).call A b

/-- The step of the phase behind an answer. -/
theorem answer_step (h : Reach R ok (.start (calls A b req) w₀) s) {i : ι} {o : Op} {k : o.Ans → M SignedTxResp}
    (hcur : (s.calls i).cur = .ask o k) (x : o.Ans) :
    PhaseStep A b (req i).opts.submit (Phase.of (s.calls i).hist) ⟨o, x⟩ ((Phase.of (s.calls i).hist).next ⟨o, x⟩) :=
  next_step (h.allowed (fun i => obeys_call A b (req i)) hcur) x

theorem phaseAgrees_of_reach (h : Reach R ok (.start (calls A b req) w₀) s) (i : ι) :
    PhaseAgrees b (req i).opts.submit (Phase.of (s.calls i).hist) (s.calls i).hist :=
  phaseAgrees (h.after i)

variable {holder : W → Option ι} (hR : Mutex R holder .lock .unlock) (hfree : holder w₀ = none)

include hR hfree

/-- **The mutex** is held by exactly the live call in its critical section. -/
theorem holder_iff_inside (h : Reach R ok (.start (calls A b req) w₀) s) (i : ι) :
    holder s.world = some i ↔ (s.calls i).dropped = false ∧ (Phase.of (s.calls i).hist).inside = true :=
  holder_iff hR (fun i => bracketed A b (req i).opts.submit) (fun i => obeys_call A b (req i)) hfree
    (fun _ => rfl) h i

/-- Two calls in the critical section are one. -/
theorem inside_unique (h : Reach R ok (.start (calls A b req) w₀) s) {i j : ι}
    (hi : (s.calls i).dropped = false) (hj : (s.calls j).dropped = false)
    (hin : (Phase.of (s.calls i).hist).inside = true) (hjn : (Phase.of (s.calls j).hist).inside = true) :
    i = j := by
  have h1 := (holder_iff_inside hR hfree h i).2 ⟨hi, hin⟩
  have h2 := (holder_iff_inside hR hfree h j).2 ⟨hj, hjn⟩
  rw [h1, Option.some.injEq] at h2
  exact h2

end Calls

/-! ## The lock -/

variable {ι : Type}

/-- `submit_lock.lock()` waits until nobody holds it; the drop of its guard frees it. -/
def lockAnswer (lock : Option ι) (i : ι) : Op → Option (Option ι)
  | .lock => if lock.isNone then some (some i) else none
  | .unlock => some none
  | _ => some lock

/-- A dropped call drops its guard. -/
def lockDrop [DecidableEq ι] (lock : Option ι) (i : ι) : Option ι := if lock = some i then none else lock

/-- Rules that move the lock as above and in no other way. -/
theorem mutex_of_lockAnswer [DecidableEq ι] {W L E : Type} {R : Rules ι W L E Op Op.Ans} {holder : W → Option ι}
    (answered : ∀ w i t o x w', R.answer w i t o x = some w' → lockAnswer (holder w) i o = some (holder w'))
    (acted : ∀ w i t o l w', R.act w i t o l = some w' → holder w' = holder w)
    (dropped : ∀ w i t o w', R.drop w i t o = some w' → holder w' = lockDrop (holder w) i)
    (moved : ∀ w e w', R.env w e = some w' → holder w' = holder w) : Mutex R holder .lock .unlock where
  acquired w i t x w' h := by
    have hlock := answered w i t _ x w' h
    simp only [lockAnswer, Option.isNone_iff_eq_none] at hlock
    split at hlock
    · rename_i hnone
      exact ⟨hnone, (Option.some.inj hlock).symm⟩
    · cases hlock
  released w i t x w' h := (Option.some.inj (answered w i t _ x w' h)).symm
  answered w i t o x w' hl hu h := by
    have hlock := answered w i t o x w' h
    unfold lockAnswer at hlock
    split at hlock
    · exact absurd rfl hl
    · exact absurd rfl hu
    · exact (Option.some.inj hlock).symm
  acted := acted
  dropped := dropped
  moved := moved

/-! ## The token and the execution layer -/

/-- What the calls of one bundler share. -/
structure Ledger (ι : Type) where
  /-- `submit_lock`: who holds it. -/
  lock : Option ι
  /-- The execution layer's pending nonce of the key. -/
  pending : Nat
  /-- The sends it accepted, in order. -/
  accepted : List (ι × Bytes)
  /-- `cancel` has fired. -/
  cancelled : Bool

def Ledger.start (n₀ : Nat) : Ledger ι := ⟨none, n₀, [], false⟩

/-- The execution layer's side of an answer. -/
def Ledger.answer (w : Ledger ι) (i : ι) (o : Op) (x : o.Ans) : Option (Ledger ι) :=
  match o, x with
  | .rpc (.pendingNonce _), .ok n => if n.toNat = w.pending then some w else none
  | .rpc (.sendRawTransaction raw), .ok _ =>
    some { w with pending := w.pending + 1, accepted := w.accepted ++ [(i, raw)] }
  | _, _ => some w

/-- A send that is accepted is recorded; any other answer changes nothing, and a nonce given out
is the pending one. -/
theorem Ledger.answer_cases {w w' : Ledger ι} {i : ι} {o : Op} {x : o.Ans} (h : w.answer i o x = some w') :
    (∃ raw y, (⟨o, x⟩ : Event Op Op.Ans) = ⟨.rpc (.sendRawTransaction raw), .ok y⟩ ∧
      w' = { w with pending := w.pending + 1, accepted := w.accepted ++ [(i, raw)] }) ∨
    ((∀ raw y, (⟨o, x⟩ : Event Op Op.Ans) ≠ ⟨.rpc (.sendRawTransaction raw), .ok y⟩) ∧ w' = w ∧
      ∀ b n, (⟨o, x⟩ : Event Op Op.Ans) = nonceRead b n → n.toNat = w.pending) := by
  unfold Ledger.answer at h
  split at h
  · rename_i addr m
    split at h <;> cases h
    rename_i hm
    refine Or.inr ⟨by simp, rfl, fun b n he => ?_⟩
    cases he
    exact hm
  · rename_i raw y
    cases h
    exact Or.inl ⟨raw, y, rfl, rfl⟩
  · rename_i hnonce hsend
    cases h
    refine Or.inr ⟨fun raw y he => ?_, rfl, fun b n he => ?_⟩
    · cases he
      exact hsend raw y rfl HEq.rfl
    · cases he
      exact absurd HEq.rfl (hnonce _ _ rfl)

def ledgerAnswer (w : Ledger ι) (i : ι) (o : Op) (x : o.Ans) : Option (Ledger ι) :=
  (lockAnswer w.lock i o).bind fun lock => { w with lock := lock }.answer i o x

theorem ledgerAnswer_lock {w w' : Ledger ι} {i : ι} {o : Op} {x : o.Ans} (h : ledgerAnswer w i o x = some w') :
    lockAnswer w.lock i o = some w'.lock := by
  obtain ⟨lock, hlock, h⟩ := Option.bind_eq_some_iff.1 h
  rcases Ledger.answer_cases h with ⟨raw, y, -, rfl⟩ | ⟨-, rfl, -⟩
  · exact hlock
  · exact hlock

theorem ledgerAnswer_cases {w w' : Ledger ι} {i : ι} {o : Op} {x : o.Ans} (h : ledgerAnswer w i o x = some w') :
    (∃ raw y, (⟨o, x⟩ : Event Op Op.Ans) = ⟨.rpc (.sendRawTransaction raw), .ok y⟩ ∧
      w'.pending = w.pending + 1 ∧ w'.accepted = w.accepted ++ [(i, raw)]) ∨
    ((∀ raw y, (⟨o, x⟩ : Event Op Op.Ans) ≠ ⟨.rpc (.sendRawTransaction raw), .ok y⟩) ∧
      w'.pending = w.pending ∧ w'.accepted = w.accepted ∧
      ∀ b n, (⟨o, x⟩ : Event Op Op.Ans) = nonceRead b n → n.toNat = w.pending) := by
  obtain ⟨lock, -, h⟩ := Option.bind_eq_some_iff.1 h
  rcases Ledger.answer_cases h with ⟨raw, y, he, rfl⟩ | ⟨hns, rfl, hread⟩
  · exact Or.inl ⟨raw, y, he, rfl, rfl⟩
  · exact Or.inr ⟨hns, rfl, rfl, hread⟩

variable [DecidableEq ι]

/-- `select!` looks at the token before it polls `build_inner` (`bundler.rs:101-105`): a fired
token drops the call before its first poll or where it is suspended. -/
def suspended (t : BundlerTrace) (o : Option Op) : Bool := t.isEmpty || o.any Op.isAwait

/-- The rules of the shared state. A fired token does not keep an answer from a call: one that is being
polled runs on until it is next suspended, and the model does not tell it from the others. So the runs
here are at least those of the code, where a suspended call of a fired token gets no further answer. -/
def ledgerRules : Rules ι (Ledger ι) Empty Unit Op Op.Ans where
  answer w i _ o x := ledgerAnswer w i o x
  act _ _ _ _ l := nomatch l
  drop w i t o :=
    if w.cancelled = true ∧ suspended t o = true then some { w with lock := lockDrop w.lock i } else none
  env w _ := some { w with cancelled := true }

/-- The calls of one bundler in one of their states. -/
abbrev SubmitPool (ι : Type) := Pool ι (Ledger ι) Op Op.Ans Exit SignedTxResp

/-- The states of all runs: any calls, any interleaving, any answers within the rules. -/
abbrev Reachable (A : Alloy) (b : Bundler) (req : ι → Request) (n₀ : Nat) : SubmitPool ι → Prop :=
  Reach ledgerRules anyStep (.start (calls A b req) (.start n₀))

/-- What the drop of a call does: it frees its lock. -/
theorem ledger_drop {w w' : Ledger ι} {i : ι} {t : BundlerTrace} {o : Option Op}
    (h : ledgerRules.drop w i t o = some w') :
    suspended t o = true ∧ w' = { w with lock := lockDrop w.lock i } := by
  simp only [ledgerRules] at h
  split at h <;> cases h
  rename_i hc
  exact ⟨hc.2, rfl⟩

theorem ledger_mutex : Mutex (ledgerRules (ι := ι)) Ledger.lock .lock .unlock := by
  refine mutex_of_lockAnswer ?_ ?_ ?_ ?_
  · intro w i t o x w' h
    exact ledgerAnswer_lock h
  · intro w i t o l
    exact nomatch l
  · intro w i t o w' h
    obtain ⟨-, rfl⟩ := ledger_drop h
    rfl
  · intro w e w' h
    cases h
    rfl

section Reachable

variable {req : ι → Request} {n₀ : Nat} {s s' : SubmitPool ι}

theorem lock_iff (h : Reachable A b req n₀ s) (i : ι) :
    s.world.lock = some i ↔ (s.calls i).dropped = false ∧ (Phase.of (s.calls i).hist).inside = true :=
  holder_iff_inside ledger_mutex rfl h i

/-! ## Nonce serialisation -/

/-- An accepted send and the envelope behind it: what `i` signed, encoded, and was answered `Ok`. -/
structure AcceptedAs (A : Alloy) (s : SubmitPool ι) (sent : ι × Bytes) (env : TxEnvelope) : Prop where
  raw : sent.2 = A.encoded2718 env
  signed : signedWith env ∈ (s.calls sent.1).hist
  answered : ∃ x, ⟨.rpc (.sendRawTransaction sent.2), .ok x⟩ ∈ (s.calls sent.1).hist

omit [DecidableEq ι] in
theorem AcceptedAs.mono {sent : ι × Bytes} {env : TxEnvelope} (h : AcceptedAs A s sent env)
    (hhist : ∀ j, (s.calls j).hist <+: (s'.calls j).hist) : AcceptedAs A s' sent env := by
  obtain ⟨x, hx⟩ := h.answered
  exact ⟨h.raw, (hhist _).subset h.signed, x, (hhist _).subset hx⟩

/-- The nonces given out so far are `n₀, n₀ + 1, …`, and whoever holds one holds the next. -/
structure Counted (A : Alloy) (n₀ : Nat) (s : SubmitPool ι) : Prop where
  pending_eq : s.world.pending = n₀ + s.world.accepted.length
  current : ∀ i n, (s.calls i).dropped = false → (Phase.of (s.calls i).hist).nonce = some n →
    n.toNat = s.world.pending
  consecutive : ∃ envs, List.Forall₂ (AcceptedAs A s) s.world.accepted envs ∧
    envs.map (·.tx.nonce.toNat) = List.range' n₀ envs.length
  recorded : ∀ i raw x, ⟨.rpc (.sendRawTransaction raw), .ok x⟩ ∈ (s.calls i).hist →
    (i, raw) ∈ s.world.accepted

omit [DecidableEq ι] in
/-- Steps that answer nobody and leave the execution layer alone. -/
theorem Counted.quiet (h : Counted A n₀ s) (hhist : ∀ j, (s'.calls j).hist = (s.calls j).hist)
    (hlive : ∀ j, (s'.calls j).dropped = false → (s.calls j).dropped = false)
    (hp : s'.world.pending = s.world.pending) (ha : s'.world.accepted = s.world.accepted) : Counted A n₀ s' where
  pending_eq := by rw [hp, ha, h.pending_eq]
  current i n hl hn := by
    rw [hhist] at hn
    rw [hp]
    exact h.current i n (hlive i hl) hn
  consecutive := by
    obtain ⟨envs, h1, h2⟩ := h.consecutive
    rw [ha]
    have hmono (j : ι) : (s.calls j).hist <+: (s'.calls j).hist := by simp only [hhist, List.prefix_rfl]
    exact ⟨envs, h1.imp fun _ _ hacc => hacc.mono hmono, h2⟩
  recorded i raw x hm := by
    rw [hhist] at hm
    rw [ha]
    exact h.recorded i raw x hm

/-- An accepted send: its nonce was the pending one, and nobody else holds a nonce. -/
theorem Counted.sent (hr : Reachable A b req n₀ s) (h : Counted A n₀ s) {i : ι} {env : TxEnvelope} {y : B256}
    {q : M SignedTxResp} {w : Ledger ι} (live : (s.calls i).dropped = false)
    (hph : Phase.of (s.calls i).hist = .signed env) (hp : w.pending = s.world.pending + 1)
    (ha : w.accepted = s.world.accepted ++ [(i, A.encoded2718 env)]) :
    Counted A n₀ (s.answered i ⟨.rpc (.sendRawTransaction (A.encoded2718 env)), .ok y⟩ q w) := by
  have hmono (j : ι) := s.answered_hist_prefix ⟨.rpc (.sendRawTransaction (A.encoded2718 env)), .ok y⟩ q w i j
  have hn : (Phase.of (s.calls i).hist).nonce = some env.tx.nonce := by rw [hph]; rfl
  have hcur := h.current i _ live hn
  obtain ⟨envs, hall, hnonces⟩ := h.consecutive
  have hlen : s.world.accepted.length = envs.length := hall.length_eq
  refine ⟨?_, fun j n hl hj => ?_, ⟨envs ++ [env], ?_, ?_⟩, fun j raw z hm => ?_⟩
  · rw [Pool.answered_world, hp, ha, h.pending_eq, List.length_append]
    simp only [List.length_cons, List.length_nil]
    omega
  · exfalso
    by_cases hji : j = i
    · subst hji
      rw [Pool.answered_self, Phase.of_snoc, hph] at hj
      cases hj
    · rw [Pool.answered_of_ne _ _ _ _ hji] at hj hl
      exact hji (inside_unique ledger_mutex rfl hr hl live (Phase.inside_of_nonce hj) (Phase.inside_of_nonce hn))
  · rw [Pool.answered_world, ha]
    refine List.rel_append (hall.imp fun _ _ hacc => hacc.mono hmono) (.cons ⟨rfl, ?_, y, ?_⟩ .nil)
    · exact (hmono i).subset ((phaseAgrees_of_reach hr i).signed env hph)
    · rw [Pool.answered_self]
      simp
  · rw [List.map_append, hnonces, List.length_append, List.length_singleton, List.range'_1_concat]
    rw [List.map_singleton, hcur, h.pending_eq, hlen]
  · rw [Pool.answered_world, ha]
    by_cases hji : j = i
    · subst hji
      rw [Pool.answered_self] at hm
      rcases List.mem_append.1 hm with hm | hm
      · exact List.mem_append_left _ (h.recorded j raw z hm)
      · cases List.mem_singleton.1 hm
        simp
    · rw [Pool.answered_of_ne _ _ _ _ hji] at hm
      exact List.mem_append_left _ (h.recorded j raw z hm)

/-- Any other answer: a nonce given out is the pending one. -/
theorem Counted.kept (h : Counted A n₀ s) {i : ι} {e : Event Op Op.Ans} {q : M SignedTxResp} {w : Ledger ι}
    (live : (s.calls i).dropped = false)
    (hnonce : ∀ n, ((Phase.of (s.calls i).hist).next e).nonce = some n →
      (Phase.of (s.calls i).hist).nonce = some n ∨ n.toNat = s.world.pending)
    (hns : ∀ raw y, e ≠ ⟨.rpc (.sendRawTransaction raw), .ok y⟩) (hp : w.pending = s.world.pending)
    (ha : w.accepted = s.world.accepted) : Counted A n₀ (s.answered i e q w) := by
  have hmono (j : ι) := s.answered_hist_prefix e q w i j
  obtain ⟨envs, hall, hnonces⟩ := h.consecutive
  refine ⟨?_, fun j n hl hj => ?_, ⟨envs, ?_, hnonces⟩, fun j raw z hm => ?_⟩
  · rw [Pool.answered_world, hp, ha, h.pending_eq]
  · rw [Pool.answered_world, hp]
    by_cases hji : j = i
    · subst hji
      rw [Pool.answered_self, Phase.of_snoc] at hj
      rcases hnonce n hj with hj | hn
      · exact h.current j n live hj
      · exact hn
    · rw [Pool.answered_of_ne _ _ _ _ hji] at hj hl
      exact h.current j n hl hj
  · rw [Pool.answered_world, ha]
    exact hall.imp fun _ _ hacc => hacc.mono hmono
  · rw [Pool.answered_world, ha]
    by_cases hji : j = i
    · subst hji
      rw [Pool.answered_self] at hm
      rcases List.mem_append.1 hm with hm | hm
      · exact h.recorded j raw z hm
      · exact absurd (List.mem_singleton.1 hm).symm (hns raw z)
    · rw [Pool.answered_of_ne _ _ _ _ hji] at hm
      exact h.recorded j raw z hm

/-- One answer. -/
theorem Counted.answered (hr : Reachable A b req n₀ s) (h : Counted A n₀ s) {i : ι} {o : Op}
    {k : o.Ans → M SignedTxResp} {x : o.Ans} {w : Ledger ι} (live : (s.calls i).dropped = false)
    (hcur : (s.calls i).cur = .ask o k) (hw : ledgerAnswer s.world i o x = some w) :
    Counted A n₀ (s.answered i ⟨o, x⟩ (k x) w) := by
  have hstep := answer_step hr hcur x
  rcases ledgerAnswer_cases hw with ⟨raw, y, he, hp, ha⟩ | ⟨hns, hp, ha, hread⟩
  · cases he
    obtain ⟨env, hph, rfl⟩ := hstep.of_send
    exact h.sent hr live hph hp ha
  · refine h.kept live (fun n hn => ?_) hns hp ha
    rcases hstep.nonce hn with hn | he
    · exact Or.inl hn
    · exact Or.inr (hread b n he)

theorem counted (h : Reachable A b req n₀ s) : Counted A n₀ s := by
  refine h.inv (I := Counted A n₀) ?_ ?_
  · refine ⟨rfl, fun i n _ hn => (by cases hn), ⟨[], .nil, rfl⟩, fun i raw x hm => (by cases hm)⟩
  · intro s s' l hr _ hm hI
    cases hm with
    | answer i f o k w live hcur hw => exact hI.answered hr live hcur hw
    | act i l => exact nomatch l
    | drop i w live hw =>
      obtain ⟨-, rfl⟩ := ledger_drop hw
      exact hI.quiet (fun j => Pool.cut_hist ..) (fun j => Pool.live_of_cut) rfl rfl
    | env e w hw =>
      cases hw
      exact hI.quiet (fun _ => rfl) (fun _ hj => hj) rfl rfl

/-- Whatever was accepted was some call's signed envelope. -/
theorem exists_acceptedAs (h : Reachable A b req n₀ s) {sent : ι × Bytes} (hm : sent ∈ s.world.accepted) :
    ∃ env, AcceptedAs A s sent env := by
  obtain ⟨envs, hall, -⟩ := (counted h).consecutive
  obtain ⟨i, hi, rfl⟩ := List.getElem_of_mem hm
  exact ⟨_, hall.get hi (hall.length_eq ▸ hi)⟩

/-- Call `i` is under way in the critical section: it has taken the lock and not dropped it. -/
def Inside (s : SubmitPool ι) (i : ι) : Prop :=
  (s.calls i).dropped = false ∧ ⟨.lock, ()⟩ ∈ (s.calls i).hist ∧ ⟨.unlock, ()⟩ ∉ (s.calls i).hist

theorem inside_iff (h : Reachable A b req n₀ s) (i : ι) :
    Inside s i ↔ (s.calls i).dropped = false ∧ (Phase.of (s.calls i).hist).inside = true := by
  rw [(phaseAgrees_of_reach h i).inside_iff]
  rfl

/-- What holds of the calls, the lock and the execution layer at any time. -/
structure Serialised (A : Alloy) (b : Bundler) (n₀ : Nat) (s : SubmitPool ι) : Prop where
  exclusive : ∀ i j, Inside s i → Inside s j → i = j
  locked : ∀ i, s.world.lock = some i ↔ Inside s i
  /-- A nonce read under the lock and not yet spent on a send is the execution layer's. -/
  current : ∀ i n, Inside s i → nonceRead b n ∈ (s.calls i).hist →
    (∀ raw x, ⟨.rpc (.sendRawTransaction raw), x⟩ ∉ (s.calls i).hist) → n.toNat = s.world.pending
  /-- The accepted transactions, in order, carry `n₀, n₀ + 1, …`. -/
  consecutive : ∃ envs, List.Forall₂ (AcceptedAs A s) s.world.accepted envs ∧
    envs.map (·.tx.nonce.toNat) = List.range' n₀ envs.length
  /-- Every `Ok` a call got for a send is one of them, and nothing else moves the counter. -/
  recorded : ∀ i raw x, ⟨.rpc (.sendRawTransaction raw), .ok x⟩ ∈ (s.calls i).hist →
    (i, raw) ∈ s.world.accepted
  pending_eq : s.world.pending = n₀ + s.world.accepted.length
  /-- An ended call, whatever its exit, is out. -/
  ended : ∀ i r, (s.calls i).cur = Prog.exit r → ¬ Inside s i

theorem serialised (h : Reachable A b req n₀ s) : Serialised A b n₀ s where
  exclusive i j hi hj := by
    rw [inside_iff h] at hi hj
    exact inside_unique ledger_mutex rfl h hi.1 hj.1 hi.2 hj.2
  locked i := by rw [inside_iff h, lock_iff h]
  current i n hi hread hsend := by
    rw [inside_iff h] at hi
    exact (counted h).current i n hi.1 ((phaseAgrees_of_reach h i).nonce_of_read hi.2 hread hsend)
  consecutive := (counted h).consecutive
  recorded := (counted h).recorded
  pending_eq := (counted h).pending_eq
  ended i r hcur hi := by
    rw [inside_iff h] at hi
    obtain ⟨h1, h2⟩ := h.ended (fun i => obeys_call A b (req i)) hcur
    have hout : (Phase.of (s.calls i).hist).inside = false := by
      cases r with
      | ok a => exact h1 a rfl
      | error e => exact h2 e rfl
    rw [hi.2] at hout
    cases hout

/-- An answer that takes a call out of the section is not an accepted send. -/
theorem pending_of_leave (h : Reachable A b req n₀ s) {i : ι} {o : Op} {k : o.Ans → M SignedTxResp}
    {x : o.Ans} {w : Ledger ι} (hcur : (s.calls i).cur = .ask o k)
    (hw : ledgerAnswer s.world i o x = some w)
    (hout : ((Phase.of (s.calls i).hist).next ⟨o, x⟩).inside = false) : w.pending = s.world.pending := by
  have hstep := answer_step h hcur x
  rcases ledgerAnswer_cases hw with ⟨raw, y, he, -, -⟩ | ⟨-, hp, -, -⟩
  · cases he
    obtain ⟨env, hph, -⟩ := hstep.of_send
    rw [hph] at hout
    cases hout
  · exact hp

/-- **Nonce serialisation.** In every run of any number of calls of either mode, with any answer
failing at any time: the calls, the lock and the execution layer are in step in every state, and
a step that takes a call out of the critical section, on whichever path, leaves the lock free
and the counter where the accepted sends put it. -/
theorem submits_serialised (A : Alloy) (b : Bundler) (req : ι → Request) (n₀ : Nat) (s : SubmitPool ι)
    (h : Reachable A b req n₀ s) :
    Serialised A b n₀ s ∧
      ∀ l s', ledgerRules.step s l = some s' → ∀ i, Inside s i → ¬ Inside s' i →
        s'.world.lock = none ∧ s'.world.pending = s.world.pending := by
  refine ⟨serialised h, fun l s' hs i hi hout => ?_⟩
  have h' : Reachable A b req n₀ s' := .step l h rfl hs
  have hm := step_moves hs
  rw [inside_iff h] at hi
  rw [inside_iff h'] at hout
  have hne : s'.calls i ≠ s.calls i := by
    intro heq
    rw [heq] at hout
    exact hout hi
  refine ⟨?_, ?_⟩
  · -- only call `i` changed: another holder after the step would be a second one before it
    rcases hl : s'.world.lock with - | j
    · rfl
    have hj := (lock_iff h' j).1 hl
    by_cases hji : j = i
    · subst hji
      exact absurd hj hout
    · rw [hm.calls_eq hne hji] at hj
      exact absurd (inside_unique ledger_mutex rfl h hj.1 hi.1 hj.2 hi.2) hji
  · cases hm with
    | answer i' f o k w live hcur hw =>
      obtain rfl : i = i' := by
        by_contra hii
        exact hne (Pool.answered_of_ne _ _ _ _ hii)
      rw [Pool.answered_self, Phase.of_snoc] at hout
      exact pending_of_leave h hcur hw (by simpa [live] using hout)
    | act i' l => exact nomatch l
    | drop i' w live hw =>
      obtain ⟨-, rfl⟩ := ledger_drop hw
      rfl
    | env e w hw =>
      cases hw
      rfl

end Reachable

/-- Three calls: two submits and one sign-only, each of the same single op. -/
def threeCalls : Fin 3 → Request
  | 0 | 1 => ⟨[happyOp], submitOpts⟩
  | 2 => ⟨[happyOp], { submitOpts with submit := false }⟩

/-- The mock node with its pending nonce at `n`. -/
def mockAnswerAt (n : U64) : (o : Op) → o.Ans
  | .rpc (.pendingNonce _) => .ok n
  | o => mockAnswer o

/-- The first submit up to its receipt, the sign-only call in full with the nonce in between, then
the second submit. -/
def threeCallsRun : List (Label (Fin 3) Empty Unit Op Op.Ans) :=
  List.replicate 9 (.answer 0 (mockAnswerAt 7)) ++ List.replicate 9 (.answer 2 (mockAnswerAt 7)) ++
    List.replicate 4 (.answer 0 (mockAnswerAt 7)) ++ List.replicate 13 (.answer 1 (mockAnswerAt 8))

/-- Two accepted sends, and they carry 7 and 8. -/
theorem submits_serialised_threeCalls : ∃ s : SubmitPool (Fin 3), Reachable alloy testBundler threeCalls 7 s ∧
    s.world.accepted.length = 2 ∧ ∃ envs, List.Forall₂ (AcceptedAs alloy s) s.world.accepted envs ∧
      envs.map (·.tx.nonce.toNat) = [7, 8] := by
  obtain ⟨s, hs, hp⟩ := exists_reach_of_run ledgerRules anyStep
    (.start (calls alloy testBundler threeCalls) (.start 7)) threeCallsRun
    (fun s => s.world.accepted.length == 2) (by decide)
  have hlen : s.world.accepted.length = 2 := by simpa using hp
  obtain ⟨envs, hall, hnonces⟩ := (submits_serialised alloy testBundler threeCalls 7 s hs).1.consecutive
  refine ⟨s, hs, hlen, envs, hall, ?_⟩
  rw [hnonces, ← hall.length_eq, hlen]
  rfl

end EtheraBundler

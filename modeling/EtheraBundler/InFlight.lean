import EtheraBundler.SubmitLock
/-!
# Sends in flight

The same calls and the same lock, with the execution layer a party of its own: a request leaves a
call at its `send_raw_transaction` (`provider.rs:222-229`), is processed or lost at any later
time, and the call may get a transport error or be dropped by its caller meanwhile. Either one
gives the lock back while the request is under way.

* `Net`, `netRules` — the requests in flight and the ones delivered.
* `NonceHeld` — what keeps the nonces apart, kept by every step that reads no nonce in flight.
* `nonces_apart` — **no nonce is delivered for two calls** in the runs in which no submit-mode
  call reads a nonce that another call has in flight.
* `nonce_delivered_twice` — in the other runs one can be.
-/

namespace EtheraBundler

open Interact

variable {A : Alloy} {b : Bundler} {ι : Type}

/-! ## The network -/

/-- An `eth_sendRawTransaction` request: whose it is, its bytes, and what they encode. -/
structure Msg (ι : Type) where
  sender : ι
  raw : Bytes
  env : TxEnvelope

abbrev Msg.nonce (m : Msg ι) : U64 := m.env.tx.nonce

/-- What the calls share: the lock, the requests, and the execution layer's pending nonce. -/
structure Net (ι : Type) where
  lock : Option ι
  pending : Nat
  inflight : List (Msg ι)
  /-- The requests the execution layer has processed, in order. -/
  delivered : List (Msg ι)

def Net.start (n₀ : Nat) : Net ι := ⟨none, n₀, [], []⟩

def Net.msgs (w : Net ι) : List (Msg ι) := w.inflight ++ w.delivered

inductive NetEvent where
  /-- The execution layer processes the `k`-th request in flight. -/
  | deliver (k : Nat)
  /-- The `k`-th request in flight is lost, or refused. -/
  | lose (k : Nat)

/-- Only a transaction at the pending nonce raises it. -/
def Net.deliver (w : Net ι) (k : Nat) (m : Msg ι) : Net ι :=
  { w with
    pending := if m.nonce.toNat = w.pending then w.pending + 1 else w.pending
    inflight := w.inflight.eraseIdx k
    delivered := w.delivered ++ [m] }

variable [DecidableEq ι]

/-- The execution layer's side of an answer: an `Ok` comes from it, an error may come at any time. -/
def Net.answer (w : Net ι) (i : ι) (o : Op) (x : o.Ans) : Option (Net ι) :=
  match o, x with
  | .rpc (.pendingNonce _), .ok n => if n.toNat = w.pending then some w else none
  | .rpc (.sendRawTransaction _), .ok _ => if w.delivered.any fun m => m.sender = i then some w else none
  | _, _ => some w

def netAnswer (w : Net ι) (i : ι) (o : Op) (x : o.Ans) : Option (Net ι) :=
  (lockAnswer w.lock i o).bind fun lock => { w with lock := lock }.answer i o x

def netRules : Rules ι (Net ι) Unit NetEvent Op Op.Ans where
  answer w i _ o x := netAnswer w i o x
  -- the request of a pending send leaves, perhaps more than once
  act w i t o _ :=
    match o, Phase.of t with
    | .rpc (.sendRawTransaction raw), .signed env => some { w with inflight := w.inflight ++ [⟨i, raw, env⟩] }
    | _, _ => none
  drop w i t o :=
    if suspended t o = true then some { w with lock := lockDrop w.lock i } else none
  env w
    | .deliver k => w.inflight[k]?.map (w.deliver k)
    | .lose k => w.inflight[k]?.map fun _ => { w with inflight := w.inflight.eraseIdx k }

/-- The calls of one bundler, their requests and the execution layer. -/
abbrev NetPool (ι : Type) := Pool ι (Net ι) Op Op.Ans Exit SignedTxResp

/-- An answer changes nothing but the lock, and a nonce given out is the pending one. -/
theorem Net.answer_some {w w' : Net ι} {i : ι} {o : Op} {x : o.Ans} (h : w.answer i o x = some w') :
    w' = w ∧ ∀ b n, (⟨o, x⟩ : Event Op Op.Ans) = nonceRead b n → n.toNat = w.pending := by
  unfold Net.answer at h
  split at h
  · split at h <;> cases h
    rename_i hm
    refine ⟨rfl, fun b n he => ?_⟩
    cases he
    exact hm
  · split at h <;> cases h
    exact ⟨rfl, by simp⟩
  · rename_i hnonce hsend
    cases h
    refine ⟨rfl, fun b n he => ?_⟩
    cases he
    exact absurd HEq.rfl (hnonce _ _ rfl)

theorem netAnswer_some {w w' : Net ι} {i : ι} {o : Op} {x : o.Ans} (h : netAnswer w i o x = some w') :
    lockAnswer w.lock i o = some w'.lock ∧ w' = { w with lock := w'.lock } ∧
      ∀ b n, (⟨o, x⟩ : Event Op Op.Ans) = nonceRead b n → n.toNat = w.pending := by
  obtain ⟨lock, hlock, h⟩ := Option.bind_eq_some_iff.1 h
  obtain ⟨rfl, hread⟩ := Net.answer_some h
  exact ⟨hlock, rfl, hread⟩

/-- What the drop of a call does: it frees its lock, and leaves its request alone. -/
theorem net_drop {w w' : Net ι} {i : ι} {t : BundlerTrace} {o : Option Op} (h : netRules.drop w i t o = some w') :
    w' = { w with lock := lockDrop w.lock i } := by
  simp only [netRules] at h
  split at h <;> cases h
  rfl

/-- A request leaves from a signed call, as its envelope's bytes or whatever the call asked to send. -/
theorem netAct_some {w w' : Net ι} {i : ι} {t : BundlerTrace} {o : Op} (h : netRules.act w i t o () = some w') :
    ∃ raw env, o = .rpc (.sendRawTransaction raw) ∧ Phase.of t = .signed env ∧
      w' = { w with inflight := w.inflight ++ [⟨i, raw, env⟩] } := by
  simp only [netRules] at h
  split at h
  · rename_i raw env hph
    cases h
    exact ⟨raw, env, rfl, hph, rfl⟩
  · cases h

/-- What the network does on its own: the requests under way get fewer, or are processed. -/
theorem netEnv_some {w w' : Net ι} {e : NetEvent} (h : netRules.env w e = some w') :
    (∃ k m, w.inflight[k]? = some m ∧ w' = w.deliver k m) ∨
      ∃ k, w' = { w with inflight := w.inflight.eraseIdx k } := by
  cases e with
  | deliver k =>
    obtain ⟨m, hm, rfl⟩ := Option.map_eq_some_iff.1 h
    exact Or.inl ⟨k, m, hm, rfl⟩
  | lose k =>
    obtain ⟨m, -, rfl⟩ := Option.map_eq_some_iff.1 h
    exact Or.inr ⟨k, rfl⟩

theorem net_mutex : Mutex (netRules (ι := ι)) Net.lock .lock .unlock := by
  refine mutex_of_lockAnswer ?_ ?_ ?_ ?_
  · intro w i t o x w' h
    exact (netAnswer_some h).1
  · intro w i t o l w' h
    obtain ⟨raw, env, -, -, rfl⟩ := netAct_some h
    rfl
  · intro w i t o w' h
    rw [net_drop h]
  · intro w e w' h
    rcases netEnv_some h with ⟨k, m, -, rfl⟩ | ⟨k, rfl⟩
    · rfl
    · rfl

omit [DecidableEq ι] in
theorem mem_msgs_deliver {w : Net ι} {k : Nat} {m m' : Msg ι} (hk : w.inflight[k]? = some m)
    (h : m' ∈ (w.deliver k m).msgs) : m' ∈ w.msgs := by
  simp only [Net.msgs, Net.deliver, List.mem_append, List.mem_singleton] at h ⊢
  rcases h with h | h | rfl
  · exact Or.inl (List.mem_of_mem_eraseIdx h)
  · exact Or.inr h
  · exact Or.inl (List.mem_of_getElem? hk)

/-! ## What keeps the nonces apart -/

/-- Delivered for two different calls, two transactions differ in their nonces. -/
def NoncesApart (s : NetPool ι) : Prop :=
  ∀ m ∈ s.world.delivered, ∀ m' ∈ s.world.delivered, m.sender ≠ m'.sender → m.nonce ≠ m'.nonce

/-- A submit-mode call is told no nonce that another call has in flight. -/
def readsSettled (req : ι → Request) (s : NetPool ι) : Label ι Unit NetEvent Op Op.Ans → Bool
  | .answer i f =>
    match (s.calls i).cur with
    | .ask (.rpc (.pendingNonce addr)) _ =>
      match f (.rpc (.pendingNonce addr)) with
      | .ok n => !(req i).opts.submit || s.world.inflight.all fun m => m.sender = i || m.nonce != n
      | .error _ => true
    | _ => true
  | _ => true

variable {req : ι → Request} {n₀ : Nat} {s s' : NetPool ι}

theorem readsSettled_read {i : ι} {f : (o : Op) → o.Ans} {o : Op} {k : o.Ans → M SignedTxResp} {n : U64}
    (hok : readsSettled req s (.answer i f) = true) (hs : (req i).opts.submit = true)
    (hcur : (s.calls i).cur = .ask o k) (he : (⟨o, f o⟩ : Event Op Op.Ans) = nonceRead b n) :
    ∀ m ∈ s.world.inflight, m.sender ≠ i → m.nonce ≠ n := by
  obtain rfl : o = .rpc (.pendingNonce b.signerAddress) := congrArg Sigma.fst he
  have hf : f (.rpc (.pendingNonce b.signerAddress)) = .ok n := eq_of_heq (Sigma.mk.inj he).2
  intro m hm hne
  simp only [readsSettled, hcur, hf, hs, Bool.not_true, Bool.false_or, List.all_eq_true, Bool.or_eq_true,
    decide_eq_true_eq, bne_iff_ne] at hok
  rcases hok m hm with h | h
  · exact absurd h hne
  · exact h

/-- The states of the runs whose steps satisfy `ok`. -/
abbrev NetReachable (A : Alloy) (b : Bundler) (req : ι → Request) (n₀ : Nat)
    (ok : NetPool ι → Label ι Unit NetEvent Op Op.Ans → Bool) : NetPool ι → Prop :=
  Reach netRules ok (.start (calls A b req) (.start n₀))

/-- Nonces under way were reached, nonces delivered were passed, and nobody's nonce is another's. -/
structure NoncesHeld (s : NetPool ι) : Prop where
  spent : ∀ m ∈ s.world.delivered, m.nonce.toNat < s.world.pending
  reached : ∀ m ∈ s.world.inflight, m.nonce.toNat ≤ s.world.pending
  apart : ∀ m ∈ s.world.msgs, ∀ m' ∈ s.world.msgs, m.sender ≠ m'.sender → m.nonce ≠ m'.nonce
  held : ∀ i n, (s.calls i).dropped = false → (Phase.of (s.calls i).hist).nonce = some n →
    n.toNat ≤ s.world.pending ∧ ∀ m ∈ s.world.msgs, m.sender ≠ i → m.nonce ≠ n

omit [DecidableEq ι] in
/-- Steps that answer nobody and send nothing. -/
theorem NoncesHeld.quiet (h : NoncesHeld s) (hhist : ∀ j, (s'.calls j).hist = (s.calls j).hist)
    (hlive : ∀ j, (s'.calls j).dropped = false → (s.calls j).dropped = false)
    (hspent : ∀ m ∈ s'.world.delivered, m.nonce.toNat < s'.world.pending)
    (hp : s.world.pending ≤ s'.world.pending) (hin : ∀ m ∈ s'.world.inflight, m ∈ s.world.inflight)
    (hmsgs : ∀ m ∈ s'.world.msgs, m ∈ s.world.msgs) : NoncesHeld s' where
  spent := hspent
  reached m hm := Nat.le_trans (h.reached m (hin m hm)) hp
  apart m hm m' hm' := h.apart m (hmsgs m hm) m' (hmsgs m' hm')
  held i n hl hn := by
    rw [hhist] at hn
    obtain ⟨h1, h2⟩ := h.held i n (hlive i hl) hn
    exact ⟨Nat.le_trans h1 hp, fun m hm => h2 m (hmsgs m hm)⟩

/-- One answer: a nonce read is in nobody's flight, and has not been passed. -/
theorem NoncesHeld.answered (hr : NetReachable A b req n₀ (readsSettled req) s) (h : NoncesHeld s) {i : ι}
    {f : (o : Op) → o.Ans} {o : Op} {k : o.Ans → M SignedTxResp} {w : Net ι}
    (hok : readsSettled req s (.answer i f) = true) (live : (s.calls i).dropped = false)
    (hcur : (s.calls i).cur = .ask o k) (hw : netAnswer s.world i o (f o) = some w) :
    NoncesHeld (s.answered i ⟨o, f o⟩ (k (f o)) w) := by
  obtain ⟨-, hw', hread⟩ := netAnswer_some hw
  have hp : w.pending = s.world.pending := by rw [hw']
  have hi : w.inflight = s.world.inflight := by rw [hw']
  have hd : w.delivered = s.world.delivered := by rw [hw']
  have hmsgs : w.msgs = s.world.msgs := by rw [hw']; rfl
  refine ⟨?_, ?_, ?_, fun j n hl hn => ?_⟩
  · rw [Pool.answered_world, hd, hp]
    exact h.spent
  · rw [Pool.answered_world, hi, hp]
    exact h.reached
  · rw [Pool.answered_world, hmsgs]
    exact h.apart
  rw [Pool.answered_world, hmsgs, hp]
  by_cases hji : j = i
  · subst hji
    rw [Pool.answered_self, Phase.of_snoc] at hn
    have hstep := answer_step hr hcur (f o)
    rcases hstep.nonce hn with hn' | he
    · exact h.held j n live hn'
    · have hpend := hread b n he
      refine ⟨Nat.le_of_eq hpend, fun m hm hne => ?_⟩
      rcases List.mem_append.1 hm with hm | hm
      · have hagrees := (phaseAgrees_of_reach hr j).snoc hstep
        refine readsSettled_read hok (hagrees.submits ?_) hcur he m hm hne
        intro hbefore
        rw [hbefore] at hn
        cases hn
      · rintro rfl
        exact absurd (h.spent m hm) (by omega)
  · rw [Pool.answered_of_ne _ _ _ _ hji] at hl hn
    exact h.held j n hl hn

/-- One request: its nonce was held, so nobody else's request has it; and nobody else holds one. -/
theorem NoncesHeld.issued (hr : NetReachable A b req n₀ (readsSettled req) s) (h : NoncesHeld s) {i : ι}
    {raw : Bytes} {env : TxEnvelope} (live : (s.calls i).dropped = false)
    (hph : Phase.of (s.calls i).hist = .signed env) :
    NoncesHeld { s with world := { s.world with inflight := s.world.inflight ++ [⟨i, raw, env⟩] } } := by
  have hn : (Phase.of (s.calls i).hist).nonce = some env.tx.nonce := by rw [hph]; rfl
  obtain ⟨hle, hother⟩ := h.held i _ live hn
  have hmem (m : Msg ι) (hm : m ∈ (s.world.inflight ++ [⟨i, raw, env⟩]) ++ s.world.delivered) :
      m ∈ s.world.msgs ∨ m = ⟨i, raw, env⟩ := by
    simp only [List.mem_append, List.mem_singleton] at hm
    rcases hm with (hm | hm) | hm
    · exact Or.inl (List.mem_append_left _ hm)
    · exact Or.inr hm
    · exact Or.inl (List.mem_append_right _ hm)
  refine ⟨h.spent, fun m hm => ?_, fun m hm m' hm' hne => ?_, fun j n hl hj => ?_⟩
  · rcases List.mem_append.1 hm with hm | hm
    · exact h.reached m hm
    · cases List.mem_singleton.1 hm
      exact hle
  · rcases hmem m hm with hm | rfl
    · rcases hmem m' hm' with hm' | rfl
      · exact h.apart m hm m' hm' hne
      · exact hother m hm hne
    · rcases hmem m' hm' with hm' | rfl
      · exact (hother m' hm' (Ne.symm hne)).symm
      · exact absurd rfl hne
  · have hji : j = i := inside_unique net_mutex rfl hr hl live (Phase.inside_of_nonce hj) (Phase.inside_of_nonce hn)
    subst hji
    obtain ⟨h1, h2⟩ := h.held j n hl hj
    refine ⟨h1, fun m hm hne => ?_⟩
    rcases hmem m hm with hm | rfl
    · exact h2 m hm hne
    · exact absurd rfl hne

omit [DecidableEq ι] in
/-- One request processed: it is at the pending nonce or below it, and ends below it. -/
theorem NoncesHeld.delivered (h : NoncesHeld s) {k : Nat} {m : Msg ι} (hk : s.world.inflight[k]? = some m) :
    NoncesHeld { s with world := s.world.deliver k m } := by
  have hp : s.world.pending ≤ (s.world.deliver k m).pending := by
    simp only [Net.deliver]
    split <;> omega
  refine h.quiet (fun _ => rfl) (fun _ hl => hl) (fun m' hm' => ?_) hp
    (fun m' hm' => List.mem_of_mem_eraseIdx hm') fun m' hm' => mem_msgs_deliver hk hm'
  rcases List.mem_append.1 hm' with hm' | hm'
  · exact Nat.lt_of_lt_of_le (h.spent m' hm') hp
  · cases List.mem_singleton.1 hm'
    have hle := h.reached m (List.mem_of_getElem? hk)
    simp only [Net.deliver]
    split <;> omega

theorem noncesHeld (h : NetReachable A b req n₀ (readsSettled req) s) : NoncesHeld s := by
  refine h.inv (I := NoncesHeld) ?_ ?_
  · refine ⟨fun m hm => (by cases hm), fun m hm => (by cases hm), fun m hm => (by cases hm), ?_⟩
    intro i n _ hn
    cases hn
  · intro s s' l hr hok hm hI
    cases hm with
    | answer i f o k w live hcur hw => exact hI.answered hr hok live hcur hw
    | act i l o k w live hcur hw =>
      obtain ⟨raw, env, rfl, hph, rfl⟩ := netAct_some hw
      exact hI.issued hr live hph
    | drop i w live hw =>
      rw [net_drop hw]
      exact hI.quiet (fun j => Pool.cut_hist ..) (fun j => Pool.live_of_cut) hI.spent (Nat.le_refl _)
        (fun _ hm => hm) fun _ hm => hm
    | env e w hw =>
      rcases netEnv_some hw with ⟨k, m, hk, rfl⟩ | ⟨k, rfl⟩
      · exact hI.delivered hk
      · refine hI.quiet (fun _ => rfl) (fun _ hl => hl) hI.spent (Nat.le_refl _)
          (fun m hm => List.mem_of_mem_eraseIdx hm) fun m hm => ?_
        rcases List.mem_append.1 hm with hm | hm
        · exact List.mem_append_left _ (List.mem_of_mem_eraseIdx hm)
        · exact List.mem_append_right _ hm

/-! ## Whose requests they are -/

/-- Every request carries the bytes of an envelope its sender signed. -/
theorem msgs_signed {ok : NetPool ι → Label ι Unit NetEvent Op Op.Ans → Bool} (h : NetReachable A b req n₀ ok s) :
    ∀ m ∈ s.world.msgs, m.raw = A.encoded2718 m.env ∧ signedWith m.env ∈ (s.calls m.sender).hist := by
  refine h.inv (I := fun s => ∀ m ∈ s.world.msgs, m.raw = A.encoded2718 m.env ∧
    signedWith m.env ∈ (s.calls m.sender).hist) ?_ ?_
  · intro m hm
    cases hm
  · intro s s' l hr _ hstep hI
    cases hstep with
    | answer i f o k w live hcur hw =>
      obtain ⟨-, hw', -⟩ := netAnswer_some hw
      intro m hm
      rw [Pool.answered_world, hw'] at hm
      obtain ⟨h1, h2⟩ := hI m hm
      exact ⟨h1, (s.answered_hist_prefix _ _ w i m.sender).subset h2⟩
    | act i l o k w live hcur hw =>
      obtain ⟨raw, env, rfl, hph, rfl⟩ := netAct_some hw
      have ha := hr.allowed (fun i => obeys_call A b (req i)) hcur
      rw [submitProtocol_phase, hph] at ha
      cases ha
      intro m hm
      simp only [Net.msgs, List.mem_append, List.mem_singleton] at hm
      rcases hm with (hm | rfl) | hm
      · exact hI m (List.mem_append_left _ hm)
      · exact ⟨rfl, (phaseAgrees_of_reach hr i).signed env hph⟩
      · exact hI m (List.mem_append_right _ hm)
    | drop i w live hw =>
      rw [net_drop hw]
      intro m hm
      rw [Pool.cut_hist]
      exact hI m hm
    | env e w hw =>
      rcases netEnv_some hw with ⟨k, m, hk, rfl⟩ | ⟨k, rfl⟩
      · exact fun m' hm' => hI m' (mem_msgs_deliver hk hm')
      · intro m hm
        rcases List.mem_append.1 hm with hm | hm
        · exact hI m (List.mem_append_left _ (List.mem_of_mem_eraseIdx hm))
        · exact hI m (List.mem_append_right _ hm)

/-! ## Nonce uniqueness -/

/-- **No nonce is delivered for two calls**, in every run in which no submit-mode call is told a
nonce that another call has in flight. -/
theorem nonces_apart (A : Alloy) (b : Bundler) (req : ι → Request) (n₀ : Nat) (s : NetPool ι)
    (h : NetReachable A b req n₀ (readsSettled req) s) : NoncesApart s := by
  intro m hm m' hm' hne
  exact (noncesHeld h).apart m (List.mem_append_right _ hm) m' (List.mem_append_right _ hm') hne

/-- Two submits of one op each, of different senders. -/
def twoSubmits : Fin 2 → Request := fun i => ⟨[twoOps.get i], submitOpts⟩

/-- The first call's request is processed before the second reads its nonce. -/
def settledRun : List (Label (Fin 2) Unit NetEvent Op Op.Ans) :=
  List.replicate 10 (.answer 0 (mockAnswerAt 7)) ++ [.act 0 (), .env (.deliver 0)] ++
    List.replicate 2 (.answer 0 (mockAnswerAt 7)) ++ List.replicate 10 (.answer 1 (mockAnswerAt 8)) ++
    [.act 1 (), .env (.deliver 0)]

theorem nonces_apart_settled : ∃ s : NetPool (Fin 2),
    NetReachable alloy testBundler twoSubmits 7 (readsSettled twoSubmits) s ∧ s.world.delivered.length = 2 ∧
      NoncesApart s := by
  obtain ⟨s, hs, hp⟩ := exists_reach_of_run netRules (readsSettled twoSubmits)
    (.start (calls alloy testBundler twoSubmits) (.start 7)) settledRun
    (fun s => s.world.delivered.length == 2) (by decide)
  exact ⟨s, hs, by simpa using hp, nonces_apart alloy testBundler twoSubmits 7 s hs⟩

/-- The mock node, whose answer to the send is lost with the connection. -/
def sendFailsAnswer : (o : Op) → o.Ans
  | .rpc (.sendRawTransaction _) => .error (.transport "connection reset")
  | o => mockAnswer o

/-- The first call gets a transport error and gives the lock back while its request is in flight. -/
def overtakenRun : List (Label (Fin 2) Unit NetEvent Op Op.Ans) :=
  List.replicate 10 (.answer 0 sendFailsAnswer) ++ [.act 0 ()] ++ List.replicate 2 (.answer 0 sendFailsAnswer) ++
    List.replicate 10 (.answer 1 mockAnswer) ++ [.act 1 (), .env (.deliver 0), .env (.deliver 0)]

/-- Both calls sign nonce 7, each for its own op, and both transactions are delivered. -/
theorem nonce_delivered_twice :
    ¬ ∀ (A : Alloy) (b : Bundler) (req : Fin 2 → Request) (n₀ : Nat) (s : NetPool (Fin 2)),
      NetReachable A b req n₀ anyStep s → NoncesApart s := by
  intro hall
  obtain ⟨s, hs, hp⟩ := exists_reach_of_run netRules anyStep
    (.start (calls alloy testBundler twoSubmits) (.start 7)) overtakenRun
    (fun s => s.world.delivered.map (fun m => (m.sender, m.nonce)) == [(0, 7), (1, 7)]) (by decide)
  rw [beq_iff_eq, List.map_eq_cons_iff] at hp
  obtain ⟨m, ms, hd, hm, hp⟩ := hp
  obtain ⟨m', ms', rfl, hm', -⟩ := List.map_eq_cons_iff.1 hp
  have h := hall _ _ _ _ s hs m (by simp [hd]) m' (by simp [hd])
  rw [Prod.mk.injEq] at hm hm'
  exact h (by rw [hm.1, hm'.1]; decide) (by rw [hm.2, hm'.2])

end EtheraBundler

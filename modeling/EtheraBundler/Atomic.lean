import EtheraBundler.Chain
import EtheraBundler.Serial
/-!
# The ledger, on the network

`Ledger` answers a send and counts it in one step; on `Net` the request travels, is processed, and
is answered. The first is the second on a network that processes each request once, before its
answer.

* `OnNet` — the network in the state of a ledger.
* `OnNet.sent`, `OnNet.quiet` — an accepted send in three steps, any other answer in one.
* `ledger_in_net` — **every run over the ledger is one over the network**, and settles every nonce
  before the next is read.
-/

namespace EtheraBundler

open Interact

variable {A : Alloy} {b : Bundler} {ι : Type} {req : ι → Request} {n₀ : Nat}

/-- Nothing is under way, and all that was processed was mined and is what the ledger accepted. -/
structure OnNet (n₀ : Nat) (s : SubmitPool ι) (t : NetPool ι) : Prop where
  calls : t.calls = s.calls
  lock : t.world.lock = s.world.lock
  pending : t.world.pending = s.world.pending
  settled : t.world.inflight = []
  allMined : mined n₀ t.world.delivered = t.world.delivered
  accepted : t.world.delivered.map (fun m => (m.sender, m.raw)) = s.world.accepted

variable [DecidableEq ι] {s s' : SubmitPool ι} {t t' : NetPool ι}

/-- With nothing under way no nonce read is under way. -/
theorem readsSettled_of_settled (h : t.world.inflight = []) (l : Label ι Unit NetEvent Op Op.Ans) :
    readsSettled req t l = true := by
  unfold readsSettled
  split
  · split
    · split
      · simp [h]
      · rfl
    · rfl
  · rfl

/-- What answers no send the network answers as the ledger does. -/
theorem netAnswer_of_move {w w' : Ledger ι} {v : Net ι} {i : ι} {o : Op} {x : o.Ans}
    (h : LedgerMove w i ⟨o, x⟩ w')
    (hsend : ∀ raw y, (⟨o, x⟩ : Event Op Op.Ans) ≠ ⟨.rpc (.sendRawTransaction raw), .ok y⟩)
    (hlock : v.lock = w.lock) (hp : v.pending = w.pending) :
    netAnswer v i o x = some { v with lock := w'.lock } ∧ w'.pending = w.pending ∧ w'.accepted = w.accepted := by
  generalize he : (⟨o, x⟩ : Event Op Op.Ans) = e at h hsend
  cases h with
  | lock hfree =>
    cases he
    simp [netAnswer, lockAnswer, Net.answer, hlock, hfree]
  | unlock =>
    cases he
    exact ⟨rfl, rfl, rfl⟩
  | read addr n hn =>
    cases he
    simp [netAnswer, lockAnswer, Net.answer, hlock, hp, hn]
  | sent raw y => exact absurd rfl (hsend raw y)
  | quiet o' x' hq hl hu hread hs =>
    cases he
    refine ⟨?_, rfl, rfl⟩
    rw [← hlock]
    cases o with
    | lock => exact absurd rfl hl
    | unlock => exact absurd rfl hu
    | sinceEpoch => rfl
    | signEip1559 tx => rfl
    | rpc q =>
      cases q with
      | pendingNonce addr =>
        cases x with
        | ok n => exact absurd rfl (hread addr n)
        | error e => rfl
      | sendRawTransaction raw =>
        cases x with
        | ok y => exact absurd rfl (hs raw y)
        | error e => rfl
      | _ => rfl

/-- One answer but an accepted send. -/
theorem OnNet.quiet (h : OnNet n₀ s t) {i : ι} {f : (o : Op) → o.Ans} {o : Op} {k : o.Ans → M SignedTxResp}
    {w : Ledger ι} (live : (s.calls i).dropped = false) (hcur : (s.calls i).cur = .ask o k)
    (hm : LedgerMove s.world i ⟨o, f o⟩ w)
    (hsend : ∀ raw y, (⟨o, f o⟩ : Event Op Op.Ans) ≠ ⟨.rpc (.sendRawTransaction raw), .ok y⟩) :
    ∃ t', Reach netRules (readsSettled req) t t' ∧ OnNet n₀ (s.answered i ⟨o, f o⟩ (k (f o)) w) t' := by
  obtain ⟨hw, hp, ha⟩ := netAnswer_of_move hm hsend h.lock h.pending
  rw [← h.calls] at live hcur
  have hstep := (Moves.answer (R := netRules) (s := t) i f o k _ live hcur hw).step_eq
  refine ⟨_, .step _ .init (readsSettled_of_settled h.settled _) hstep, ?_⟩
  refine ⟨?_, rfl, ?_, h.settled, h.allMined, ?_⟩
  · simp only [Pool.answered, h.calls]
  · exact h.pending.trans hp.symm
  · exact h.accepted.trans ha.symm

/-- An accepted send: the request leaves, is mined, and is answered. -/
theorem OnNet.sent (hr : Reachable A b req n₀ s) (h : OnNet n₀ s t) {i : ι} {f : (o : Op) → o.Ans} {raw : Bytes}
    {y : B256}
    {k : (Op.rpc (.sendRawTransaction raw)).Ans → M SignedTxResp} {w : Ledger ι}
    (live : (s.calls i).dropped = false) (hcur : (s.calls i).cur = .ask (.rpc (.sendRawTransaction raw)) k)
    (hf : f (.rpc (.sendRawTransaction raw)) = .ok y)
    (hw : ledgerAnswer s.world i (.rpc (.sendRawTransaction raw)) (.ok y) = some w) :
    ∃ t', Reach netRules (readsSettled req) t t' ∧
      OnNet n₀ (s.answered i ⟨.rpc (.sendRawTransaction raw), .ok y⟩ (k (.ok y)) w) t' := by
  obtain ⟨env, hph, -⟩ := (answer_step hr hcur (.ok y)).of_send
  have hnonce : (Phase.of (s.calls i).hist).nonce = some env.tx.nonce := by
    rw [hph]
    rfl
  have hpend : env.tx.nonce.toNat = t.world.pending := by
    rw [h.pending]
    exact (counted hr).current i _ live hnonce
  cases hw
  rw [← h.calls] at live hcur hph
  let m : Msg ι := ⟨i, raw, env⟩
  let v : Net ι := { t.world with inflight := [m] }
  have hact : netRules.act t.world i (t.calls i).hist (.rpc (.sendRawTransaction raw)) () = some v := by
    simp only [netRules, hph, h.settled, List.nil_append]
    rfl
  have hdeliver : netRules.env v (.deliver 0) = some (v.deliver 0 m) := rfl
  have hanswer : netRules.answer (v.deliver 0 m) i (t.calls i).hist (.rpc (.sendRawTransaction raw))
      (f (.rpc (.sendRawTransaction raw))) = some (v.deliver 0 m) := by
    rw [hf]
    simp [netRules, netAnswer, lockAnswer, Net.answer, Net.deliver, m]
  have h1 := (Moves.act (R := netRules) (s := t) i () _ k v live hcur hact).step_eq
  have h2 := (Moves.env (R := netRules) (s := { t with world := v }) (.deliver 0) _ hdeliver).step_eq
  have h3 := (Moves.answer (R := netRules) (s := { t with world := v.deliver 0 m }) i f _ k _ live hcur hanswer).step_eq
  have hdone : (v.deliver 0 m).inflight = [] := rfl
  refine ⟨_, .step _ (.step _ (.step _ .init ?_ h1) ?_ h2) (readsSettled_of_settled hdone _) h3, ?_⟩
  · rfl
  · rfl
  rw [hf]
  have hat : env.tx.nonce.toNat = n₀ + t.world.delivered.length := by
    rw [hpend, h.pending, (counted hr).pending_eq, ← h.accepted, List.length_map]
  refine ⟨?_, h.lock, ?_, hdone, ?_, ?_⟩
  · simp only [Pool.answered, h.calls]
  · show (if env.tx.nonce.toNat = t.world.pending then t.world.pending + 1 else t.world.pending) = _
    rw [if_pos hpend, h.pending]
    rfl
  · show mined n₀ (t.world.delivered ++ [m]) = t.world.delivered ++ [m]
    rw [mined_append_singleton, h.allMined, if_pos hat]
  · show (t.world.delivered ++ [m]).map (fun m => (m.sender, m.raw)) = s.world.accepted ++ [(i, raw)]
    rw [List.map_append, h.accepted]
    rfl

/-- **The ledger, on the network.** Every run of the calls over the ledger is a run of the same calls,
with the same answers, over the network: one in which nothing stays under way, no nonce is read that
another request has in flight, and what is mined is what the ledger accepted, in its order. -/
theorem ledger_in_net (A : Alloy) (b : Bundler) (req : ι → Request) (n₀ : Nat) (s : SubmitPool ι)
    (h : Reachable A b req n₀ s) :
    ∃ t : NetPool ι, NetReachable A b req n₀ (readsSettled req) t ∧ OnNet n₀ s t := by
  refine h.simulated (I := OnNet n₀) ⟨rfl, rfl, rfl, rfl, rfl, rfl⟩ ?_
  intro s s' l t hr _ hm _ hrel
  cases hm with
  | answer i f o k w live hcur hw =>
    by_cases hsend : ∃ raw y, (⟨o, f o⟩ : Event Op Op.Ans) = ⟨.rpc (.sendRawTransaction raw), .ok y⟩
    · obtain ⟨raw, y, he⟩ := hsend
      obtain rfl : o = .rpc (.sendRawTransaction raw) := congrArg Sigma.fst he
      have hf : f (.rpc (.sendRawTransaction raw)) = .ok y := eq_of_heq (Sigma.mk.inj he).2
      have hw' : ledgerAnswer s.world i (.rpc (.sendRawTransaction raw)) (.ok y) = some w := by
        rw [← hf]
        exact hw
      rw [hf]
      exact hrel.sent hr live hcur hf hw'
    · refine hrel.quiet live hcur (ledgerMove hw) fun raw y he => hsend ⟨raw, y, he⟩
  | act i l => exact nomatch l
  | drop i w live hw =>
    obtain ⟨hsus, rfl⟩ := ledger_drop hw
    have hdrop : netRules.drop t.world i (t.calls i).hist (t.calls i).pending =
        some { t.world with lock := lockDrop t.world.lock i } := by
      rw [hrel.calls]
      exact if_pos hsus
    have live' : (t.calls i).dropped = false := by
      rw [hrel.calls]
      exact live
    have hstep := (Moves.drop (R := netRules) (s := t) i _ live' hdrop).step_eq
    refine ⟨_, .step _ .init (readsSettled_of_settled hrel.settled _) hstep, ?_⟩
    refine ⟨?_, ?_, hrel.pending, hrel.settled, hrel.allMined, hrel.accepted⟩
    · simp only [Pool.cut, hrel.calls]
    · show lockDrop t.world.lock i = lockDrop s.world.lock i
      rw [hrel.lock]
  | env e w hw =>
    cases hw
    exact ⟨t, .init, hrel.calls, hrel.lock, hrel.pending, hrel.settled, hrel.allMined, hrel.accepted⟩

/-- Two submits and a sign-only call beside them: both transactions are mined. -/
theorem ledger_in_net_threeCalls : ∃ t : NetPool (Fin 3),
    NetReachable alloy testBundler threeCalls 7 (readsSettled threeCalls) t ∧ t.world.inflight = [] ∧
      (mined 7 t.world.delivered).length = 2 := by
  obtain ⟨s, hs, hp⟩ := exists_reach_of_run ledgerRules anyStep
    (.start (calls alloy testBundler threeCalls) (.start 7)) threeCallsRun
    (fun s => s.world.accepted.length == 2) (by decide)
  obtain ⟨t, ht, hrel⟩ := ledger_in_net alloy testBundler threeCalls 7 s hs
  refine ⟨t, ht, hrel.settled, ?_⟩
  rw [hrel.allMined, ← List.length_map (f := fun m => (m.sender, m.raw)), hrel.accepted]
  simpa using hp

end EtheraBundler

import EtheraBundler.Fees
import EtheraBundler.SubmitLock
/-!
# `cancel`

`build_signed_user_ops_tx` races `build_inner` against the cancellation token
(`bundler.rs:96-106`). Once the token has fired, the next poll drops `build_inner` where it is
suspended, and the guard with it.

* `returned_cancelled_iff` — `Err(Cancelled)` comes from the race alone.
* `Dropped`, `suspended_of_dropped` — where a dropped call can stand.
* `cancelled_sent_iff` — **a cancelled call holds no lock**, and its transaction was accepted
  exactly when the cut fell on the wait for its receipt.
-/

namespace EtheraBundler

open Interact

variable {A : Alloy} {b : Bundler} {ι : Type} [DecidableEq ι] {req : ι → Request} {n₀ : Nat} {s : SubmitPool ι}

/-- What `build_signed_user_ops_tx` returned (`bundler.rs:96-106`), if it did: `Cancelled` where
the token's branch was taken, else what `build_inner` came to. -/
def returned (c : Call Op Op.Ans Exit SignedTxResp) : Option (Except Exit SignedTxResp) :=
  match c.dropped, c.cur with
  | true, _ => some (.error (.err .cancelled))
  | false, .ret resp => some (.ok resp)
  | false, .fail e => some (.error e)
  | false, .ask _ _ => none

/-- `build_inner` itself never returns `Cancelled`. -/
theorem returned_cancelled_iff (h : Reachable A b req n₀ s) (i : ι) :
    returned (s.calls i) = some (.error (.err .cancelled)) ↔ (s.calls i).dropped = true := by
  unfold returned
  rcases hd : (s.calls i).dropped with - | -
  · rcases hcur : (s.calls i).cur with resp | e | ⟨o, k⟩
    · simp
    · have hrun : Run ((req i).call A b) (s.calls i).hist (.error e) := by
        have hafter := h.after i
        rwa [hcur] at hafter
      simp only [Option.some.injEq, Except.error.injEq, Bool.false_eq_true, iff_false]
      rintro rfl
      exact buildInner_exits _ _ hrun
    · simp
  · simp

/-- A dropped call was not polled yet, or stands at an `.await`. -/
theorem suspended_of_dropped (h : Reachable A b req n₀ s) {i : ι} (hd : (s.calls i).dropped = true) :
    suspended (s.calls i).hist (s.calls i).pending = true := by
  refine h.inv (I := fun s => ∀ i, (s.calls i).dropped = true →
    suspended (s.calls i).hist (s.calls i).pending = true) ?_ ?_ i hd
  · intro i hi
    cases hi
  · intro s s' l _ _ hm ih j hj
    cases hm with
    | answer i f o k w live hcur hw =>
      by_cases hji : j = i
      · subst hji
        rw [Pool.answered_self, live] at hj
        cases hj
      · rw [Pool.answered_of_ne _ _ _ _ hji] at hj ⊢
        exact ih j hj
    | act i l => exact nomatch l
    | drop i w live hw =>
      by_cases hji : j = i
      · subst hji
        rw [Pool.cut_self]
        exact (ledger_drop hw).1
      · rw [Pool.cut_of_ne _ _ hji] at hj ⊢
        exact ih j hj
    | env e w hw => exact ih j hj

/-- Waiting for the receipt, a call has sent. -/
theorem sent_of_awaitsReceipt {submit : Bool} {ph : Phase} {o : Op} (ha : Phase.allow A b submit ph o)
    (ho : o.awaitsReceipt) : ph.sent = true := by
  cases ph with
  | left sent => exact ha.1
  | before =>
    rcases ha with ha | ⟨-, rfl⟩ | ⟨-, rfl | ⟨_, rfl⟩⟩
    · exact absurd ha (not_isCheck_of_awaitsReceipt ho)
    all_goals exact absurd ho id
  | locked => rcases ha with rfl | rfl <;> exact absurd ho id
  | read n => rcases ha with ⟨_, rfl, -⟩ | rfl <;> exact absurd ho id
  | signed env =>
    obtain rfl := ha
    exact absurd ho id
  | answered sent =>
    obtain rfl := ha
    exact absurd ho id

theorem pending_eq_some {c : Call Op Op.Ans Exit SignedTxResp} {o : Op} (h : c.pending = some o) :
    ∃ k, c.cur = .ask o k := by
  unfold Call.pending at h
  split at h
  · rename_i o' k hcur
    cases h
    exact ⟨k, hcur⟩
  · cases h

/-- After its send a call can be suspended at the wait for the receipt and the replay alone. -/
theorem sent_iff_of_suspended (h : Reachable A b req n₀ s) {i : ι}
    (hsus : suspended (s.calls i).hist (s.calls i).pending = true) :
    (Phase.of (s.calls i).hist).sent = true ↔ ∃ o, (s.calls i).pending = some o ∧ o.awaitsReceipt := by
  constructor
  · intro hsent
    rw [suspended, Bool.or_eq_true, List.isEmpty_iff, Option.any_eq_true] at hsus
    rcases hsus with hnil | ⟨o, hpend, hawait⟩
    · rw [hnil] at hsent
      cases hsent
    obtain ⟨k, hcur⟩ := pending_eq_some hpend
    have ha := h.allowed (fun i => obeys_call A b (req i)) hcur
    rw [submitProtocol_phase] at ha
    refine ⟨o, hpend, ?_⟩
    rcases hph : Phase.of (s.calls i).hist with - | - | n | env | sent | sent
    all_goals rw [hph] at hsent ha
    · cases hsent
    · cases hsent
    · cases hsent
    · cases hsent
    · -- only the guard's drop follows, which is no `.await`
      obtain rfl := ha
      cases hawait
    · exact ha.2
  · rintro ⟨o, hpend, ho⟩
    obtain ⟨k, hcur⟩ := pending_eq_some hpend
    exact sent_of_awaitsReceipt (h.allowed (fun i => obeys_call A b (req i)) hcur) ho

/-- **A cancelled call.** In every run of any number of calls and any firing of the token: a call
that returned `Cancelled` does not hold the lock, and a send of it was accepted exactly when the
cut fell on the wait for the receipt or on the replay behind it. -/
theorem cancelled_sent_iff (A : Alloy) (b : Bundler) (req : ι → Request) (n₀ : Nat) (s : SubmitPool ι)
    (h : Reachable A b req n₀ s) (i : ι) (hr : returned (s.calls i) = some (.error (.err .cancelled))) :
    s.world.lock ≠ some i ∧
    ((∃ raw x, ⟨.rpc (.sendRawTransaction raw), .ok x⟩ ∈ (s.calls i).hist) ↔
      ∃ o, (s.calls i).pending = some o ∧ o.awaitsReceipt) ∧
    ∀ raw, (i, raw) ∈ s.world.accepted ↔
      ∃ x, ⟨.rpc (.sendRawTransaction raw), .ok x⟩ ∈ (s.calls i).hist := by
  have hd := (returned_cancelled_iff h i).1 hr
  refine ⟨fun hl => ?_, ?_, fun raw => ⟨fun hm => ?_, ?_⟩⟩
  · have hlive := ((lock_iff h i).1 hl).1
    rw [hd] at hlive
    cases hlive
  · rw [← (phaseAgrees_of_reach h i).sent]
    exact sent_iff_of_suspended h (suspended_of_dropped h hd)
  · obtain ⟨env, hacc⟩ := exists_acceptedAs h hm
    exact hacc.answered
  · rintro ⟨x, hx⟩
    exact (counted h).recorded i raw x hx

/-- One submit call, cut by the token after `n` answers. -/
def cutAfter (n : Nat) : List (Label Unit Empty Unit Op Op.Ans) :=
  List.replicate n (.answer () mockAnswer) ++ [.env (), .drop ()]

/-- The one call of these runs. -/
def loneSubmit : Unit → Request := fun _ => ⟨[happyOp], submitOpts⟩

/-- Cut at the nonce read, under the lock: the lock is free and nothing was sent. -/
theorem cancelled_sent_iff_atNonce : ∃ s : SubmitPool Unit, Reachable alloy testBundler loneSubmit 7 s ∧
    returned (s.calls ()) = some (.error (.err .cancelled)) ∧ s.world.lock ≠ some () ∧
      ∀ raw x, ⟨.rpc (.sendRawTransaction raw), .ok x⟩ ∉ (s.calls ()).hist := by
  obtain ⟨s, hs, hp⟩ := exists_reach_of_run ledgerRules anyStep
    (.start (calls alloy testBundler loneSubmit) (.start 7)) (cutAfter 8)
    (fun s => (s.calls ()).dropped && (s.calls ()).pending == some (.rpc (.pendingNonce testSigner))) (by decide)
  rw [Bool.and_eq_true, beq_iff_eq] at hp
  have hr := (returned_cancelled_iff hs ()).2 hp.1
  obtain ⟨hlock, hsent, -⟩ := cancelled_sent_iff alloy testBundler loneSubmit 7 s hs () hr
  refine ⟨s, hs, hr, hlock, fun raw x hm => ?_⟩
  obtain ⟨o, ho, haw⟩ := hsent.1 ⟨raw, x, hm⟩
  rw [hp.2] at ho
  cases ho
  exact haw

/-- Cut at the receipt: the call returns `Cancelled` and its transaction was accepted. -/
theorem cancelled_after_send :
    ¬ ∀ (A : Alloy) (b : Bundler) (req : Unit → Request) (n₀ : Nat) (s : SubmitPool Unit),
      Reachable A b req n₀ s → returned (s.calls ()) = some (.error (.err .cancelled)) →
      (∀ raw x, ⟨.rpc (.sendRawTransaction raw), .ok x⟩ ∉ (s.calls ()).hist) ∧ s.world.lock ≠ some () := by
  intro hall
  obtain ⟨s, hs, hp⟩ := exists_reach_of_run ledgerRules anyStep
    (.start (calls alloy testBundler loneSubmit) (.start 7)) (cutAfter 12)
    (fun s => (s.calls ()).dropped && (s.calls ()).hist.any isSendOk) (by decide)
  rw [Bool.and_eq_true, List.any_eq_true] at hp
  obtain ⟨hd, ev, hm, ho⟩ := hp
  obtain ⟨raw, x, rfl⟩ := isSendOk_iff.1 ho
  obtain ⟨hnone, -⟩ := hall _ _ _ _ s hs ((returned_cancelled_iff hs ()).2 hd)
  exact hnone raw x hm

end EtheraBundler

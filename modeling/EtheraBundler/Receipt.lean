import EtheraBundler.Lib.Loop
import EtheraBundler.Mock
import EtheraBundler.Provider
/-!
# Waiting for a receipt

`AlloyProvider::wait_for_receipt` (`provider.rs:231-259`): poll, look at the clock, sleep, again,
until a receipt, an error or the deadline.

| here | there |
| --- | --- |
| `ReceiptOp` | `get_transaction_receipt`, `Instant::now()`, `tokio::time::sleep` |
| `pollRound` | the body of the `loop` |
| `waitForReceipt` | the whole method, the loop with fuel |
| `instantAdd`, `instantSub`, `durationMul` | the operators on `Instant` and `Duration`, partial where `std` is |

Durations and points in time are numbers of nanoseconds.

* `SteadyClock` — readings do not go back, and `sleep(d)` takes at least `d`.
* `Waiting` — the loop invariant: the back-off stays between 200 ms and 2 s, the clock is not past
  the deadline after a sleep, and every sleep but one that reaches the deadline took 200 ms.
* `waitForReceipt_bounded` — **the wait ends**, within the polls and the sleeps the timeout allows,
  in what the first poll that is not empty says or in `Ok(None)` at the deadline.
* `waitForReceipt_answers` — it answers the question the pipeline asks as one.
-/

namespace EtheraBundler

open Interact

/-! ## Time -/

/-- `Duration::from_millis`. -/
def millis (n : Nat) : Nat := n * 1000000

/-- `Duration::from_secs`. -/
def secs (n : Nat) : Nat := n * 1000000000

/-- `Duration::MAX`. -/
def DURATION_MAX : Nat := 2 ^ 64 * 1000000000 - 1

/-- What can go wrong in arithmetic on time. -/
inductive TimePanic where
  /-- `Instant + Duration` past the last point in time the platform represents. -/
  | instantOverflow
  /-- `Instant - Instant` with the later one on the right. -/
  | instantUnderflow
  /-- `Duration * u32` past `Duration::MAX`. -/
  | durationOverflow
deriving DecidableEq

/-- The ways out of `waitForReceipt` other than `Ok`; `outOfFuel` is the model's own. -/
inductive WaitExit where
  | err (e : ProviderError)
  | panic (p : TimePanic)
  | outOfFuel
deriving DecidableEq

/-- `at + d`, where `maxInstant` is the last point in time the platform represents. -/
def instantAdd (maxInstant now d : Nat) : Except WaitExit Nat :=
  if now + d ≤ maxInstant then .ok (now + d) else .error (.panic .instantOverflow)

/-- `deadline - now`. Where `now` is past the deadline, today's `std` saturates to zero and older ones
panic; the model takes the stricter reading. -/
def instantSub (deadline now : Nat) : Except WaitExit Nat :=
  if now ≤ deadline then .ok (deadline - now) else .error (.panic .instantUnderflow)

/-- `d * k`. -/
def durationMul (d k : Nat) : Except WaitExit Nat :=
  if d * k ≤ DURATION_MAX then .ok (d * k) else .error (.panic .durationOverflow)

/-! ## The loop -/

/-- `TransactionReceipt`, the fields the loop reads. -/
structure TransactionReceipt where
  blockNumber : Option U64
  status : Bool

/-- What the loop asks its surroundings. -/
inductive ReceiptOp where
  | getTransactionReceipt (hash : B256)
  | now
  | sleep (d : Nat)

@[reducible] def ReceiptOp.Ans : ReceiptOp → Type
  | .getTransactionReceipt _ => Except RpcError (Option TransactionReceipt)
  | .now => Nat
  | .sleep _ => Unit

abbrev WaitTrace := Trace ReceiptOp ReceiptOp.Ans

/-- The `ReceiptInfo` literal (`provider.rs:245-249`). -/
def ReceiptInfo.of (hash : B256) (r : TransactionReceipt) : ReceiptInfo where
  txHash := hash
  blockNumber := r.blockNumber.getD 0
  success := r.status

namespace AlloyProvider

/-- The body of the loop (`provider.rs:239-257`): a result, or the next back-off. -/
def pollRound (hash : B256) (deadline backoff : Nat) :
    Prog ReceiptOp ReceiptOp.Ans WaitExit (Option ReceiptInfo ⊕ Nat) :=
  .ask (.getTransactionReceipt hash) fun
    | .error e => .fail (.err (.transport e.display))
    | .ok (some r) => .ret (.inl (some (.of hash r)))
    | .ok none => .ask .now fun now =>
      if now ≥ deadline then .ret (.inl none)
      else do
        let remaining ← Prog.exit (instantSub deadline now)
        .ask (.sleep (min backoff remaining)) fun _ => do
          let doubled ← Prog.exit (durationMul backoff 2)
          return .inr (min doubled (secs 2))

/-- `wait_for_receipt` (`provider.rs:231-259`). -/
def waitForReceipt (fuel maxInstant : Nat) (hash : B256) (timeout : Nat) :
    Prog ReceiptOp ReceiptOp.Ans WaitExit (Option ReceiptInfo) :=
  .ask .now fun now => do
    let deadline ← Prog.exit (instantAdd maxInstant now timeout)
    Prog.loop (pollRound hash deadline) .outOfFuel fuel (millis 200)

end AlloyProvider

/-! ## What a wait leaves behind -/

abbrev PollAnswer := Except RpcError (Option TransactionReceipt)

/-- The answers of the polls, in order. -/
def polls : WaitTrace → List PollAnswer
  | [] => []
  | ⟨.getTransactionReceipt _, x⟩ :: t => x :: polls t
  | _ :: t => polls t

/-- The sleeps asked for, together. -/
def slept : WaitTrace → Nat
  | [] => 0
  | ⟨.sleep d, _⟩ :: t => d + slept t
  | _ :: t => slept t

/-- The earliest the clock can be at after one more event. -/
def tick (clock : Nat) : Event ReceiptOp ReceiptOp.Ans → Nat
  | ⟨.now, now⟩ => now
  | ⟨.sleep d, _⟩ => clock + d
  | ⟨.getTransactionReceipt _, _⟩ => clock

/-- The last reading of the clock and the sleeps since. -/
def clockAt (t : WaitTrace) : Nat := t.foldl tick 0

/-- A monotone clock on which `sleep(d)` takes at least `d`. Nothing bounds a reading from above: a
poll may take any time, and a sleep more than it was asked for. -/
def SteadyClock (env : Env ReceiptOp ReceiptOp.Ans) : Prop := ∀ t, clockAt t ≤ env t .now

/-- A poll that found no receipt. -/
def emptyPoll : PollAnswer → Bool
  | .ok none => true
  | _ => false

variable {env : Env ReceiptOp ReceiptOp.Ans} {t t' : WaitTrace}

theorem polls_append : polls (t ++ t') = polls t ++ polls t' := by
  induction t with
  | nil => rfl
  | cons ev t ih =>
    obtain ⟨_ | _ | d, x⟩ := ev
    · simp [polls, ih]
    · exact ih
    · exact ih

theorem slept_append : slept (t ++ t') = slept t + slept t' := by
  induction t with
  | nil => simp [slept]
  | cons ev t ih =>
    obtain ⟨_ | _ | d, x⟩ := ev
    · exact ih
    · exact ih
    · simp [slept, ih, Nat.add_assoc]

theorem clockAt_snoc (ev : Event ReceiptOp ReceiptOp.Ans) : clockAt (t ++ [ev]) = tick (clockAt t) ev := by
  simp [clockAt]

/-- The first poll that is not empty. -/
def firstAnswer (t : WaitTrace) : Option PollAnswer := (polls t).find? fun x => !emptyPoll x

theorem firstAnswer_of_empty (h : ∀ x ∈ polls t, emptyPoll x = true) : firstAnswer t = none := by
  apply List.find?_eq_none.2
  intro x hx
  simp [h x hx]

theorem firstAnswer_of_last {x : PollAnswer} (h : ∀ y ∈ polls t, emptyPoll y = true)
    (ht : polls t' = polls t ++ [x]) (hx : emptyPoll x = false) : firstAnswer t' = some x := by
  have hnone : (polls t).find? (fun x => !emptyPoll x) = none := firstAnswer_of_empty h
  unfold firstAnswer
  rw [ht, List.find?_append, hnone]
  simp [hx]

/-! ## One round -/

/-- The poll of a round, with its answer. -/
abbrev polled (hash : B256) (x : PollAnswer) : Event ReceiptOp ReceiptOp.Ans := ⟨.getTransactionReceipt hash, x⟩

abbrev readClock (now : Nat) : Event ReceiptOp ReceiptOp.Ans := ⟨.now, now⟩

abbrev sleptFor (d : Nat) : Event ReceiptOp ReceiptOp.Ans := ⟨.sleep d, ()⟩

/-- The rounds of the loop after the exchange `t`. -/
inductive PollRound (hash : B256) (deadline backoff : Nat) (t : WaitTrace) :
    WaitTrace → Except WaitExit (Option ReceiptInfo ⊕ Nat) → Prop where
  | failed (e : RpcError) :
    PollRound hash deadline backoff t (t ++ [polled hash (.error e)]) (.error (.err (.transport e.display)))
  | found (r : TransactionReceipt) :
    PollRound hash deadline backoff t (t ++ [polled hash (.ok (some r))]) (.ok (.inl (some (.of hash r))))
  | late (now : Nat) (hnow : clockAt t ≤ now) (h : deadline ≤ now) :
    PollRound hash deadline backoff t (t ++ [polled hash (.ok none)] ++ [readClock now]) (.ok (.inl none))
  | again (now : Nat) (hnow : clockAt t ≤ now) (h : now < deadline) :
    PollRound hash deadline backoff t
      (t ++ [polled hash (.ok none)] ++ [readClock now] ++ [sleptFor (min backoff (deadline - now))])
      (.ok (.inr (min (backoff * 2) (secs 2))))

/-- **One round.** The clock is read no earlier than the last reading and the sleeps since, and no
arithmetic on time goes wrong while the back-off is at most 2 s. -/
theorem pollRound_cases (hclock : SteadyClock env) {hash : B256} {deadline backoff : Nat} (hhi : backoff ≤ secs 2)
    {r : Except WaitExit (Option ReceiptInfo ⊕ Nat)}
    (h : play env t (AlloyProvider.pollRound hash deadline backoff) = (t', r)) :
    PollRound hash deadline backoff t t' r := by
  unfold AlloyProvider.pollRound at h
  rw [play_ask] at h
  rcases hx : env t (.getTransactionReceipt hash) with e | - | receipt
  · rw [hx] at h
    cases h
    exact .failed e
  · rw [hx] at h
    simp only [play_ask] at h
    have hnow := hclock (t ++ [polled hash (.ok none)])
    rw [clockAt_snoc] at hnow
    generalize env (t ++ [polled hash (.ok none)]) .now = now at h hnow
    by_cases hd : deadline ≤ now
    · rw [if_pos hd] at h
      cases h
      exact .late now hnow hd
    · have hsub : instantSub deadline now = .ok (deadline - now) := if_pos (by omega)
      have hmul : durationMul backoff 2 = .ok (backoff * 2) := by
        apply if_pos
        unfold secs at hhi
        unfold DURATION_MAX
        omega
      rw [if_neg hd, hsub, hmul] at h
      cases h
      exact .again now hnow (by omega)
  · rw [hx] at h
    cases h
    exact .found receipt

/-! ## The loop invariant -/

/-- The state of a wait at the top of a round, with at most `n` more rounds to sleep in. -/
structure Waiting (start timeout n backoff : Nat) (t : WaitTrace) : Prop where
  backoff_lo : millis 200 ≤ backoff
  backoff_hi : backoff ≤ secs 2
  empty : ∀ x ∈ polls t, emptyPoll x = true
  slept_le : start + slept t ≤ clockAt t
  clock_le : clockAt t ≤ start + timeout
  progress : clockAt t = start + timeout ∨ start + (polls t).length * millis 200 ≤ clockAt t
  budget : n + (polls t).length = 1 + timeout / millis 200

/-- A round that sleeps uses one of the rounds left. -/
theorem Waiting.again {start timeout n backoff now : Nat} {hash : B256} (h : Waiting start timeout n backoff t)
    (hnow : clockAt t ≤ now) (hd : now < start + timeout) :
    ∃ m < n, Waiting start timeout m (min (backoff * 2) (secs 2)) (t ++ [polled hash (.ok none)] ++ [readClock now] ++
      [sleptFor (min backoff (start + timeout - now))]) := by
  obtain ⟨hlo, hhi, hempty, hslept, hclock, hprog, hbudget⟩ := h
  have hpolls : polls (t ++ [polled hash (.ok none)] ++ [readClock now] ++
      [sleptFor (min backoff (start + timeout - now))]) = polls t ++ [.ok none] := by
    simp [polls_append, polls]
  have hsum : slept (t ++ [polled hash (.ok none)] ++ [readClock now] ++
      [sleptFor (min backoff (start + timeout - now))]) = slept t + min backoff (start + timeout - now) := by
    simp [slept_append, slept]
  -- The last sleep reaches the deadline or is a whole back-off; before the deadline the earlier ones were.
  have hrounds : start + (polls t).length * millis 200 ≤ now := by omega
  have hleft : (polls t).length ≤ timeout / millis 200 := by
    rw [Nat.le_div_iff_mul_le (by decide)]
    omega
  refine ⟨n - 1, by omega, ?_, ?_, ?_, ?_, ?_, ?_, ?_⟩
  · unfold millis secs at *
    omega
  · exact Nat.min_le_right _ _
  · intro x hx
    rw [hpolls, List.mem_append, List.mem_singleton] at hx
    rcases hx with hx | rfl
    · exact hempty x hx
    · rfl
  · rw [hsum, clockAt_snoc, clockAt_snoc]
    simp only [tick]
    omega
  · rw [clockAt_snoc, clockAt_snoc]
    simp only [tick]
    omega
  · rw [hpolls, clockAt_snoc, clockAt_snoc, List.length_append, List.length_singleton, Nat.add_mul]
    simp only [tick]
    omega
  · rw [hpolls, List.length_append, List.length_singleton]
    omega

/-! ## The whole wait -/

/-- How a wait begun at `start` ends: the exchange it leaves and what it returns. -/
structure WaitOutcome (maxInstant start : Nat) (hash : B256) (timeout : Nat) (t : WaitTrace)
    (r : Except WaitExit (Option ReceiptInfo)) : Prop where
  ends : r ≠ .error .outOfFuel
  polls_le : (polls t).length ≤ 2 + timeout / millis 200
  receipt : ∀ info, r = .ok (some info) ↔
    ∃ found, firstAnswer t = some (.ok (some found)) ∧ info = .of hash found
  err : ∀ e, r = .error (.err e) ↔ ∃ x, firstAnswer t = some (.error x) ∧ e = .transport x.display
  timed_out : r = .ok none → (∀ x ∈ polls t, emptyPoll x = true) ∧ start + timeout ≤ clockAt t
  slept_le : slept t ≤ timeout
  no_underflow : r ≠ .error (.panic .instantUnderflow)
  panic : ∀ p, r = .error (.panic p) ↔ p = .instantOverflow ∧ maxInstant < start + timeout

variable {maxInstant start timeout n backoff : Nat} {hash : B256}

/-- One more poll, and no more sleep, stays within what the timeout allows. -/
theorem Waiting.spent (h : Waiting start timeout n backoff t) {x : PollAnswer} (hpolls : polls t' = polls t ++ [x])
    (hslept : slept t' = slept t) : (polls t').length ≤ 2 + timeout / millis 200 ∧ slept t' ≤ timeout := by
  have hbudget := h.budget
  have hle := h.slept_le
  have hclock := h.clock_le
  rw [hpolls, hslept, List.length_append, List.length_singleton]
  constructor
  · omega
  · omega

theorem Waiting.failed (h : Waiting start timeout n backoff t) (hmax : start + timeout ≤ maxInstant) (e : RpcError) :
    WaitOutcome maxInstant start hash timeout (t ++ [polled hash (.error e)])
      (.error (.err (.transport e.display))) := by
  have hpolls : polls (t ++ [polled hash (.error e)]) = polls t ++ [.error e] := by
    simp [polls_append, polls]
  have hslept : slept (t ++ [polled hash (.error e)]) = slept t := by
    simp [slept_append, slept]
  have hfirst := firstAnswer_of_last h.empty hpolls rfl
  obtain ⟨hcount, hsum⟩ := h.spent hpolls hslept
  refine ⟨by simp, hcount, ?_, ?_, by simp, hsum, by simp, ?_⟩
  · intro info
    rw [hfirst]
    simp
  · intro e'
    rw [hfirst]
    constructor
    · intro he
      cases he
      exact ⟨e, rfl, rfl⟩
    · rintro ⟨x, hx, rfl⟩
      cases hx
      rfl
  · intro p
    simp only [Except.error.injEq, reduceCtorEq, false_iff, not_and]
    omega

theorem Waiting.found (h : Waiting start timeout n backoff t) (hmax : start + timeout ≤ maxInstant)
    (found : TransactionReceipt) :
    WaitOutcome maxInstant start hash timeout (t ++ [polled hash (.ok (some found))])
      (.ok (some (.of hash found))) := by
  have hpolls : polls (t ++ [polled hash (.ok (some found))]) = polls t ++ [.ok (some found)] := by
    simp [polls_append, polls]
  have hslept : slept (t ++ [polled hash (.ok (some found))]) = slept t := by
    simp [slept_append, slept]
  have hfirst := firstAnswer_of_last h.empty hpolls rfl
  obtain ⟨hcount, hsum⟩ := h.spent hpolls hslept
  refine ⟨by simp, hcount, ?_, ?_, by simp, hsum, by simp, ?_⟩
  · intro info
    rw [hfirst]
    constructor
    · intro he
      cases he
      exact ⟨found, rfl, rfl⟩
    · rintro ⟨x, hx, rfl⟩
      cases hx
      rfl
  · intro e
    rw [hfirst]
    simp
  · intro p
    simp only [reduceCtorEq, false_iff, not_and]
    omega

theorem Waiting.late {now : Nat} (h : Waiting start timeout n backoff t) (hmax : start + timeout ≤ maxInstant)
    (hd : start + timeout ≤ now) :
    WaitOutcome maxInstant start hash timeout (t ++ [polled hash (.ok none)] ++ [readClock now]) (.ok none) := by
  have hpolls : polls (t ++ [polled hash (.ok none)] ++ [readClock now]) = polls t ++ [.ok none] := by
    simp [polls_append, polls]
  have hslept : slept (t ++ [polled hash (.ok none)] ++ [readClock now]) = slept t := by
    simp [slept_append, slept]
  have hempty : ∀ x ∈ polls (t ++ [polled hash (.ok none)] ++ [readClock now]), emptyPoll x = true := by
    intro x hx
    rw [hpolls, List.mem_append, List.mem_singleton] at hx
    rcases hx with hx | rfl
    · exact h.empty x hx
    · rfl
  have hfirst := firstAnswer_of_empty hempty
  obtain ⟨hcount, hsum⟩ := h.spent hpolls hslept
  refine ⟨by simp, hcount, ?_, ?_, ?_, hsum, by simp, ?_⟩
  · intro info
    rw [hfirst]
    simp
  · intro e
    rw [hfirst]
    simp
  · intro _
    refine ⟨hempty, ?_⟩
    rw [clockAt_snoc]
    exact hd
  · intro p
    simp only [reduceCtorEq, false_iff, not_and]
    omega

/-- **The loop**, entered in a waiting state. -/
theorem play_pollLoop (hclock : SteadyClock env) (hmax : start + timeout ≤ maxInstant)
    (h : Waiting start timeout n backoff t) :
    ∃ t' r, WaitOutcome maxInstant start hash timeout t' r ∧ ∀ fuel, n < fuel →
      play env t (Prog.loop (AlloyProvider.pollRound hash (start + timeout)) .outOfFuel fuel backoff) = (t', r) := by
  refine play_loop (Waiting start timeout) (WaitOutcome maxInstant start hash timeout) ?_ ?_ ?_ h
  · intro n backoff t t' a h hp
    have hc := pollRound_cases hclock h.backoff_hi hp
    generalize hr : (Except.ok (Sum.inl a) : Except WaitExit (Option ReceiptInfo ⊕ Nat)) = r at hc
    cases hc with
    | failed e => cases hr
    | found found =>
      cases hr
      exact h.found hmax found
    | late now hnow hd =>
      cases hr
      exact h.late hmax hd
    | again now hnow hd => cases hr
  · intro n backoff t t' e h hp
    have hc := pollRound_cases hclock h.backoff_hi hp
    generalize hr : (Except.error e : Except WaitExit (Option ReceiptInfo ⊕ Nat)) = r at hc
    cases hc with
    | failed e =>
      cases hr
      exact h.failed hmax e
    | found found => cases hr
    | late now hnow hd => cases hr
    | again now hnow hd => cases hr
  · intro n backoff t t' backoff' h hp
    have hc := pollRound_cases hclock h.backoff_hi hp
    generalize hr : (Except.ok (Sum.inr backoff') : Except WaitExit (Option ReceiptInfo ⊕ Nat)) = r at hc
    cases hc with
    | failed e => cases hr
    | found found => cases hr
    | late now hnow hd => cases hr
    | again now hnow hd =>
      cases hr
      exact h.again hnow hd

/-- The first round finds the clock at the start and nothing polled. -/
theorem waiting_start (start timeout : Nat) :
    Waiting start timeout (1 + timeout / millis 200) (millis 200) [readClock start] where
  backoff_lo := Nat.le_refl _
  backoff_hi := by decide
  empty := by simp [polls]
  slept_le := by simp [slept, clockAt, tick]
  clock_le := by simp [clockAt, tick]
  progress := Or.inr (by simp [polls, clockAt, tick])
  budget := by simp [polls]

/-- Where the deadline cannot be represented, the wait panics before its first poll. -/
theorem waitOutcome_overflow (hmax : maxInstant < start + timeout) :
    WaitOutcome maxInstant start hash timeout [readClock start] (.error (.panic .instantOverflow)) where
  ends := by simp
  polls_le := by simp [polls]
  receipt info := by simp [firstAnswer, polls]
  err e := by simp [firstAnswer, polls]
  timed_out := by simp
  slept_le := by simp [slept]
  no_underflow := by simp
  panic p := by simp [hmax, eq_comm]

/-- A wait with a deadline the platform can represent. -/
theorem play_waitForReceipt (hash : B256) (hclock : SteadyClock env) (hmax : env [] .now + timeout ≤ maxInstant) :
    ∃ t r, WaitOutcome maxInstant (env [] .now) hash timeout t r ∧ ∀ fuel, 2 + timeout / millis 200 ≤ fuel →
      play env [] (AlloyProvider.waitForReceipt fuel maxInstant hash timeout) = (t, r) := by
  unfold AlloyProvider.waitForReceipt
  simp only [play_ask, List.nil_append]
  generalize env [] .now = start at hmax ⊢
  have hadd : instantAdd maxInstant start timeout = .ok (start + timeout) := if_pos hmax
  obtain ⟨t, r, hout, hend⟩ := play_pollLoop hclock hmax (waiting_start start timeout)
  refine ⟨t, r, hout, fun fuel hfuel => ?_⟩
  rw [hadd]
  exact hend fuel (by omega)

/-- **The pipeline's question is answered**: with the bundler's timeout the wait returns, after at
most 152 polls, and a receipt it returns is the one asked for. -/
theorem waitForReceipt_answers (hclock : SteadyClock env) (hmax : env [] .now + secs RECEIPT_TIMEOUT ≤ maxInstant) :
    ∃ answer : (Op.rpc (.waitForReceipt hash RECEIPT_TIMEOUT)).Ans,
      (∀ info, answer = .ok (some info) → info.txHash = hash) ∧ ∀ fuel, 152 ≤ fuel →
        (play env [] (AlloyProvider.waitForReceipt fuel maxInstant hash (secs RECEIPT_TIMEOUT))).2 =
          answer.mapError .err := by
  obtain ⟨t, r, hout, hend⟩ := play_waitForReceipt hash hclock hmax
  rcases r with x | answer
  · rcases x with e | p | -
    · refine ⟨.error e, by simp, fun fuel hfuel => ?_⟩
      rw [hend fuel hfuel]
      rfl
    · exact absurd hmax (Nat.not_le_of_lt ((hout.panic p).1 rfl).2)
    · exact absurd rfl hout.ends
  · refine ⟨.ok answer, ?_, fun fuel hfuel => ?_⟩
    · intro info hinfo
      cases hinfo
      obtain ⟨found, -, rfl⟩ := (hout.receipt info).1 rfl
      rfl
    · rw [hend fuel hfuel]
      rfl

end EtheraBundler

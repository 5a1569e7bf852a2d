import EtheraBundler.Budget
import EtheraBundler.Cancel
import EtheraBundler.SubmitLock
import EtheraBundler.Lib.Serial
/-!
# One call at a time

Calls of one bundler interleave freely, but nobody can tell: whatever state they reach together
they also reach one after the other. Calls queue up in the order in which they take the lock; a
sign-only call, which takes none, stands where the pending nonce it read was current. A shutdown comes
behind all of them; the runs in which the lock still changes hands after it are left out
(`locksBeforeToken`).

* `LedgerMove`, `ledgerMove` — all that an answer can do to the shared state.
* `Ordered` — the order of the calls so far, with the lock's holder last among those who took it.
* `Ordered.extend`, `Ordered.enter`, `Ordered.advance`, `Ordered.release`, `Ordered.insert` — a step
  of each kind; `exists_oneAtATime` — the serial run, as long as the token has not fired.
* `Unfired`, `exists_unfired` — a run without its shutdown; `Unfired.shutdown` — what is left of it
  once the token has fired: drops alone.
* `serialisable` — **every run has a serial one**: same histories, same results, same transactions
  in the same order, and a shutdown, if any, at its end.
-/

namespace EtheraBundler

open Interact

variable {A : Alloy} {b : Bundler} {ι : Type} {req : ι → Request} {n₀ : Nat}

abbrev SubmitCall := Call Op Op.Ans Exit SignedTxResp

/-! ## What an answer does to the shared state -/

inductive LedgerMove (w : Ledger ι) (i : ι) : Event Op Op.Ans → Ledger ι → Prop where
  | lock (h : w.lock = none) : LedgerMove w i ⟨.lock, ()⟩ { w with lock := some i }
  | unlock : LedgerMove w i ⟨.unlock, ()⟩ { w with lock := none }
  | read (addr : Address) (n : U64) (h : n.toNat = w.pending) : LedgerMove w i ⟨.rpc (.pendingNonce addr), .ok n⟩ w
  | sent (raw : Bytes) (y : B256) : LedgerMove w i ⟨.rpc (.sendRawTransaction raw), .ok y⟩
    { w with pending := w.pending + 1, accepted := w.accepted ++ [(i, raw)] }
  | quiet (o : Op) (x : o.Ans) (h : ∀ v : Ledger ι, ledgerAnswer v i o x = some v) (hlock : o ≠ .lock)
    (hunlock : o ≠ .unlock)
    (hread : ∀ addr n, (⟨o, x⟩ : Event Op Op.Ans) ≠ ⟨.rpc (.pendingNonce addr), .ok n⟩)
    (hsend : ∀ raw y, (⟨o, x⟩ : Event Op Op.Ans) ≠ ⟨.rpc (.sendRawTransaction raw), .ok y⟩) : LedgerMove w i ⟨o, x⟩ w

theorem ledgerMove {w w' : Ledger ι} {i : ι} {o : Op} {x : o.Ans} (h : ledgerAnswer w i o x = some w') :
    LedgerMove w i ⟨o, x⟩ w' := by
  have hquiet (hq : ∀ v : Ledger ι, ledgerAnswer v i o x = some v) : w' = w := by
    rw [hq w] at h
    exact (Option.some.inj h).symm
  cases o with
  | lock =>
    obtain ⟨lock, hl, hw⟩ := Option.bind_eq_some_iff.1 h
    cases hw
    simp only [lockAnswer, Option.isNone_iff_eq_none] at hl
    split at hl
    · cases hl
      exact .lock ‹_›
    · cases hl
  | unlock =>
    cases h
    exact .unlock
  | sinceEpoch =>
    obtain rfl := hquiet fun _ => rfl
    exact .quiet _ x (fun _ => rfl) (by simp) (by simp) (by simp) (by simp)
  | signEip1559 tx =>
    obtain rfl := hquiet fun _ => rfl
    exact .quiet _ x (fun _ => rfl) (by simp) (by simp) (by simp) (by simp)
  | rpc q =>
    cases q with
    | pendingNonce addr =>
      cases x with
      | ok n =>
        simp only [ledgerAnswer, lockAnswer, Option.bind_some, Ledger.answer] at h
        split at h
        · cases h
          exact .read addr n ‹_›
        · cases h
      | error e =>
        obtain rfl := hquiet fun _ => rfl
        exact .quiet _ _ (fun _ => rfl) (by simp) (by simp) (by simp) (by simp)
    | sendRawTransaction raw =>
      cases x with
      | ok y =>
        cases h
        exact .sent raw y
      | error e =>
        obtain rfl := hquiet fun _ => rfl
        exact .quiet _ _ (fun _ => rfl) (by simp) (by simp) (by simp) (by simp)
    | _ =>
      obtain rfl := hquiet fun _ => rfl
      exact .quiet _ x (fun _ => rfl) (by simp) (by simp) (by simp) (by simp)

/-- It fires no token. -/
theorem ledgerAnswer_cancelled {w w' : Ledger ι} {i : ι} {o : Op} {x : o.Ans} (h : ledgerAnswer w i o x = some w') :
    w'.cancelled = w.cancelled := by
  obtain ⟨lock, -, hw⟩ := Option.bind_eq_some_iff.1 h
  rcases Ledger.answer_cases hw with ⟨raw, y, -, rfl⟩ | ⟨-, rfl, -⟩
  · rfl
  · rfl

variable [DecidableEq ι]

theorem ledger_drop_iff {w w' : Ledger ι} {i : ι} {t : BundlerTrace} {o : Option Op} :
    ledgerRules.drop w i t o = some w' ↔
      w.cancelled = true ∧ suspended t o = true ∧ w' = { w with lock := lockDrop w.lock i } := by
  simp only [ledgerRules]
  split
  · rename_i hc
    rw [Option.some.injEq, eq_comm]
    exact ⟨fun h => ⟨hc.1, hc.2, h⟩, fun h => h.2.2⟩
  · rename_i hc
    exact ⟨fun h => (by cases h), fun h => absurd ⟨h.1, h.2.1⟩ hc⟩

/-! ## The order of the calls -/

variable {i : ι} {c₀ c : SubmitCall} {w w' : Ledger ι}

/-- Without a send a call alone leaves the pending nonce as it is. -/
theorem solo_pending (h : Solo ledgerRules i c₀ w c w')
    (hsend : ∀ raw x, ⟨.rpc (.sendRawTransaction raw), .ok x⟩ ∉ c.hist) : w'.pending = w.pending := by
  induction h with
  | refl => rfl
  | answer h live f o k hcur w' hw ih =>
    rw [← ih fun raw x hm => hsend raw x (List.mem_append_left _ hm)]
    rcases ledgerAnswer_cases hw with ⟨raw, y, he, -⟩ | ⟨-, hp, -⟩
    · exact absurd (by simp [← he]) (hsend raw y)
    · exact hp
  | act h live l => exact nomatch l
  | drop h live w' hw ih =>
    obtain ⟨-, -, rfl⟩ := ledger_drop_iff.1 hw
    exact ih hsend

omit [DecidableEq ι] in
/-- A call before its first question. -/
def fresh (A : Alloy) (b : Bundler) (req : ι → Request) (i : ι) : SubmitCall := ⟨[], calls A b req i, false⟩

omit [DecidableEq ι] in
/-- The calls whose place in the order is settled: they took the lock or read a nonce. -/
def Placed (b : Bundler) (t : BundlerTrace) : Prop := Phase.of t ≠ .before ∨ ∃ n, nonceRead b n ∈ t

/-- The call can take its turn on the shared state `w`, and leaves it as it was. -/
def Passes (A : Alloy) (b : Bundler) (req : ι → Request) (s : SubmitPool ι) (i : ι) (w : Ledger ι) : Prop :=
  Solo ledgerRules i (fresh A b req i) w (s.calls i) w

/-- The calls with a place, in an order in which they might have run one after the other. -/
structure Ordered (A : Alloy) (b : Bundler) (req : ι → Request) (n₀ : Nat) (s : SubmitPool ι) (order : List ι) :
    Prop where
  nodup : order.Nodup
  placed : ∀ i, i ∈ order ↔ Placed b (s.calls i).hist
  /-- The others can take their turn at any time. -/
  free : ∀ i, i ∉ order → ∀ w, Passes A b req s i w
  idle : s.world.lock = none → InTurn ledgerRules (fresh A b req) s.calls order (.start n₀) s.world
  /-- The holder is last, but for calls that read its new pending nonce. -/
  held : ∀ j, s.world.lock = some j → ∃ pre post w, order = pre ++ j :: post ∧
    InTurn ledgerRules (fresh A b req) s.calls pre (.start n₀) w ∧
    Solo ledgerRules j (fresh A b req j) w (s.calls j) s.world ∧
    (∀ i ∈ post, ∀ v, v.pending = s.world.pending → Passes A b req s i v) ∧
    ((Phase.of (s.calls j).hist).sent = false → post = [])

variable {s : SubmitPool ι} {order : List ι}

theorem Ordered.inTurn (h : Ordered A b req n₀ s order) :
    InTurn ledgerRules (fresh A b req) s.calls order (.start n₀) s.world := by
  rcases hl : s.world.lock with - | j
  · exact h.idle hl
  · obtain ⟨pre, post, w, rfl, h1, h2, h3, -⟩ := h.held j hl
    exact inTurn_append.2 ⟨w, h1, s.world, h2, inTurn_of_quiet fun i hi => h3 i hi s.world rfl⟩

/-- Call `i` in another state. -/
def moved (s : SubmitPool ι) (i : ι) (c : SubmitCall) (w : Ledger ι) : SubmitPool ι := ⟨Function.update s.calls i c, w⟩

@[simp] theorem moved_world : (moved s i c w).world = w := rfl

@[simp] theorem moved_self : (moved s i c w).calls i = c := by
  simp [moved]

theorem moved_of_ne {j : ι} (h : j ≠ i) : (moved s i c w).calls j = s.calls j := by
  simp [moved, h]

/-- Whether a call has a place is up to its history. -/
theorem placed_moved (h : ∀ j, j ∈ order ↔ Placed b (s.calls j).hist) (hi : i ∈ order ↔ Placed b c.hist) (j : ι) :
    j ∈ order ↔ Placed b ((moved s i c w).calls j).hist := by
  by_cases hji : j = i
  · subst hji
    rw [moved_self]
    exact hi
  · rw [moved_of_ne hji]
    exact h j

theorem inTurn_moved {u v : Ledger ι} (h : InTurn ledgerRules (fresh A b req) s.calls order u v) (hi : i ∉ order) :
    InTurn ledgerRules (fresh A b req) (moved s i c w).calls order u v := by
  refine h.mono fun j hj _ _ hsolo => ?_
  have hji : j ≠ i := fun he => hi (he ▸ hj)
  rw [moved_of_ne hji]
  exact hsolo

theorem Passes.moved {j : ι} {v : Ledger ι} (h : Passes A b req s j v) (hj : j ≠ i) :
    Passes A b req (moved s i c w) j v := by
  unfold Passes
  rw [moved_of_ne hj]
  exact h

/-- A step that any shared state allows and that changes none of them. -/
theorem Ordered.extend (h : Ordered A b req n₀ s order)
    (hsolo : ∀ v v', Solo ledgerRules i (fresh A b req i) v (s.calls i) v' →
      Solo ledgerRules i (fresh A b req i) v c v')
    (hplaced : Placed b c.hist ↔ Placed b (s.calls i).hist)
    (hsent : (Phase.of c.hist).sent = (Phase.of (s.calls i).hist).sent) :
    Ordered A b req n₀ (moved s i c s.world) order := by
  have hone (j : ι) (v v' : Ledger ι) (hj : Solo ledgerRules j (fresh A b req j) v (s.calls j) v') :
      Solo ledgerRules j (fresh A b req j) v ((moved s i c s.world).calls j) v' := by
    by_cases hji : j = i
    · subst hji
      rw [moved_self]
      exact hsolo v v' hj
    · rw [moved_of_ne hji]
      exact hj
  have hchain {us : List ι} {u v : Ledger ι} (hu : InTurn ledgerRules (fresh A b req) s.calls us u v) :
      InTurn ledgerRules (fresh A b req) (moved s i c s.world).calls us u v :=
    hu.mono fun j _ => hone j
  refine ⟨h.nodup, placed_moved h.placed ((h.placed i).trans hplaced.symm), ?_, ?_, ?_⟩
  · intro j hj v
    exact hone j v v (h.free j hj v)
  · intro hl
    rw [moved_world] at hl
    exact hchain (h.idle hl)
  · intro j hl
    rw [moved_world] at hl
    obtain ⟨pre, post, v, rfl, h1, h2, h3, h4⟩ := h.held j hl
    refine ⟨pre, post, v, rfl, hchain h1, hone j v _ h2, fun m hm v hp => hone m v v (h3 m hm v hp), ?_⟩
    by_cases hji : j = i
    · subst hji
      rw [moved_self, hsent]
      exact h4
    · rw [moved_of_ne hji]
      exact h4

/-- A call without a place takes the lock: it is last. -/
theorem Ordered.enter (h : Ordered A b req n₀ s order) (hi : i ∉ order) (hl : s.world.lock = none)
    (hw : w.lock = some i)
    (hsolo : Solo ledgerRules i (fresh A b req i) s.world (s.calls i) s.world →
      Solo ledgerRules i (fresh A b req i) s.world c w)
    (hplaced : Placed b c.hist) : Ordered A b req n₀ (moved s i c w) (order ++ [i]) := by
  refine ⟨?_, fun j => ?_, ?_, ?_, ?_⟩
  · exact List.nodup_append.2 ⟨h.nodup, by simp, fun j hj k hk => by
      rw [List.mem_singleton.1 hk]
      exact fun he => hi (he ▸ hj)⟩
  · rw [List.mem_append, List.mem_singleton]
    by_cases hji : j = i
    · subst hji
      rw [moved_self]
      exact iff_of_true (Or.inr rfl) hplaced
    · rw [moved_of_ne hji, ← h.placed j]
      simp [hji]
  · intro j hj v
    simp only [List.mem_append, List.mem_singleton, not_or] at hj
    exact (h.free j hj.1 v).moved hj.2
  · intro hnone
    rw [moved_world, hw] at hnone
    cases hnone
  · intro j hj
    rw [moved_world, hw, Option.some.injEq] at hj
    subst hj
    refine ⟨order, [], s.world, rfl, inTurn_moved (h.idle hl) hi, ?_, by simp, fun _ => rfl⟩
    rw [moved_self]
    exact hsolo (h.free i hi s.world)

/-- The holder goes on before its send is answered: it is last. -/
theorem Ordered.advance (h : Ordered A b req n₀ s order) (hl : s.world.lock = some i)
    (hsent : (Phase.of (s.calls i).hist).sent = false) (hw : w.lock = some i)
    (hsolo : ∀ v, Solo ledgerRules i (fresh A b req i) v (s.calls i) s.world →
      Solo ledgerRules i (fresh A b req i) v c w)
    (hplaced : Placed b c.hist) : Ordered A b req n₀ (moved s i c w) order := by
  obtain ⟨pre, post, v, rfl, h1, h2, -, h4⟩ := h.held i hl
  obtain rfl := h4 hsent
  have hi : i ∉ pre := fun hm => (List.nodup_append.1 h.nodup).2.2 i hm i (by simp) rfl
  refine ⟨h.nodup, placed_moved h.placed (iff_of_true (by simp) hplaced), ?_, ?_, ?_⟩
  · intro j hj v
    exact (h.free j hj v).moved fun he => hj (by simp [he])
  · intro hnone
    rw [moved_world, hw] at hnone
    cases hnone
  · intro j hj
    rw [moved_world, hw, Option.some.injEq] at hj
    subst hj
    refine ⟨pre, [], v, rfl, inTurn_moved h1 hi, ?_, by simp, fun _ => rfl⟩
    rw [moved_self]
    exact hsolo v h2

/-- The holder gives the lock back: those after it take their turn as before. -/
theorem Ordered.release (h : Ordered A b req n₀ s order) (hl : s.world.lock = some i) (hw : w.lock = none)
    (hp : w.pending = s.world.pending)
    (hsolo : ∀ v, Solo ledgerRules i (fresh A b req i) v (s.calls i) s.world →
      Solo ledgerRules i (fresh A b req i) v c w)
    (hplaced : Placed b c.hist) : Ordered A b req n₀ (moved s i c w) order := by
  obtain ⟨pre, post, v, rfl, h1, h2, h3, -⟩ := h.held i hl
  obtain ⟨-, hpost, hdisj⟩ := List.nodup_append.1 h.nodup
  have hi : i ∉ pre := fun hm => hdisj i hm i (by simp) rfl
  have hi' : i ∉ post := (List.nodup_cons.1 hpost).1
  refine ⟨h.nodup, placed_moved h.placed (iff_of_true (by simp) hplaced), ?_, fun _ => ?_, ?_⟩
  · intro j hj v
    exact (h.free j hj v).moved fun he => hj (by simp [he])
  · refine inTurn_append.2 ⟨v, inTurn_moved h1 hi, w, ?_, inTurn_of_quiet fun j hj => ?_⟩
    · rw [moved_self]
      exact hsolo v h2
    · have hji : j ≠ i := fun he => hi' (he ▸ hj)
      exact (h3 j hj w hp).moved hji
  · intro j hj
    rw [moved_world, hw] at hj
    cases hj

/-- A call that takes no lock reads the pending nonce: it stands where that nonce was current. -/
theorem Ordered.insert (h : Ordered A b req n₀ s order) (hi : i ∉ order)
    (hunsent : ∀ j, (Phase.of (s.calls j).hist).sent = false →
      ∀ raw x, ⟨.rpc (.sendRawTransaction raw), .ok x⟩ ∉ (s.calls j).hist)
    (hsolo : ∀ v, v.pending = s.world.pending → Solo ledgerRules i (fresh A b req i) v (s.calls i) v →
      Solo ledgerRules i (fresh A b req i) v c v)
    (hplaced : Placed b c.hist) : ∃ order', Ordered A b req n₀ (moved s i c s.world) order' := by
  have hnodup {order' : List ι} (hp : order'.Perm (i :: order)) : order'.Nodup :=
    hp.nodup_iff.2 (List.nodup_cons.2 ⟨hi, h.nodup⟩)
  have hmem {order' : List ι} (hp : order'.Perm (i :: order)) (j : ι) :
      j ∈ order' ↔ Placed b ((moved s i c s.world).calls j).hist := by
    rw [hp.mem_iff, List.mem_cons]
    by_cases hji : j = i
    · subst hji
      rw [moved_self]
      exact iff_of_true (Or.inl rfl) hplaced
    · rw [moved_of_ne hji, ← h.placed j]
      simp [hji]
  have hfree {order' : List ι} (hp : order'.Perm (i :: order)) (j : ι) (hj : j ∉ order') (v : Ledger ι) :
      Passes A b req (moved s i c s.world) j v := by
    rw [hp.mem_iff, List.mem_cons, not_or] at hj
    exact (h.free j hj.2 v).moved hj.1
  have hself (v : Ledger ι) (hp : v.pending = s.world.pending) : Passes A b req (moved s i c s.world) i v := by
    unfold Passes
    rw [moved_self]
    exact hsolo v hp (h.free i hi v)
  rcases hl : s.world.lock with - | j
  · have hp : (order ++ [i]).Perm (i :: order) := List.perm_append_singleton i order
    refine ⟨order ++ [i], hnodup hp, hmem hp, hfree hp, fun _ => ?_, fun j hj => ?_⟩
    · exact inTurn_append.2 ⟨s.world, inTurn_moved (h.idle hl) hi, s.world, hself s.world rfl, rfl⟩
    · rw [moved_world, hl] at hj
      cases hj
  obtain ⟨pre, post, v, rfl, h1, h2, h3, h4⟩ := h.held j hl
  have hj : j ≠ i := fun he => hi (by simp [he])
  have hpre : i ∉ pre := fun hm => hi (by simp [hm])
  rcases hsent : (Phase.of (s.calls j).hist).sent with - | -
  · -- the holder has not sent: its turn comes after
    obtain rfl := h4 hsent
    have hp : ((pre ++ [i]) ++ [j]).Perm (i :: (pre ++ [j])) := by
      rw [List.append_assoc]
      exact List.perm_middle
    have hpend : v.pending = s.world.pending := (solo_pending h2 (hunsent j hsent)).symm
    refine ⟨(pre ++ [i]) ++ [j], hnodup hp, hmem hp, hfree hp, fun hnone => ?_, fun j' hj' => ?_⟩
    · rw [moved_world, hl] at hnone
      cases hnone
    · rw [moved_world, hl, Option.some.injEq] at hj'
      subst hj'
      refine ⟨pre ++ [i], [], v, rfl, ?_, ?_, by simp, fun _ => rfl⟩
      · exact inTurn_append.2 ⟨v, inTurn_moved h1 hpre, v, hself v hpend, rfl⟩
      · rw [moved_of_ne hj]
        exact h2
  · have heq : pre ++ j :: (post ++ [i]) = (pre ++ j :: post) ++ [i] := by simp
    have hp : (pre ++ j :: (post ++ [i])).Perm (i :: (pre ++ j :: post)) := by
      rw [heq]
      exact List.perm_append_singleton i _
    refine ⟨pre ++ j :: (post ++ [i]), hnodup hp, hmem hp, hfree hp, fun hnone => ?_, fun j' hj' => ?_⟩
    · rw [moved_world, hl] at hnone
      cases hnone
    · rw [moved_world, hl, Option.some.injEq] at hj'
      subst hj'
      refine ⟨pre, post ++ [i], v, rfl, inTurn_moved h1 hpre, ?_, fun m hm w hw => ?_, fun hc => ?_⟩
      · rw [moved_of_ne hj]
        exact h2
      · rcases List.mem_append.1 hm with hm | hm
        · exact (h3 m hm w hw).moved fun he => hi (by simp [← he, hm])
        · rw [List.mem_singleton.1 hm]
          exact hself w hw
      · rw [moved_of_ne hj, hsent] at hc
        cases hc

/-! ## Every step finds its place -/

section Allowed

variable {submit : Bool} {ph : Phase}

omit [DecidableEq ι] in
theorem before_of_lock (ha : Phase.allow A b submit ph .lock) : ph = .before ∧ submit = true := by
  cases ph with
  | before =>
    rcases ha with ha | ⟨hs, -⟩ | ⟨-, ha | ⟨_, ha⟩⟩
    · exact absurd ha id
    · exact ⟨rfl, hs⟩
    · cases ha
    · cases ha
  | locked => rcases ha with ha | ha <;> cases ha
  | read n => rcases ha with ⟨_, ha, -⟩ | ha <;> cases ha
  | signed env => cases ha
  | answered sent => cases ha
  | left sent => exact absurd ha.2 id

omit [DecidableEq ι] in
theorem allow_pendingNonce {addr : Address} (ha : Phase.allow A b submit ph (.rpc (.pendingNonce addr))) :
    addr = b.signerAddress ∧ (ph = .locked ∨ (ph = .before ∧ submit = false)) := by
  cases ph with
  | before =>
    rcases ha with ha | ⟨-, ha⟩ | ⟨hs, ha | ⟨_, ha⟩⟩
    · exact absurd ha id
    · cases ha
    · cases ha
      exact ⟨rfl, Or.inr ⟨rfl, hs⟩⟩
    · cases ha
  | locked =>
    rcases ha with ha | ha
    · cases ha
      exact ⟨rfl, Or.inl rfl⟩
    · cases ha
  | read n => rcases ha with ⟨_, ha, -⟩ | ha <;> cases ha
  | signed env => cases ha
  | answered sent => cases ha
  | left sent => exact absurd ha.2 id

end Allowed

/-- Counts the nonce reads. -/
def noncePrice : OpKind → Nat
  | .pendingNonce => 1
  | _ => 0

theorem nonceBudget (n : Nat) (submit : Bool) : callBudget noncePrice n submit ≤ 1 := by
  cases submit <;> simp [callBudget, checkBudget, opBudget, sendBudget, receiptBudget, receiptCost, noncePrice]

/-- A call about to read its nonce has not read one. -/
theorem not_nonceRead_of_asks {r : Request} {t : BundlerTrace} {addr : Address}
    {k : (Op.rpc (.pendingNonce addr)).Ans → M SignedTxResp}
    (h : After (r.call A b) t (.ask (.rpc (.pendingNonce addr)) k)) (n : U64) : nonceRead b n ∉ t := by
  intro hm
  have hcosts : Costs (priceOf noncePrice) (r.call A b) _ := costs_buildInner
  have hspent := hcosts.spent_le (h.snoc (.ok 0))
  have hbudget := nonceBudget (min r.ops.length b.cfg.maxBatchSize) r.opts.submit
  have hpaid : priceOf noncePrice (.rpc (.pendingNonce b.signerAddress)) ≤ spent (priceOf noncePrice) t :=
    price_le_spent hm
  rw [spent_append] at hspent
  simp only [spent_cons, spent_nil] at hspent
  have h1 : priceOf noncePrice (.rpc (.pendingNonce addr)) = 1 := rfl
  have h2 : priceOf noncePrice (.rpc (.pendingNonce b.signerAddress)) = 1 := rfl
  omega

omit [DecidableEq ι] in
/-- A call in the section has a place. -/
theorem placed_of_inside {t : BundlerTrace} (hin : (Phase.of t).inside = true) : Phase.of t ≠ .before := by
  intro hb
  rw [hb] at hin
  cases hin

section Step

variable (hr : Reachable A b req n₀ s) (h : Ordered A b req n₀ s order)

include hr h

/-- One answer. -/
theorem Ordered.answered {f : (o : Op) → o.Ans} {o : Op} {k : o.Ans → M SignedTxResp}
    (live : (s.calls i).dropped = false) (hcur : (s.calls i).cur = .ask o k)
    (hw : ledgerAnswer s.world i o (f o) = some w) :
    ∃ order', Ordered A b req n₀ (s.answered i ⟨o, f o⟩ (k (f o)) w) order' := by
  have ha : Phase.allow A b (req i).opts.submit (Phase.of (s.calls i).hist) o :=
    hr.allowed (fun i => obeys_call A b (req i)) hcur
  have hstep := answer_step hr hcur (f o)
  have hagrees := phaseAgrees_of_reach hr i
  have hafter := hr.after i
  rw [hcur] at hafter
  -- the same step of call `i` on any shared state that allows it
  have hanswer (v v' u : Ledger ι) (hu : ledgerAnswer v' i o (f o) = some u)
      (hsolo : Solo ledgerRules i (fresh A b req i) v (s.calls i) v') :
      Solo ledgerRules i (fresh A b req i) v
        ⟨(s.calls i).hist ++ [⟨o, f o⟩], k (f o), (s.calls i).dropped⟩ u :=
    .answer hsolo live f o k hcur u hu
  have hstays (hne : Phase.of (s.calls i).hist ≠ .before) : Placed b ((s.calls i).hist ++ [⟨o, f o⟩]) := by
    refine Or.inl ?_
    rw [Phase.of_snoc]
    exact hstep.lock_iff.1.2 (Or.inl hne)
  have hholder (hin : (Phase.of (s.calls i).hist).inside = true) : s.world.lock = some i :=
    (lock_iff hr i).2 ⟨live, hin⟩
  show ∃ order', Ordered A b req n₀
    (moved s i ⟨(s.calls i).hist ++ [⟨o, f o⟩], k (f o), (s.calls i).dropped⟩ w) order'
  have hmove := ledgerMove hw
  generalize he : (⟨o, f o⟩ : Event Op Op.Ans) = e at hmove hanswer hstays hstep
  cases hmove with
  | lock hfree =>
    obtain rfl : o = .lock := congrArg Sigma.fst he
    obtain ⟨hbefore, hsubmit⟩ := before_of_lock ha
    have hi : i ∉ order := by
      rw [h.placed i]
      rintro (hne | ⟨n, hn⟩)
      · exact hne hbefore
      · have hreads := hagrees.reads
        rw [hbefore] at hreads
        exact hreads hsubmit n hn
    refine ⟨order ++ [i], h.enter hi hfree rfl (hanswer _ _ _ hw) (Or.inl ?_)⟩
    rw [Phase.of_snoc, hbefore]
    exact nofun
  | unlock =>
    obtain rfl : o = .unlock := congrArg Sigma.fst he
    obtain ⟨hin, -⟩ := (bracketed A b (req i).opts.submit).leave _ () ha
    exact ⟨order, h.release (hholder hin) rfl rfl (fun v => hanswer v _ _ hw) (hstays (placed_of_inside hin))⟩
  | read addr n hn =>
    obtain rfl : o = .rpc (.pendingNonce addr) := congrArg Sigma.fst he
    have hf : f (.rpc (.pendingNonce addr)) = .ok n := eq_of_heq (Sigma.mk.inj he).2
    obtain ⟨rfl, hph | ⟨hph, hsign⟩⟩ := allow_pendingNonce ha
    · have hin : (Phase.of (s.calls i).hist).inside = true := by rw [hph]; rfl
      exact ⟨order, h.advance (hholder hin) (by rw [hph]; rfl) (hholder hin) (fun v => hanswer v _ _ hw)
        (hstays (placed_of_inside hin))⟩
    · have hi : i ∉ order := by
        rw [h.placed i]
        rintro (hne | ⟨m, hm⟩)
        · exact hne hph
        · exact not_nonceRead_of_asks hafter m hm
      refine h.insert hi (fun j hj raw x hm => ?_) (fun v hp hv => hanswer v v v ?_ hv) (Or.inr ⟨n, by simp⟩)
      · rw [(phaseAgrees_of_reach hr j).sent.2 ⟨raw, x, hm⟩] at hj
        cases hj
      · rw [hf]
        have hnv : n.toNat = v.pending := hn.trans hp.symm
        simp [ledgerAnswer, lockAnswer, Ledger.answer, hnv]
  | sent raw y =>
    obtain rfl : o = .rpc (.sendRawTransaction raw) := congrArg Sigma.fst he
    obtain ⟨env, hph, -⟩ := hstep.of_send
    have hin : (Phase.of (s.calls i).hist).inside = true := by rw [hph]; rfl
    exact ⟨order, h.advance (hholder hin) (by rw [hph]; rfl) (hholder hin) (fun v => hanswer v _ _ hw)
      (hstays (placed_of_inside hin))⟩
  | quiet o' x' hq hlock hunlock hread hsend =>
    obtain rfl : o = o' := congrArg Sigma.fst he
    have hf : f o = x' := eq_of_heq (Sigma.mk.inj he).2
    subst hf
    refine ⟨order, h.extend (fun v v' => hanswer v v' v' (hq v')) ?_ ?_⟩
    · refine or_congr ?_ (exists_congr fun n => ?_)
      · rw [Phase.of_snoc, hstep.lock_iff.1]
        exact ⟨fun hne => hne.resolve_right fun hc => hlock (congrArg Sigma.fst hc), Or.inl⟩
      · rw [List.mem_append, List.mem_singleton]
        exact ⟨fun hm => hm.resolve_right fun hc => hread _ n hc.symm, Or.inl⟩
    · rw [Phase.of_snoc, Bool.eq_iff_iff, hstep.sent_iff]
      refine ⟨fun hs => hs.resolve_right ?_, Or.inl⟩
      rintro ⟨raw, y, hc⟩
      exact hsend raw y hc

end Step

/-- The calls of every reachable state stand in some order, as long as the token has not fired. -/
theorem exists_ordered (hr : Reachable A b req n₀ s) (hc : s.world.cancelled = false) :
    ∃ order, Ordered A b req n₀ s order := by
  refine hr.inv (I := fun s => s.world.cancelled = false → ∃ order, Ordered A b req n₀ s order) ?_ ?_ hc
  · intro _
    refine ⟨[], List.nodup_nil, fun i => ?_, fun i _ w => .refl, fun _ => rfl, fun j hj => (by cases hj)⟩
    simp [Placed, Pool.start, Phase.of]
  · rintro s s' l hr - hm ih hc'
    cases hm with
    | answer i f o k w live hcur hw =>
      rw [Pool.answered_world, ledgerAnswer_cancelled hw] at hc'
      obtain ⟨order, h⟩ := ih hc'
      exact h.answered hr live hcur hw
    | act i l => cases l
    | drop i w live hw =>
      -- only a fired token drops a call
      obtain ⟨hfired, -, rfl⟩ := ledger_drop_iff.1 hw
      exact absurd (hfired.symm.trans hc') (by simp)
    | env e w hw =>
      cases hw
      cases hc'

/-- Only finitely many calls have moved. -/
theorem exists_touched (hr : Reachable A b req n₀ s) : ∃ l : List ι, ∀ i, i ∉ l → s.calls i = fresh A b req i := by
  refine hr.inv (I := fun s => ∃ l : List ι, ∀ i, i ∉ l → s.calls i = fresh A b req i) ⟨[], fun _ _ => rfl⟩ ?_
  rintro s s' l - - hm ⟨us, hus⟩
  cases hm with
  | answer i f o k w live hcur hw =>
    refine ⟨i :: us, fun j hj => ?_⟩
    simp only [List.mem_cons, not_or] at hj
    rw [Pool.answered_of_ne _ _ _ _ hj.1]
    exact hus j hj.2
  | act i l => exact nomatch l
  | drop i w live hw =>
    refine ⟨i :: us, fun j hj => ?_⟩
    simp only [List.mem_cons, not_or] at hj
    rw [Pool.cut_of_ne _ _ hj.1]
    exact hus j hj.2
  | env e w hw => exact ⟨us, hus⟩

/-- A run has a serial one, as long as the token has not fired. -/
theorem exists_oneAtATime (hr : Reachable A b req n₀ s) (hc : s.world.cancelled = false) :
    ∃ order, OneAtATime ledgerRules (.start (calls A b req) (.start n₀)) order s := by
  obtain ⟨order, ho⟩ := exists_ordered hr hc
  obtain ⟨touched, ht⟩ := exists_touched hr
  let rest := touched.dedup.filter (· ∉ order)
  have hrest (i : ι) (hi : i ∈ rest) : i ∉ order := by
    simpa using (List.mem_filter.1 hi).2
  have hturn : InTurn ledgerRules (fresh A b req) s.calls (order ++ rest) (.start n₀) s.world :=
    inTurn_append.2 ⟨s.world, ho.inTurn, inTurn_of_quiet fun i hi => ho.free i (hrest i hi) s.world⟩
  refine ⟨order ++ rest, ?_⟩
  refine InTurn.oneAtATime (s := .start (calls A b req) (Ledger.start n₀)) hturn ?_ (fun _ _ => rfl) ?_
  · exact List.nodup_append.2 ⟨ho.nodup, (List.nodup_dedup _).filter _, fun i hi j hj he => hrest j hj (he ▸ hi)⟩
  · intro i hi
    refine ht i fun hm => hi (List.mem_append.2 ?_)
    by_cases hio : i ∈ order
    · exact Or.inl hio
    · exact Or.inr (List.mem_filter.2 ⟨List.mem_dedup.2 hm, by simpa using hio⟩)

/-! ## The token -/

/-- Once the token has fired nobody takes the lock. In the code a call that is being polled as the token
fires still may, in that poll; and where it takes the lock from a call dropped meanwhile, no serial run
does the same, since it asked its first questions before the token fired, so before that drop. -/
def locksBeforeToken (s : SubmitPool ι) : Label ι Empty Unit Op Op.Ans → Bool
  | .answer i _ => !s.world.cancelled || (s.calls i).pending != some .lock
  | _ => true

/-- `s₁` is `s`, had the token not fired. -/
structure Unfired (s s₁ : SubmitPool ι) : Prop where
  calls : ∀ i, s₁.calls i = { s.calls i with dropped := false }
  pending : s₁.world.pending = s.world.pending
  accepted : s₁.world.accepted = s.world.accepted
  cancelled : s₁.world.cancelled = false
  live : s.world.cancelled = false → ∀ i, (s.calls i).dropped = false
  /-- A dropped holder still holds the lock there. -/
  lock : ∀ i, s.world.lock = some i ↔ s₁.world.lock = some i ∧ (s.calls i).dropped = false

variable {s₁ : SubmitPool ι}

omit [DecidableEq ι] in
/-- Where no call was dropped the lock is free in both or in neither. -/
theorem Unfired.lock_none (h : Unfired s s₁) (hc : s.world.cancelled = false) (hl : s.world.lock = none) :
    s₁.world.lock = none := by
  rcases hl₁ : s₁.world.lock with - | j
  · rfl
  have hj := (h.lock j).2 ⟨hl₁, h.live hc j⟩
  rw [hl] at hj
  cases hj

theorem Unfired.answered (h : Unfired s s₁) {e : Event Op Op.Ans} {q : M SignedTxResp} {w₁ : Ledger ι}
    (hc : w.cancelled = s.world.cancelled) (hc₁ : w₁.cancelled = false) (hp : w₁.pending = w.pending)
    (ha : w₁.accepted = w.accepted)
    (hl : ∀ j, w.lock = some j ↔ w₁.lock = some j ∧ (s.calls j).dropped = false) :
    Unfired (s.answered i e q w) (s₁.answered i e q w₁) := by
  refine ⟨fun j => ?_, hp, ha, hc₁, fun hw j => ?_, fun j => ?_⟩
  · by_cases hj : j = i
    · subst hj
      rw [Pool.answered_self, Pool.answered_self, h.calls]
    · rw [Pool.answered_of_ne _ _ _ _ hj, Pool.answered_of_ne _ _ _ _ hj]
      exact h.calls j
  · rw [Pool.answered_dropped]
    exact h.live (hc.symm.trans hw) j
  · rw [Pool.answered_dropped]
    exact hl j

/-- One answer. -/
theorem Unfired.answer (h : Unfired s s₁) {o : Op} {x : o.Ans} (q : M SignedTxResp)
    (live : (s.calls i).dropped = false) (hok : o = .lock → s.world.cancelled = false)
    (hw : ledgerAnswer s.world i o x = some w) :
    ∃ w₁, ledgerAnswer s₁.world i o x = some w₁ ∧ Unfired (s.answered i ⟨o, x⟩ q w) (s₁.answered i ⟨o, x⟩ q w₁) := by
  have hc := ledgerAnswer_cancelled hw
  have hm := ledgerMove hw
  generalize he : (⟨o, x⟩ : Event Op Op.Ans) = e at hm ⊢
  cases hm with
  | lock hfree =>
    cases he
    have hfree₁ := h.lock_none (hok rfl) hfree
    refine ⟨{ s₁.world with lock := some i }, ?_, h.answered hc h.cancelled h.pending h.accepted fun j => ?_⟩
    · simp [ledgerAnswer, lockAnswer, Ledger.answer, hfree₁]
    · refine ⟨fun hj => ⟨hj, ?_⟩, And.left⟩
      cases hj
      exact live
  | unlock =>
    cases he
    refine ⟨{ s₁.world with lock := none }, rfl, h.answered hc h.cancelled h.pending h.accepted fun j => ?_⟩
    simp
  | read addr n hn =>
    cases he
    have hn₁ : n.toNat = s₁.world.pending := hn.trans h.pending.symm
    refine ⟨s₁.world, ?_, h.answered hc h.cancelled h.pending h.accepted h.lock⟩
    simp [ledgerAnswer, lockAnswer, Ledger.answer, hn₁]
  | sent raw y =>
    cases he
    refine ⟨_, rfl, h.answered hc h.cancelled ?_ ?_ h.lock⟩
    · rw [h.pending]
    · rw [h.accepted]
  | quiet o' x' hq hlock hunlock hread hsend =>
    cases he
    exact ⟨s₁.world, hq _, h.answered hc h.cancelled h.pending h.accepted h.lock⟩

/-- One drop. -/
theorem Unfired.cut (h : Unfired s s₁) (hc : s.world.cancelled = true) :
    Unfired (s.cut i { s.world with lock := lockDrop s.world.lock i }) s₁ := by
  refine ⟨fun j => ?_, h.pending, h.accepted, h.cancelled, fun hw => ?_, fun j => ?_⟩
  · by_cases hj : j = i
    · subst hj
      rw [Pool.cut_self]
      exact h.calls j
    · rw [Pool.cut_of_ne _ _ hj]
      exact h.calls j
  · exact absurd (hc.symm.trans hw) (by simp)
  · by_cases hj : j = i
    · subst hj
      simp only [Pool.cut_world, Pool.cut_self, lockDrop, Bool.true_eq_false, and_false, iff_false]
      split
      · simp
      · assumption
    · rw [Pool.cut_of_ne _ _ hj, ← h.lock j]
      simp only [Pool.cut_world, lockDrop]
      split
      · rename_i hi
        simp [hi, Ne.symm hj]
      · exact Iff.rfl

/-- **A run without its shutdown** is a run: the same answers to the same calls. -/
theorem exists_unfired (hr : Reach ledgerRules locksBeforeToken (.start (calls A b req) (.start n₀)) s) :
    ∃ s₁, Reachable A b req n₀ s₁ ∧ Unfired s s₁ := by
  refine hr.simulated (I := Unfired) ⟨fun _ => rfl, rfl, rfl, rfl, fun _ _ => rfl, fun i => ?_⟩ ?_
  · simp [Pool.start]
  intro s s' l s₁ _ hok hm _ h
  cases hm with
  | answer i f o k w live hcur hw =>
    have hlock (ho : o = .lock) : s.world.cancelled = false := by
      subst ho
      simpa [locksBeforeToken, Call.pending, hcur] using hok
    obtain ⟨w₁, hw₁, h'⟩ := h.answer (k (f o)) live hlock hw
    have hi := h.calls i
    have hstep : Moves ledgerRules s₁ (.answer i f) (s₁.answered i ⟨o, f o⟩ (k (f o)) w₁) :=
      .answer i f o k w₁ (by rw [hi]) (by rw [hi]; exact hcur) hw₁
    exact ⟨_, .step _ .init rfl hstep.step_eq, h'⟩
  | act i l => cases l
  | drop i w live hw =>
    obtain ⟨hc, -, rfl⟩ := ledger_drop_iff.1 hw
    exact ⟨s₁, .init, h.cut hc⟩
  | env e w hw =>
    cases hw
    exact ⟨s₁, .init, h.calls, h.pending, h.accepted, h.cancelled, fun hc => absurd hc (by simp), h.lock⟩

/-- Calls that stand at an `.await` are dropped one after the other. -/
theorem foldlM_drop (hc : s.world.cancelled = true) {is : List ι} (hnodup : is.Nodup) {u : SubmitPool ι}
    (hin : ∀ i ∈ is, (u.calls i).dropped = false ∧ suspended (u.calls i).hist (u.calls i).pending = true ∧
      s.calls i = { u.calls i with dropped := true })
    (hout : ∀ i, i ∉ is → s.calls i = u.calls i)
    (hlock : ∀ i, s.world.lock = some i ↔ u.world.lock = some i ∧ i ∉ is)
    (hworld : { u.world with lock := s.world.lock } = s.world) :
    (is.map Label.drop).foldlM ledgerRules.step u = some s := by
  induction is generalizing u with
  | nil =>
    have hcalls : u.calls = s.calls := funext fun i => (hout i (by simp)).symm
    have hl : u.world.lock = s.world.lock := Option.ext fun i => by simpa using (hlock i).symm
    have hu : u = ⟨s.calls, { u.world with lock := s.world.lock }⟩ := by
      rw [← hcalls, ← hl]
    rw [hu, hworld]
    rfl
  | cons i is ih =>
    obtain ⟨hi, his⟩ := List.nodup_cons.1 hnodup
    obtain ⟨live, hsus, hcall⟩ := hin i List.mem_cons_self
    have hu : u.world.cancelled = true := by
      rw [← hworld] at hc
      exact hc
    have hstep : ledgerRules.step u (.drop i) = some (u.cut i { u.world with lock := lockDrop u.world.lock i }) := by
      simp [Rules.step, live, ledger_drop_iff.2 ⟨hu, hsus, rfl⟩]
    rw [List.map_cons, List.foldlM_cons, hstep]
    refine ih his ?_ ?_ ?_ hworld
    · intro j hj
      have hji : j ≠ i := fun he => hi (he ▸ hj)
      rw [Pool.cut_of_ne _ _ hji]
      exact hin j (List.mem_cons_of_mem _ hj)
    · intro j hj
      by_cases hji : j = i
      · subst hji
        rw [Pool.cut_self]
        exact hcall
      · rw [Pool.cut_of_ne _ _ hji]
        exact hout j (by simp [hji, hj])
    · intro j
      rw [hlock j, Pool.cut_world, lockDrop]
      by_cases hji : j = i
      · subst hji
        simp only [List.mem_cons, true_or, not_true, and_false, false_iff, not_and]
        split
        · simp
        · exact fun h => absurd h ‹_›
      · simp only [List.mem_cons, hji, false_or]
        split
        · rename_i hl
          simp [hl, Ne.symm hji]
        · exact Iff.rfl

omit [DecidableEq ι] in
/-- Where the token has not fired the two are one. -/
theorem Unfired.eq (h : Unfired s s₁) (hc : s.world.cancelled = false) : s₁ = s := by
  have hcalls : s₁.calls = s.calls := by
    funext i
    rw [h.calls, ← h.live hc i]
  have hlock : s₁.world.lock = s.world.lock := by
    refine Option.ext fun i => ?_
    rw [h.lock i]
    exact (and_iff_left (h.live hc i)).symm
  obtain ⟨calls, lock, pending, accepted, cancelled⟩ := s₁
  obtain ⟨calls', lock', pending', accepted', cancelled'⟩ := s
  obtain rfl : calls = calls' := hcalls
  obtain rfl : lock = lock' := hlock
  obtain rfl : pending = pending' := h.pending
  obtain rfl : accepted = accepted' := h.accepted
  obtain rfl : cancelled = cancelled' := h.cancelled.trans hc.symm
  rfl

/-- The token fires, and the calls it cut are dropped. -/
theorem Unfired.shutdown (h : Unfired s s₁) (hr : Reachable A b req n₀ s) (hc : s.world.cancelled = true) :
    ∃ drops : List ι, (.env () :: drops.map Label.drop).foldlM ledgerRules.step s₁ = some s := by
  obtain ⟨touched, ht⟩ := exists_touched hr
  let drops := touched.dedup.filter fun i => (s.calls i).dropped
  have hmem (i : ι) : i ∈ drops ↔ (s.calls i).dropped = true := by
    refine List.mem_filter.trans ⟨And.right, fun hd => ⟨List.mem_dedup.2 ?_, hd⟩⟩
    by_contra hi
    rw [ht i hi] at hd
    cases hd
  refine ⟨drops, ?_⟩
  rw [List.foldlM_cons]
  refine foldlM_drop (u := { s₁ with world := { s₁.world with cancelled := true } }) hc
    ((List.nodup_dedup _).filter _) (fun i hi => ?_) (fun i hi => ?_) (fun i => ?_) ?_
  · have hd := (hmem i).1 hi
    show (s₁.calls i).dropped = false ∧ suspended (s₁.calls i).hist (s₁.calls i).pending = true ∧
      s.calls i = { s₁.calls i with dropped := true }
    rw [h.calls]
    refine ⟨rfl, suspended_of_dropped hr hd, ?_⟩
    rw [← hd]
  · show s.calls i = s₁.calls i
    rw [h.calls, ← Bool.eq_false_of_not_eq_true fun hd => hi ((hmem i).2 hd)]
  · rw [h.lock i, hmem i, Bool.not_eq_true]
  · show (⟨s.world.lock, s₁.world.pending, s₁.world.accepted, true⟩ : Ledger ι) = s.world
    rw [h.pending, h.accepted, ← hc]

/-- **Every run has a serial one.** Whatever state any number of calls of either mode reach, in any
interleaving and with any answers, the token fired at any time after the last call took the lock: they
also reach it one after the other, and if the token fired, it did so after the last of them, with only
drops behind it. Every history, every result, the lock, the pending nonce and the accepted transactions
in their order are those of that serial run. -/
theorem serialisable (A : Alloy) (b : Bundler) (req : ι → Request) (n₀ : Nat) (s : SubmitPool ι)
    (h : Reach ledgerRules locksBeforeToken (.start (calls A b req) (.start n₀)) s) :
    ∃ (s₁ : SubmitPool ι) (order : List ι) (shutdown : List (Label ι Empty Unit Op Op.Ans)),
      OneAtATime ledgerRules (.start (calls A b req) (.start n₀)) order s₁ ∧ s₁.world.cancelled = false ∧
      (shutdown = [] ∨ ∃ drops : List ι, shutdown = .env () :: drops.map .drop) ∧
      shutdown.foldlM ledgerRules.step s₁ = some s := by
  have hr : Reachable A b req n₀ s := h.mono fun _ _ _ => rfl
  obtain ⟨s₁, hr₁, hu⟩ := exists_unfired h
  obtain ⟨order, hserial⟩ := exists_oneAtATime hr₁ hu.cancelled
  rcases hc : s.world.cancelled with - | -
  · obtain rfl := hu.eq hc
    exact ⟨s₁, order, [], hserial, hc, Or.inl rfl, rfl⟩
  · obtain ⟨drops, hrun⟩ := hu.shutdown hr hc
    exact ⟨s₁, order, _, hserial, hu.cancelled, Or.inr ⟨drops, rfl⟩, hrun⟩

/-- The first submit in full with the sign-only call in its middle, then the second up to its receipt,
where the token cuts it: the sign-only call could also have had its turn alone, and the token fires
behind all three. -/
theorem serialisable_threeCalls : ∃ (s s₁ : SubmitPool (Fin 3)) (order drops : List (Fin 3)),
    Reachable alloy testBundler threeCalls 7 s ∧ s.world.accepted.length = 2 ∧ s.world.cancelled = true ∧
      (s.calls 1).dropped = true ∧ (∀ i, (returned (s.calls i)).isSome) ∧
      OneAtATime ledgerRules (.start (calls alloy testBundler threeCalls) (.start 7)) order s₁ ∧
      Reachable alloy testBundler threeCalls 7 s₁ ∧ s₁.world.cancelled = false ∧
      (.env () :: drops.map Label.drop).foldlM ledgerRules.step s₁ = some s := by
  obtain ⟨s, hs, hp⟩ := exists_reach_of_run ledgerRules locksBeforeToken
    (.start (calls alloy testBundler threeCalls) (.start 7)) (threeCallsRun.dropLast ++ [.env (), .drop 1])
    (fun s => s.world.accepted.length == 2 && s.world.cancelled && (s.calls 1).dropped &&
      decide (∀ i, (returned (s.calls i)).isSome)) (by decide)
  simp only [Bool.and_eq_true, beq_iff_eq, decide_eq_true_eq] at hp
  obtain ⟨⟨⟨hacc, hfired⟩, hdropped⟩, hret⟩ := hp
  obtain ⟨s₁, order, shutdown, hserial, hc, rfl | ⟨drops, rfl⟩, hrun⟩ :=
    serialisable alloy testBundler threeCalls 7 s hs
  · cases hrun
    rw [hc] at hfired
    cases hfired
  · exact ⟨s, s₁, order, drops, hs.mono fun _ _ _ => rfl, hacc, hfired, hdropped, hret, hserial,
      hserial.reach .init, hc, hrun⟩

end EtheraBundler

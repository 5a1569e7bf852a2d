import EtheraBundler.Lib.Protocol
import Mathlib.Logic.Function.Basic
/-!
# Pools of concurrent calls

Any number of calls `ι`, each running its own interaction program, over one shared world. The
calls touch the world only through the answers they get, so one step is one answer, whoever's
turn it is; besides, the world may act on a pending question without answering it, move on its
own, and drop a call where it stands.

* `Rules.step` — one step, executable; `Moves`, `step_moves` — all that a step can do.
* `Reach` — the states of all runs whose steps satisfy `ok`; `Reach.inv` — the invariant rule.
* `Reach.after`, `Reach.obeys`, `Reach.allowed` — every call of a reachable pool is where its own
  program is after its own answers, whatever the others do.
* `Reach.simulated` — runs matched step for step by runs of another pool.
* `Mutex`, `Bracketed`, `holder_iff` — **mutual exclusion**: under rules that treat `holder` as a
  lock, the holder is exactly the live call inside its bracket.
-/

namespace Interact

open Prog

variable {ι W L E Op σ : Type} {Ans : Op → Type} {ε α : Type}

/-- A call: what it was answered, what is left of it, and whether its caller dropped it. -/
structure Call (Op : Type) (Ans : Op → Type) (ε α : Type) where
  hist : Trace Op Ans
  cur : Prog Op Ans ε α
  dropped : Bool

/-- The question a call is waiting on. -/
def Call.pending (c : Call Op Ans ε α) : Option Op :=
  match c.cur with
  | .ask o _ => some o
  | _ => none

structure Pool (ι W Op : Type) (Ans : Op → Type) (ε α : Type) where
  calls : ι → Call Op Ans ε α
  world : W

/-- How the world reacts; `none` where the step is impossible. -/
structure Rules (ι W L E Op : Type) (Ans : Op → Type) where
  /-- Question `o` of call `i`, asked after `t`, is answered `x`. -/
  answer : W → ι → Trace Op Ans → (o : Op) → Ans o → Option W
  /-- Something happens to the pending question without answering it. -/
  act : W → ι → Trace Op Ans → Op → L → Option W
  /-- Call `i` is dropped after `t`, at its pending question if it has one. -/
  drop : W → ι → Trace Op Ans → Option Op → Option W
  env : W → E → Option W

/-- Whose turn it is. The answer is a table: the pending question picks its row. -/
inductive Label (ι L E Op : Type) (Ans : Op → Type) where
  | answer (i : ι) (f : (o : Op) → Ans o)
  | act (i : ι) (l : L)
  | drop (i : ι)
  | env (e : E)

namespace Pool

/-- All calls before their first question. -/
def start (prog : ι → Prog Op Ans ε α) (w : W) : Pool ι W Op Ans ε α := ⟨fun i => ⟨[], prog i, false⟩, w⟩

variable [DecidableEq ι]

/-- Call `i` got the answer `e` and goes on as `q`. -/
def answered (s : Pool ι W Op Ans ε α) (i : ι) (e : Event Op Ans) (q : Prog Op Ans ε α) (w : W) :
    Pool ι W Op Ans ε α :=
  ⟨Function.update s.calls i ⟨(s.calls i).hist ++ [e], q, (s.calls i).dropped⟩, w⟩

/-- Call `i` is no more. -/
def cut (s : Pool ι W Op Ans ε α) (i : ι) (w : W) : Pool ι W Op Ans ε α :=
  ⟨Function.update s.calls i { s.calls i with dropped := true }, w⟩

variable (s : Pool ι W Op Ans ε α) (i j : ι) (e : Event Op Ans) (q : Prog Op Ans ε α) (w : W)

@[simp] theorem answered_world : (s.answered i e q w).world = w := rfl
@[simp] theorem cut_world : (s.cut i w).world = w := rfl

@[simp] theorem answered_self :
    (s.answered i e q w).calls i = ⟨(s.calls i).hist ++ [e], q, (s.calls i).dropped⟩ :=
  Function.update_self ..

@[simp] theorem cut_self : (s.cut i w).calls i = { s.calls i with dropped := true } := Function.update_self ..

variable {i j}

theorem answered_of_ne (h : j ≠ i) : (s.answered i e q w).calls j = s.calls j := Function.update_of_ne h ..

theorem cut_of_ne (h : j ≠ i) : (s.cut i w).calls j = s.calls j := Function.update_of_ne h ..

/-- An answer drops nobody. -/
@[simp] theorem answered_dropped (i j : ι) : ((s.answered i e q w).calls j).dropped = (s.calls j).dropped := by
  by_cases h : j = i
  · subst h
    rw [answered_self]
  · rw [answered_of_ne s e q w h]

/-- Histories only grow. -/
theorem answered_hist_prefix (i j : ι) : (s.calls j).hist <+: ((s.answered i e q w).calls j).hist := by
  by_cases h : j = i
  · subst h
    rw [answered_self]
    exact List.prefix_append _ _
  · simp only [answered_of_ne s e q w h, List.prefix_rfl]

/-- Dropping a call changes no history. -/
@[simp] theorem cut_hist (i j : ι) : ((s.cut i w).calls j).hist = (s.calls j).hist := by
  by_cases h : j = i
  · subst h
    rw [cut_self]
  · rw [cut_of_ne s w h]

@[simp] theorem cut_cur (i j : ι) : ((s.cut i w).calls j).cur = (s.calls j).cur := by
  by_cases h : j = i
  · subst h
    rw [cut_self]
  · rw [cut_of_ne s w h]

variable {s w} in
theorem live_of_cut {i j : ι} (h : ((s.cut i w).calls j).dropped = false) : (s.calls j).dropped = false := by
  by_cases hj : j = i
  · subst hj
    rw [cut_self] at h
    cases h
  · rwa [cut_of_ne s w hj] at h

end Pool

/-! ## Steps -/

variable [DecidableEq ι]

/-- One step. -/
def Rules.step (R : Rules ι W L E Op Ans) (s : Pool ι W Op Ans ε α) :
    Label ι L E Op Ans → Option (Pool ι W Op Ans ε α)
  | .answer i f =>
    match (s.calls i).dropped, (s.calls i).cur with
    | false, .ask o k =>
      (R.answer s.world i (s.calls i).hist o (f o)).map fun w => s.answered i ⟨o, f o⟩ (k (f o)) w
    | _, _ => none
  | .act i l =>
    match (s.calls i).dropped, (s.calls i).cur with
    | false, .ask o _ => (R.act s.world i (s.calls i).hist o l).map fun w => { s with world := w }
    | _, _ => none
  | .drop i =>
    match (s.calls i).dropped with
    | false => (R.drop s.world i (s.calls i).hist (s.calls i).pending).map fun w => s.cut i w
    | true => none
  | .env e => (R.env s.world e).map fun w => { s with world := w }

/-- All that a step can do. -/
inductive Moves (R : Rules ι W L E Op Ans) (s : Pool ι W Op Ans ε α) :
    Label ι L E Op Ans → Pool ι W Op Ans ε α → Prop where
  | answer (i : ι) (f : (o : Op) → Ans o) (o : Op) (k : Ans o → Prog Op Ans ε α) (w : W)
    (live : (s.calls i).dropped = false) (hcur : (s.calls i).cur = .ask o k)
    (h : R.answer s.world i (s.calls i).hist o (f o) = some w) :
    Moves R s (.answer i f) (s.answered i ⟨o, f o⟩ (k (f o)) w)
  | act (i : ι) (l : L) (o : Op) (k : Ans o → Prog Op Ans ε α) (w : W)
    (live : (s.calls i).dropped = false) (hcur : (s.calls i).cur = .ask o k)
    (h : R.act s.world i (s.calls i).hist o l = some w) : Moves R s (.act i l) { s with world := w }
  | drop (i : ι) (w : W) (live : (s.calls i).dropped = false)
    (h : R.drop s.world i (s.calls i).hist (s.calls i).pending = some w) : Moves R s (.drop i) (s.cut i w)
  | env (e : E) (w : W) (h : R.env s.world e = some w) : Moves R s (.env e) { s with world := w }

theorem step_moves {R : Rules ι W L E Op Ans} {s s' : Pool ι W Op Ans ε α} {l : Label ι L E Op Ans}
    (h : R.step s l = some s') : Moves R s l s' := by
  cases l with
  | answer i f =>
    simp only [Rules.step] at h
    split at h
    · rename_i o k live hcur
      obtain ⟨w, hw, rfl⟩ := Option.map_eq_some_iff.1 h
      exact .answer i f o k w live hcur hw
    · cases h
  | act i l =>
    simp only [Rules.step] at h
    split at h
    · rename_i o k live hcur
      obtain ⟨w, hw, rfl⟩ := Option.map_eq_some_iff.1 h
      exact .act i l o k w live hcur hw
    · cases h
  | drop i =>
    simp only [Rules.step] at h
    split at h
    · rename_i live
      obtain ⟨w, hw, rfl⟩ := Option.map_eq_some_iff.1 h
      exact .drop i w live hw
    · cases h
  | env e =>
    obtain ⟨w, hw, rfl⟩ := Option.map_eq_some_iff.1 h
    exact .env e w hw

theorem Moves.step_eq {R : Rules ι W L E Op Ans} {s s' : Pool ι W Op Ans ε α} {l : Label ι L E Op Ans}
    (h : Moves R s l s') : R.step s l = some s' := by
  cases h with
  | answer i f o k w live hcur hw => simp only [Rules.step, live, hcur, hw, Option.map_some]
  | act i l o k w live hcur hw => simp only [Rules.step, live, hcur, hw, Option.map_some]
  | drop i w live hw => simp only [Rules.step, live, hw, Option.map_some]
  | env e w hw => simp only [Rules.step, hw, Option.map_some]

/-- A step changes one call at most. -/
theorem Moves.calls_eq {R : Rules ι W L E Op Ans} {s s' : Pool ι W Op Ans ε α} {l : Label ι L E Op Ans}
    (h : Moves R s l s') {i j : ι} (hi : s'.calls i ≠ s.calls i) (hj : j ≠ i) : s'.calls j = s.calls j := by
  cases h with
  | answer i' f o k w live hcur hw =>
    by_cases hi' : i = i'
    · subst hi'
      exact Pool.answered_of_ne _ _ _ _ hj
    · exact absurd (Pool.answered_of_ne _ _ _ _ hi') hi
  | act i' l o k w live hcur hw => rfl
  | drop i' w live hw =>
    by_cases hi' : i = i'
    · subst hi'
      exact Pool.cut_of_ne _ _ hj
    · exact absurd (Pool.cut_of_ne _ _ hi') hi
  | env e w hw => rfl

/-! ## Runs -/

/-- The states of the runs from `s₀` whose steps all satisfy `ok`. -/
inductive Reach (R : Rules ι W L E Op Ans) (ok : Pool ι W Op Ans ε α → Label ι L E Op Ans → Bool)
    (s₀ : Pool ι W Op Ans ε α) : Pool ι W Op Ans ε α → Prop where
  | init : Reach R ok s₀ s₀
  | step {s s' : Pool ι W Op Ans ε α} (l : Label ι L E Op Ans) (h : Reach R ok s₀ s) (hok : ok s l = true)
    (hs : R.step s l = some s') : Reach R ok s₀ s'

/-- No condition on the steps. -/
def anyStep : Pool ι W Op Ans ε α → Label ι L E Op Ans → Bool := fun _ _ => true

variable {R : Rules ι W L E Op Ans} {ok : Pool ι W Op Ans ε α → Label ι L E Op Ans → Bool}
  {s₀ s s' : Pool ι W Op Ans ε α}

/-- The invariant rule; the state before a step may be taken to be reachable. -/
theorem Reach.inv {I : Pool ι W Op Ans ε α → Prop} (h : Reach R ok s₀ s) (h₀ : I s₀)
    (hstep : ∀ s s' l, Reach R ok s₀ s → ok s l = true → Moves R s l s' → I s → I s') : I s := by
  induction h with
  | init => exact h₀
  | step l h hok hs ih => exact hstep _ _ l h hok (step_moves hs) ih

/-- A run given as the list of its labels. -/
def Rules.run (R : Rules ι W L E Op Ans) (ok : Pool ι W Op Ans ε α → Label ι L E Op Ans → Bool)
    (s : Pool ι W Op Ans ε α) : List (Label ι L E Op Ans) → Option (Pool ι W Op Ans ε α)
  | [] => some s
  | l :: ls => if ok s l then (R.step s l).bind fun s' => R.run ok s' ls else none

theorem Reach.run {ls : List (Label ι L E Op Ans)} (h : Reach R ok s₀ s) (hr : R.run ok s ls = some s') :
    Reach R ok s₀ s' := by
  induction ls generalizing s with
  | nil =>
    cases hr
    exact h
  | cons l ls ih =>
    rw [Rules.run] at hr
    split at hr
    · rename_i hok
      obtain ⟨s₁, h1, h2⟩ := Option.bind_eq_some_iff.1 hr
      exact ih (.step l h hok h1) h2
    · cases hr

/-- What a run given by its labels ends in is reachable. -/
theorem exists_reach_of_run (R : Rules ι W L E Op Ans) (ok : Pool ι W Op Ans ε α → Label ι L E Op Ans → Bool)
    (s₀ : Pool ι W Op Ans ε α) (ls : List (Label ι L E Op Ans)) (p : Pool ι W Op Ans ε α → Bool)
    (h : (R.run ok s₀ ls).map p = some true) : ∃ s, Reach R ok s₀ s ∧ p s = true := by
  obtain ⟨s, hs, hp⟩ := Option.map_eq_some_iff.1 h
  exact ⟨s, Reach.run .init hs, hp⟩

theorem Reach.trans {s₁ : Pool ι W Op Ans ε α} (h : Reach R ok s₀ s) (h' : Reach R ok s s₁) : Reach R ok s₀ s₁ := by
  induction h' with
  | init => exact h
  | step l _ hok hs ih => exact .step l ih hok hs

theorem Reach.mono {ok' : Pool ι W Op Ans ε α → Label ι L E Op Ans → Bool} (h : Reach R ok s₀ s)
    (hok : ∀ s l, ok s l = true → ok' s l = true) : Reach R ok' s₀ s := by
  induction h with
  | init => exact .init
  | step l _ h1 hs ih => exact .step l ih (hok _ l h1) hs

/-! ## Simulation -/

/-- **The simulation rule.** Where every step is matched by steps of another pool, so is every run. -/
theorem Reach.simulated {W' L' E' Op' : Type} {Ans' : Op' → Type} {ε' α' : Type} {R' : Rules ι W' L' E' Op' Ans'}
    {ok' : Pool ι W' Op' Ans' ε' α' → Label ι L' E' Op' Ans' → Bool} {t₀ : Pool ι W' Op' Ans' ε' α'}
    {I : Pool ι W Op Ans ε α → Pool ι W' Op' Ans' ε' α' → Prop} (h : Reach R ok s₀ s) (h₀ : I s₀ t₀)
    (hstep : ∀ s s' l t, Reach R ok s₀ s → ok s l = true → Moves R s l s' → Reach R' ok' t₀ t → I s t →
      ∃ t', Reach R' ok' t t' ∧ I s' t') : ∃ t, Reach R' ok' t₀ t ∧ I s t := by
  induction h with
  | init => exact ⟨t₀, .init, h₀⟩
  | step l h hok hs ih =>
    obtain ⟨t, ht, hrel⟩ := ih
    obtain ⟨t', ht', hrel'⟩ := hstep _ _ l t h hok (step_moves hs) ht hrel
    exact ⟨t', ht.trans ht', hrel'⟩

/-! ## Each call on its own -/

variable {prog : ι → Prog Op Ans ε α} {w₀ : W}

/-- **A call is where its own answers led it**, whatever the others do. -/
theorem Reach.after (h : Reach R ok (.start prog w₀) s) (i : ι) :
    After (prog i) (s.calls i).hist (s.calls i).cur := by
  refine h.inv (I := fun s => ∀ i, After (prog i) (s.calls i).hist (s.calls i).cur) ?_ ?_ i
  · intro i
    exact after_nil.2 rfl
  · intro s s' l _ _ hm ih j
    cases hm with
    | answer i f o k w live hcur hw =>
      by_cases hj : j = i
      · subst hj
        rw [Pool.answered_self]
        have hi := ih j
        rw [hcur] at hi
        exact hi.snoc (f o)
      · rw [Pool.answered_of_ne _ _ _ _ hj]
        exact ih j
    | act i l o k w live hcur hw => exact ih j
    | drop i w live hw =>
      rw [Pool.cut_hist, Pool.cut_cur]
      exact ih j
    | env e w hw => exact ih j

section

variable {P : ι → Protocol Op Ans σ} {ph₀ : ι → σ} {Q : ι → σ → α → Prop} {E' : ι → σ → ε → Prop}
  (hP : ∀ i, Obeys (P i) (ph₀ i) (prog i) (Q i) (E' i))

include hP

/-- What is left of a call keeps to the protocol. -/
theorem Reach.obeys (h : Reach R ok (.start prog w₀) s) (i : ι) :
    Obeys (P i) ((P i).phase (ph₀ i) (s.calls i).hist) (s.calls i).cur (Q i) (E' i) :=
  (hP i).after (h.after i)

theorem Reach.allowed (h : Reach R ok (.start prog w₀) s) {i : ι} {o : Op} {k : Ans o → Prog Op Ans ε α}
    (hcur : (s.calls i).cur = .ask o k) : (P i).allow ((P i).phase (ph₀ i) (s.calls i).hist) o := by
  have hobeys := h.obeys hP i
  rw [hcur] at hobeys
  exact hobeys.1

/-- An ended call ended in a phase admitted for its exit. -/
theorem Reach.ended (h : Reach R ok (.start prog w₀) s) {i : ι} {r : Except ε α}
    (hcur : (s.calls i).cur = exit r) :
    (∀ a, r = .ok a → Q i ((P i).phase (ph₀ i) (s.calls i).hist) a) ∧
      ∀ e, r = .error e → E' i ((P i).phase (ph₀ i) (s.calls i).hist) e := by
  have hobeys := h.obeys hP i
  rw [hcur] at hobeys
  exact obeys_exit.1 hobeys

end

/-! ## Mutual exclusion -/

/-- The rules treat `holder` as a lock that `acquire` takes and `release` gives back; a dropped
call gives it back too. -/
structure Mutex (R : Rules ι W L E Op Ans) (holder : W → Option ι) (acquire release : Op) : Prop where
  acquired : ∀ w i t x w', R.answer w i t acquire x = some w' → holder w = none ∧ holder w' = some i
  released : ∀ w i t x w', R.answer w i t release x = some w' → holder w' = none
  answered : ∀ w i t o x w', o ≠ acquire → o ≠ release → R.answer w i t o x = some w' → holder w' = holder w
  acted : ∀ w i t o l w', R.act w i t o l = some w' → holder w' = holder w
  dropped : ∀ w i t o w', R.drop w i t o = some w' → holder w' = if holder w = some i then none else holder w
  moved : ∀ w e w', R.env w e = some w' → holder w' = holder w

/-- The protocol brackets its phases `inside` by `acquire` and `release`. -/
structure Bracketed (P : Protocol Op Ans σ) (inside : σ → Bool) (acquire release : Op) : Prop where
  enter : ∀ s x, P.allow s acquire → inside s = false ∧ inside (P.next s ⟨acquire, x⟩) = true
  leave : ∀ s x, P.allow s release → inside s = true ∧ inside (P.next s ⟨release, x⟩) = false
  stay : ∀ s o x, o ≠ acquire → o ≠ release → P.allow s o → inside (P.next s ⟨o, x⟩) = inside s

section

variable {holder : W → Option ι} {acquire release : Op} {P : ι → Protocol Op Ans σ} {inside : σ → Bool}
  {ph₀ : ι → σ} {Q : ι → σ → α → Prop} {E' : ι → σ → ε → Prop} {i : ι} {e : Event Op Ans}
  {q : Prog Op Ans ε α} {w : W}

/-- The holder is the live call inside its bracket. -/
def HolderInside (holder : W → Option ι) (P : ι → Protocol Op Ans σ) (inside : σ → Bool) (ph₀ : ι → σ)
    (s : Pool ι W Op Ans ε α) : Prop :=
  ∀ i, holder s.world = some i ↔
    (s.calls i).dropped = false ∧ inside ((P i).phase (ph₀ i) (s.calls i).hist) = true

/-- The lock was free, so nobody else is inside. -/
theorem HolderInside.enter (h : HolderInside holder P inside ph₀ s) (live : (s.calls i).dropped = false)
    (hnone : holder s.world = none) (hsome : holder w = some i)
    (hin : inside ((P i).next ((P i).phase (ph₀ i) (s.calls i).hist) e) = true) :
    HolderInside holder P inside ph₀ (s.answered i e q w) := by
  intro j
  by_cases hj : j = i
  · subst hj
    simp [hsome, hin, live]
  · have hjout := h j
    rw [hnone] at hjout
    simp only [Pool.answered_world, hsome, Option.some.injEq, Pool.answered_of_ne _ _ _ _ hj]
    exact ⟨fun hij => absurd hij.symm hj, fun hc => absurd (hjout.2 hc) (by simp)⟩

/-- The one inside leaves, and there was only that one. -/
theorem HolderInside.leave (h : HolderInside holder P inside ph₀ s) (live : (s.calls i).dropped = false)
    (hin : inside ((P i).phase (ph₀ i) (s.calls i).hist) = true) (hnone : holder w = none)
    (hout : inside ((P i).next ((P i).phase (ph₀ i) (s.calls i).hist) e) = false) :
    HolderInside holder P inside ph₀ (s.answered i e q w) := by
  intro j
  by_cases hj : j = i
  · subst hj
    simp [hnone, hout]
  · have hi := (h i).2 ⟨live, hin⟩
    have hjout := h j
    rw [hi, Option.some.injEq] at hjout
    simp only [Pool.answered_world, hnone, reduceCtorEq, Pool.answered_of_ne _ _ _ _ hj, false_iff]
    intro hc
    exact hj (hjout.2 hc).symm

theorem HolderInside.stay (h : HolderInside holder P inside ph₀ s) (hsame : holder w = holder s.world)
    (hin : inside ((P i).next ((P i).phase (ph₀ i) (s.calls i).hist) e) =
      inside ((P i).phase (ph₀ i) (s.calls i).hist)) :
    HolderInside holder P inside ph₀ (s.answered i e q w) := by
  intro j
  rw [Pool.answered_world, hsame]
  by_cases hj : j = i
  · subst hj
    simp only [Pool.answered_self, Protocol.phase_snoc, hin]
    exact h j
  · rw [Pool.answered_of_ne _ _ _ _ hj]
    exact h j

theorem HolderInside.cut (h : HolderInside holder P inside ph₀ s)
    (hdrop : holder w = if holder s.world = some i then none else holder s.world) :
    HolderInside holder P inside ph₀ (s.cut i w) := by
  intro j
  rw [Pool.cut_world, hdrop]
  by_cases hj : j = i
  · subst hj
    simp
  · rw [Pool.cut_of_ne _ _ hj, ← h j]
    by_cases hi : holder s.world = some i
    · simp [hi, Ne.symm hj]
    · rw [if_neg hi]

/-- **Mutual exclusion.** In every run the holder is the live call inside its bracket. -/
theorem holder_iff (hR : Mutex R holder acquire release) (hB : ∀ i, Bracketed (P i) inside acquire release)
    (hP : ∀ i, Obeys (P i) (ph₀ i) (prog i) (Q i) (E' i)) (hfree : holder w₀ = none)
    (hout : ∀ i, inside (ph₀ i) = false) (h : Reach R ok (.start prog w₀) s) :
    HolderInside holder P inside ph₀ s := by
  refine h.inv (I := HolderInside holder P inside ph₀) ?_ ?_
  · intro i
    simp [Pool.start, hfree, hout]
  · intro s s' l hs _ hm ih
    cases hm with
    | answer i f o k w live hcur hw =>
      have hallow := hs.allowed hP hcur
      by_cases ho : o = acquire
      · subst ho
        obtain ⟨hnone, hsome⟩ := hR.acquired _ _ _ _ _ hw
        exact ih.enter live hnone hsome ((hB i).enter _ (f o) hallow).2
      by_cases ho' : o = release
      · subst ho'
        obtain ⟨hin, hleft⟩ := (hB i).leave _ (f o) hallow
        exact ih.leave live hin (hR.released _ _ _ _ _ hw) hleft
      · exact ih.stay (hR.answered _ _ _ _ _ _ ho ho' hw) ((hB i).stay _ _ (f o) ho ho' hallow)
    | act i l o k w live hcur hw =>
      intro j
      rw [hR.acted _ _ _ _ _ _ hw]
      exact ih j
    | drop i w live hw => exact ih.cut (hR.dropped _ _ _ _ _ hw)
    | env e w hw =>
      intro j
      rw [hR.moved _ _ _ hw]
      exact ih j

end

end Interact

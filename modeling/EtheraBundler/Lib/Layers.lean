import EtheraBundler.Lib.Handler
import EtheraBundler.Lib.Pool
/-!
# Pools over handlers

Concurrent calls whose questions are answered by handlers: what is interleaved now is the handlers' own
questions, and between two of them anything can happen. Where the exchange of a handler does what
it does to the world at the answer that ends it, and nothing before, it is one step all the same.

* `Realises` — what the rules below have to do with the rules above.
* `Under` — a call below in the state of a call above; `Under.answered`, one more answer below.
* `Above` — a pool above in the state of a pool below.
* `Reach.above` — **refinement**: a run below is a run above, over the same world.
-/

namespace Interact

open Prog

variable {ι W W' L L' E E' Op Op' : Type} {Ans : Op → Type} {Ans' : Op' → Type} {ε ε' α : Type}

/-- A handler's exchange takes effect at its last answer, as the rules above have it. -/
structure Realises (abs : W' → W) (h : (o : Op) → Prog Op' Ans' ε' (Ans o)) (R : Rules ι W L E Op Ans)
    (R' : Rules ι W' L' E' Op' Ans') : Prop where
  asks : ∀ o, ∃ o' k, h o = .ask o' k
  last : ∀ {w w' i t v u o o' k y x}, Handled h t v → After (h o) u (.ask o' k) → k y = .ret x →
    R'.answer w i (v ++ u) o' y = some w' → R.answer (abs w) i t o x = some (abs w')
  between : ∀ {w w' i t v u o o' k y}, Handled h t v → After (h o) u (.ask o' k) → (∀ x, k y ≠ .ret x) →
    R'.answer w i (v ++ u) o' y = some w' → abs w' = abs w
  act : ∀ {w w' i t v u o o' k l}, Handled h t v → After (h o) u (.ask o' k) →
    R'.act w i (v ++ u) o' l = some w' → ∃ l', R.act (abs w) i t o l' = some (abs w')
  drop : ∀ {w w' i t v u o o' k}, Handled h t v → After (h o) u (.ask o' k) →
    R'.drop w i (v ++ u) (some o') = some w' → R.drop (abs w) i t (some o) = some (abs w')
  /-- The handler gave up, and the call above still waits. -/
  dropFailed : ∀ {w w' i t v u o e}, Handled h t v → After (h o) u (.fail e) →
    R'.drop w i (v ++ u) none = some w' → R.drop (abs w) i t (some o) = some (abs w')
  dropOver : ∀ {w w' i t v}, Handled h t v → R'.drop w i v none = some w' → R.drop (abs w) i t none = some (abs w')
  env : ∀ {w w' e}, R'.env w e = some w' → abs w' = abs w ∨ ∃ e', R.env (abs w) e' = some (abs w')

/-! ## One call -/

/-- `c'` below is where `c` is above: in the handler of its pending question, or over as it is. -/
inductive Under (f : ε → ε') (h : (o : Op) → Prog Op' Ans' ε' (Ans o)) (c : Call Op Ans ε α)
    (c' : Call Op' Ans' ε' α) : Prop where
  | asking (o : Op) (k : Ans o → Prog Op Ans ε α) (v u : Trace Op' Ans') (q : Prog Op' Ans' ε' (Ans o))
    (hcur : c.cur = .ask o k) (hist : Handled h c.hist v) (hist' : c'.hist = v ++ u) (after : After (h o) u q)
    (unanswered : ∀ x, q ≠ .ret x) (hcur' : c'.cur = q >>= fun x => ((k x).mapFail f).via h)
    (dropped : c'.dropped = c.dropped)
  | ended (r : Except ε α) (hcur : c.cur = exit r) (hist : Handled h c.hist c'.hist)
    (hcur' : c'.cur = exit (r.mapError f)) (dropped : c'.dropped = c.dropped)

section Under

variable {f : ε → ε'} {h : (o : Op) → Prog Op' Ans' ε' (Ans o)} {c : Call Op Ans ε α} {c' : Call Op' Ans' ε' α}

/-- All answers above were returned below, and no handler is under way. -/
theorem under_of_handled (hasks : ∀ o, ∃ o' k, h o = .ask o' k) {t : Trace Op Ans} {v : Trace Op' Ans'}
    (hh : Handled h t v) (q : Prog Op Ans ε α) (d : Bool) : Under f h ⟨t, q, d⟩ ⟨v, (q.mapFail f).via h, d⟩ := by
  cases q with
  | ret a => exact .ended (.ok a) rfl hh rfl rfl
  | fail e => exact .ended (.error e) rfl hh rfl rfl
  | ask o k =>
    obtain ⟨o', k', ho⟩ := hasks o
    refine .asking o k v [] (h o) rfl hh (List.append_nil v).symm (after_nil.2 rfl) ?_ rfl rfl
    intro x hx
    rw [ho] at hx
    cases hx

/-- A question below is one of the handler of the question above. -/
theorem Under.asked (hu : Under f h c c') {o' : Op'} {k' : Ans' o' → Prog Op' Ans' ε' α}
    (hcur' : c'.cur = .ask o' k') :
    ∃ o k v u k₁, c.cur = .ask o k ∧ Handled h c.hist v ∧ c'.hist = v ++ u ∧ After (h o) u (.ask o' k₁) ∧
      (k' = fun y => k₁ y >>= fun x => ((k x).mapFail f).via h) ∧ c'.dropped = c.dropped := by
  cases hu with
  | ended r hcur hist hcur₁ dropped =>
    rw [hcur₁] at hcur'
    cases r <;> cases hcur'
  | asking o k v u q hcur hist hist' after unanswered hcur₁ dropped =>
    rw [hcur₁] at hcur'
    cases q with
    | ret x => exact absurd rfl (unanswered x)
    | fail e => cases hcur'
    | ask o₁ k₁ =>
      rw [ask_bind] at hcur'
      cases hcur'
      exact ⟨o, k, v, u, k₁, hcur, hist, hist', after, rfl, dropped⟩

/-- One more answer below: the last of its handler, and the call above has its answer, or not the last. -/
theorem Under.answered (hasks : ∀ o, ∃ o' k, h o = .ask o' k) {o : Op} {k : Ans o → Prog Op Ans ε α}
    {v u : Trace Op' Ans'} {o' : Op'} {k₁ : Ans' o' → Prog Op' Ans' ε' (Ans o)} {d : Bool} (hcur : c.cur = .ask o k)
    (hist : Handled h c.hist v) (after : After (h o) u (.ask o' k₁)) (hd : d = c.dropped) (y : Ans' o') :
    ((∀ x, k₁ y ≠ .ret x) ∧
      Under f h c ⟨v ++ u ++ [⟨o', y⟩], k₁ y >>= fun x => ((k x).mapFail f).via h, d⟩) ∨
    ∃ x, k₁ y = .ret x ∧ Under f h ⟨c.hist ++ [⟨o, x⟩], k x, c.dropped⟩
      ⟨v ++ u ++ [⟨o', y⟩], k₁ y >>= fun x => ((k x).mapFail f).via h, d⟩ := by
  by_cases hret : ∃ x, k₁ y = .ret x
  · obtain ⟨x, hx⟩ := hret
    refine Or.inr ⟨x, hx, ?_⟩
    have hrun : Run (h o) (u ++ [⟨o', y⟩]) (.ok x) := by
      have hsnoc := after.snoc y
      rw [hx] at hsnoc
      exact hsnoc
    have hlast : Handled h [⟨o, x⟩] (u ++ [⟨o', y⟩]) :=
      handled_cons.2 ⟨_, [], (List.append_nil _).symm, hrun, .nil⟩
    have hhandled : Handled h (c.hist ++ [⟨o, x⟩]) (v ++ u ++ [⟨o', y⟩]) :=
      handled_append.2 ⟨v, _, List.append_assoc v u _, hist, hlast⟩
    rw [hx, ret_bind, hd]
    exact under_of_handled hasks hhandled (k x) c.dropped
  · have hnot : ∀ x, k₁ y ≠ .ret x := fun x hx => hret ⟨x, hx⟩
    exact Or.inl ⟨hnot, .asking o k v (u ++ [⟨o', y⟩]) (k₁ y) hcur hist (List.append_assoc v u _) (after.snoc y) hnot
      rfl hd⟩

/-- Both are dropped, or neither. -/
theorem Under.dropped_eq (hu : Under f h c c') : c'.dropped = c.dropped := by
  cases hu with
  | asking o k v u q hcur hist hist' after unanswered hcur' dropped => exact dropped
  | ended r hcur hist hcur' dropped => exact dropped

theorem Under.drop (hu : Under f h c c') : Under f h { c with dropped := true } { c' with dropped := true } := by
  cases hu with
  | asking o k v u q hcur hist hist' after unanswered hcur' dropped =>
    exact .asking o k v u q hcur hist hist' after unanswered hcur' rfl
  | ended r hcur hist hcur' dropped => exact .ended r hcur hist hcur' rfl

/-- The part of the exchange below that is behind the answers above. -/
theorem Under.handled (hu : Under f h c c') : ∃ v u, c'.hist = v ++ u ∧ Handled h c.hist v := by
  cases hu with
  | asking o k v u q hcur hist hist' after unanswered hcur' dropped => exact ⟨v, u, hist', hist⟩
  | ended r hcur hist hcur' dropped => exact ⟨c'.hist, [], (List.append_nil _).symm, hist⟩

end Under

/-! ## Any number of calls -/

/-- `s` above is where `s'` is below. -/
structure Above (abs : W' → W) (f : ε → ε') (h : (o : Op) → Prog Op' Ans' ε' (Ans o)) (s : Pool ι W Op Ans ε α)
    (s' : Pool ι W' Op' Ans' ε' α) : Prop where
  world : s.world = abs s'.world
  calls : ∀ i, Under f h (s.calls i) (s'.calls i)

theorem exists_table [∀ o, Nonempty (Ans o)] (o : Op) (x : Ans o) : ∃ f : (o : Op) → Ans o, f o = x := by
  classical
  exact ⟨Function.update (fun o => Classical.choice inferInstance) o x, Function.update_self ..⟩

section Above

variable [DecidableEq ι] {abs : W' → W} {f : ε → ε'} {h : (o : Op) → Prog Op' Ans' ε' (Ans o)}
  {R : Rules ι W L E Op Ans} {R' : Rules ι W' L' E' Op' Ans'} {s : Pool ι W Op Ans ε α} {s' : Pool ι W' Op' Ans' ε' α}
  {prog : ι → Prog Op Ans ε α} {w₀ : W'} {w : W'} {i : ι}

/-- Related call by call, and still so where one of them moves. -/
theorem forall_update {C C' : Type} {P : C → C' → Prop} {t : ι → C} {t' : ι → C'} (ht : ∀ j, P (t j) (t' j)) {c : C}
    {c' : C'} (hc : P c c') (j : ι) : P (Function.update t i c j) (Function.update t' i c' j) := by
  by_cases hj : j = i
  · subst hj
    rw [Function.update_self, Function.update_self]
    exact hc
  · rw [Function.update_of_ne hj, Function.update_of_ne hj]
    exact ht j

/-- One call moves below, and nobody above. -/
theorem Above.stutter (ha : Above abs f h s s') {c' : Call Op' Ans' ε' α} (hw : abs w = abs s'.world)
    (hc : Under f h (s.calls i) c') : Above abs f h s ⟨Function.update s'.calls i c', w⟩ where
  world := ha.world.trans hw.symm
  calls j := by
    have hj := forall_update (i := i) ha.calls hc j
    rwa [Function.update_eq_self] at hj

/-- One answer below. -/
theorem Above.answer [∀ o, Nonempty (Ans o)] (hR : Realises abs h R R') (ha : Above abs f h s s') {o' : Op'}
    {k' : Ans' o' → Prog Op' Ans' ε' α} {y : Ans' o'} (live : (s'.calls i).dropped = false)
    (hcur' : (s'.calls i).cur = .ask o' k') (hw : R'.answer s'.world i (s'.calls i).hist o' y = some w) :
    ∃ s₁, Reach R anyStep s s₁ ∧ Above abs f h s₁ (s'.answered i ⟨o', y⟩ (k' y) w) := by
  obtain ⟨o, k, v, u, k₁, hcur, hist, hist', after, rfl, hd⟩ := (ha.calls i).asked hcur'
  rw [hist'] at hw
  unfold Pool.answered
  rw [hist']
  rcases Under.answered hR.asks hcur hist after hd y with ⟨hnot, hu⟩ | ⟨x, hx, hu⟩
  · exact ⟨s, .init, ha.stutter (hR.between hist after hnot hw) hu⟩
  · have hup := hR.last hist after hx hw
    rw [← ha.world] at hup
    obtain ⟨tab, rfl⟩ := exists_table o x
    have hstep := (Moves.answer (R := R) (s := s) i tab o k _ (hd.symm.trans live) hcur hup).step_eq
    exact ⟨_, .step _ .init rfl hstep, rfl, forall_update ha.calls hu⟩

/-- One drop below. -/
theorem Above.drop (hR : Realises abs h R R') (ha : Above abs f h s s') (live : (s'.calls i).dropped = false)
    (hw : R'.drop s'.world i (s'.calls i).hist (s'.calls i).pending = some w) :
    ∃ s₁, Reach R anyStep s s₁ ∧ Above abs f h s₁ (s'.cut i w) := by
  have hdrop : R.drop s.world i (s.calls i).hist (s.calls i).pending = some (abs w) := by
    rw [ha.world]
    unfold Call.pending at hw ⊢
    cases ha.calls i with
    | asking o k v u q hcur hist hist' after unanswered hcur' dropped =>
      rw [hist', hcur'] at hw
      rw [hcur]
      cases q with
      | ret x => exact absurd rfl (unanswered x)
      | fail e => exact hR.dropFailed hist after hw
      | ask o' k' => exact hR.drop hist after hw
    | ended r hcur hist hcur' dropped =>
      rw [hcur'] at hw
      rw [hcur]
      rcases r with e | a
      · exact hR.dropOver hist hw
      · exact hR.dropOver hist hw
  have hstep := (Moves.drop (R := R) (s := s) i _ ((ha.calls i).dropped_eq.symm.trans live) hdrop).step_eq
  exact ⟨_, .step _ .init rfl hstep, rfl, forall_update ha.calls (ha.calls i).drop⟩

/-- **Refinement.** What the calls reach over their handlers they reach with their questions answered
in one step each. -/
theorem Reach.above [∀ o, Nonempty (Ans o)] (hR : Realises abs h R R')
    {ok' : Pool ι W' Op' Ans' ε' α → Label ι L' E' Op' Ans' → Bool}
    (hr : Reach R' ok' (.start (fun i => ((prog i).mapFail f).via h) w₀) s') :
    ∃ s, Reach R anyStep (.start prog (abs w₀)) s ∧ Above abs f h s s' := by
  have h₀ : Above abs f h (.start prog (abs w₀)) (.start (fun i => ((prog i).mapFail f).via h) w₀) :=
    ⟨rfl, fun i => under_of_handled hR.asks .nil (prog i) false⟩
  refine hr.simulated (I := fun s' s => Above abs f h s s') h₀ ?_
  intro s₁ s₂ l t _ _ hm _ ha
  cases hm with
  | answer i tab o' k' w live hcur hw => exact ha.answer hR live hcur hw
  | act i l o' k' w live hcur hw =>
    obtain ⟨o, k, v, u, k₁, hcur', hist, hist', after, -, hd⟩ := (ha.calls i).asked hcur
    rw [hist'] at hw
    obtain ⟨l', hup⟩ := hR.act hist after hw
    rw [← ha.world] at hup
    have hstep := (Moves.act (R := R) (s := t) i l' o k _ (hd.symm.trans live) hcur' hup).step_eq
    exact ⟨_, .step _ .init rfl hstep, rfl, ha.calls⟩
  | drop i w live hw => exact ha.drop hR live hw
  | env e w hw =>
    rcases hR.env hw with heq | ⟨e', hup⟩
    · exact ⟨t, .init, ha.world.trans heq.symm, ha.calls⟩
    · rw [← ha.world] at hup
      have hstep := (Moves.env (R := R) (s := t) e' _ hup).step_eq
      exact ⟨_, .step _ .init rfl hstep, rfl, ha.calls⟩

end Above

end Interact

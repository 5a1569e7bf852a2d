import EtheraBundler.Lib.Pool
import Mathlib.Algebra.Order.BigOperators.Group.Finset
/-!
# Progress

A run is a `foldlM` of a partial step function over its labels. Where a rank bounds what is still
to be done, runs are short and the work gets done.

* `foldlM_rank` — if every step lowers the rank, no run is longer than the rank it starts at.
* `drive` — **the progress rule**: if some step lowers the rank until `done`, some run reaches `done`.
* `totalRank`, `Moves.rank_lt` — the ranks of the calls of a pool, summed: a step changes one call at
  most, so the sum drops with the rank of that one.
* `Moves.hist_grows`, `foldlM_hist_grows` — histories only grow.
-/

namespace Interact

/-! ## Ranked steps -/

section Steps

variable {St Lab : Type} {step : St → Lab → Option St} {I done : St → Prop} {rank : St → Nat} {s s' : St}

/-- What every step keeps holds at the end of a run. -/
theorem foldlM_inv (hstep : ∀ s l s', I s → step s l = some s' → I s') (h : I s) {ls : List Lab}
    (hrun : ls.foldlM step s = some s') : I s' := by
  induction ls generalizing s with
  | nil =>
    cases hrun
    exact h
  | cons l ls ih =>
    rw [List.foldlM_cons] at hrun
    obtain ⟨s₁, h1, h2⟩ := Option.bind_eq_some_iff.1 hrun
    exact ih (hstep s l s₁ h h1) h2

/-- If every step lowers the rank, a run is at most as long as the rank drops. -/
theorem foldlM_rank (hstep : ∀ s l s', I s → step s l = some s' → I s' ∧ rank s' < rank s) (h : I s)
    {ls : List Lab} (hrun : ls.foldlM step s = some s') : ls.length + rank s' ≤ rank s := by
  induction ls generalizing s with
  | nil =>
    cases hrun
    simp
  | cons l ls ih =>
    rw [List.foldlM_cons] at hrun
    obtain ⟨s₁, h1, h2⟩ := Option.bind_eq_some_iff.1 hrun
    obtain ⟨hI, hlt⟩ := hstep s l s₁ h h1
    have hle := ih hI h2
    rw [List.length_cons]
    omega

/-- **The progress rule.** -/
theorem drive (hstep : ∀ s, I s → ¬ done s → ∃ l s', step s l = some s' ∧ I s' ∧ rank s' < rank s) (h : I s) :
    ∃ (ls : List Lab) (s' : St), ls.foldlM step s = some s' ∧ ls.length ≤ rank s ∧ I s' ∧ done s' := by
  induction hn : rank s using Nat.strongRecOn generalizing s with
  | ind n ih =>
    by_cases hd : done s
    · exact ⟨[], s, rfl, Nat.zero_le _, h, hd⟩
    · obtain ⟨l, s₁, hs, h1, hlt⟩ := hstep s h hd
      obtain ⟨ls, s', hrun, hlen, h2, hd'⟩ := ih (rank s₁) (by omega) h1 rfl
      refine ⟨l :: ls, s', ?_, ?_, h2, hd'⟩
      · rw [List.foldlM_cons, hs]
        exact hrun
      · rw [List.length_cons]
        omega

end Steps

/-! ## Pools -/

variable {ι W L E Op : Type} {Ans : Op → Type} {ε α : Type} [DecidableEq ι] {R : Rules ι W L E Op Ans}
  {s s' : Pool ι W Op Ans ε α} {l : Label ι L E Op Ans}

/-- Over one step the history of a call grows at most. -/
theorem Moves.hist_grows (h : Moves R s l s') (i : ι) : (s.calls i).hist <+: (s'.calls i).hist := by
  cases h with
  | answer j f o k w live hcur hw => exact s.answered_hist_prefix _ _ w j i
  | act j l o k w live hcur hw => exact List.prefix_rfl
  | drop j w live hw =>
    rw [Pool.cut_hist]
  | env e w hw => exact List.prefix_rfl

/-- Over a run too. -/
theorem foldlM_hist_grows {ls : List (Label ι L E Op Ans)} (h : ls.foldlM R.step s = some s') (i : ι) :
    (s.calls i).hist <+: (s'.calls i).hist := by
  refine foldlM_inv (I := fun s₁ => (s.calls i).hist <+: (s₁.calls i).hist) ?_ List.prefix_rfl h
  intro s₁ l s₂ hI hs
  exact hI.trans ((step_moves hs).hist_grows i)

/-- What a run from a reachable state reaches is reachable. -/
theorem Reach.foldlM {s₀ : Pool ι W Op Ans ε α} (h : Reach R anyStep s₀ s) {ls : List (Label ι L E Op Ans)}
    (hrun : ls.foldlM R.step s = some s') : Reach R anyStep s₀ s' :=
  foldlM_inv (I := Reach R anyStep s₀) (fun _ l _ hI hs => .step l hI rfl hs) h hrun

section Rank

variable [Fintype ι] (rank : ι → Call Op Ans ε α → Nat)

/-- What is left to do for all calls together. -/
def totalRank (s : Pool ι W Op Ans ε α) : Nat := ∑ i, rank i (s.calls i)

variable {rank}

/-- A step changes one call at most, so that one decides. -/
theorem Moves.rank_lt (h : Moves R s l s') {i : ι} (hi : rank i (s'.calls i) < rank i (s.calls i)) :
    totalRank rank s' < totalRank rank s := by
  have hne : s'.calls i ≠ s.calls i := by
    intro he
    rw [he] at hi
    exact Nat.lt_irrefl _ hi
  refine Finset.sum_lt_sum (fun j _ => ?_) ⟨i, Finset.mem_univ i, hi⟩
  by_cases hj : j = i
  · subst hj
    exact Nat.le_of_lt hi
  · rw [h.calls_eq hne hj]

end Rank

end Interact

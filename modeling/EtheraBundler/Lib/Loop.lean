import EtheraBundler.Lib.Prog
import Mathlib.Data.List.Infix
/-!
# Loops against an environment with a memory

`exec` answers a question the same way whenever it is asked. A clock or a queue does not: here
the environment sees everything asked and answered so far, and answers on that.

* `play env t p` — the run of `p` against `env`, after the exchange `t`.
* `loop body dry n s` — rounds of `body` from `s`, each returning a result or the next state, with
  fuel for `n` rounds and the failure `dry` when it is used up.
* `play_loop` — **the loop rule**: an invariant that bounds the rounds still to come gives the
  result, the same for every fuel past the bound.
* `run_loop` — how a run of a loop ends, whatever the answers.
* `follow`, `play_follow` — an environment that answers as a given exchange does, so that what is
  known of every `play` is known of every run.
-/

namespace Interact

variable {Op : Type} {Ans : Op → Type} {ε α β σ : Type}

/-- Answers that depend on what was asked and answered before. -/
abbrev Env (Op : Type) (Ans : Op → Type) := Trace Op Ans → (o : Op) → Ans o

variable {env : Env Op Ans} {t t' : Trace Op Ans}

/-- The run of a program against `env`, `t` being over: the whole exchange and the exit. -/
def play (env : Env Op Ans) : Trace Op Ans → Prog Op Ans ε α → Trace Op Ans × Except ε α
  | t, .ret a => (t, .ok a)
  | t, .fail e => (t, .error e)
  | t, .ask o k => play env (t ++ [⟨o, env t o⟩]) (k (env t o))

@[simp] theorem play_ret {a : α} : play env t (.ret a : Prog Op Ans ε α) = (t, .ok a) := rfl
@[simp] theorem play_fail {e : ε} : play env t (.fail e : Prog Op Ans ε α) = (t, .error e) := rfl
@[simp] theorem play_ask {o : Op} {k : Ans o → Prog Op Ans ε α} :
    play env t (.ask o k) = play env (t ++ [⟨o, env t o⟩]) (k (env t o)) := rfl

theorem play_bind_ok {p : Prog Op Ans ε α} {f : α → Prog Op Ans ε β} {a : α} (h : play env t p = (t', .ok a)) :
    play env t (p >>= f) = play env t' (f a) := by
  induction p generalizing t with
  | ret b =>
    cases h
    rfl
  | fail e => cases h
  | ask o k ih => exact ih _ h

theorem play_bind_error {p : Prog Op Ans ε α} {f : α → Prog Op Ans ε β} {e : ε}
    (h : play env t p = (t', .error e)) : play env t (p >>= f) = (t', .error e) := by
  induction p generalizing t with
  | ret b => cases h
  | fail e' =>
    cases h
    rfl
  | ask o k ih => exact ih _ h

/-! ## Loops -/

namespace Prog

/-- Rounds of `body` from `s` until one returns a result; `dry` after `n` of them. -/
def loop (body : σ → Prog Op Ans ε (α ⊕ σ)) (dry : ε) : Nat → σ → Prog Op Ans ε α
  | 0, _ => .fail dry
  | n + 1, s => body s >>= Sum.elim .ret (loop body dry n)

end Prog

/-- **The loop rule.** `Inv n s t` holds at the start of a round from `s` after the exchange `t`
and allows at most `n` more rounds to go round. Then the loop ends in what the exits of a round
guarantee, and every fuel past `n` gives that same end. -/
theorem play_loop {body : σ → Prog Op Ans ε (α ⊕ σ)} {dry : ε} (Inv : Nat → σ → Trace Op Ans → Prop)
    (Q : Trace Op Ans → Except ε α → Prop)
    (hdone : ∀ n s t t' a, Inv n s t → play env t (body s) = (t', .ok (.inl a)) → Q t' (.ok a))
    (hfail : ∀ n s t t' e, Inv n s t → play env t (body s) = (t', .error e) → Q t' (.error e))
    (hagain : ∀ n s t t' s', Inv n s t → play env t (body s) = (t', .ok (.inr s')) → ∃ m < n, Inv m s' t')
    {n : Nat} {s : σ} (h : Inv n s t) :
    ∃ t' r, Q t' r ∧ ∀ fuel, n < fuel → play env t (Prog.loop body dry fuel s) = (t', r) := by
  induction n using Nat.strongRecOn generalizing s t with
  | ind n ih =>
    rcases hp : play env t (body s) with ⟨t', e | a | s'⟩
    · refine ⟨t', .error e, hfail n s t t' e h hp, fun fuel hfuel => ?_⟩
      obtain ⟨k, rfl⟩ : ∃ k, fuel = k + 1 := ⟨fuel - 1, by omega⟩
      exact play_bind_error hp
    · refine ⟨t', .ok a, hdone n s t t' a h hp, fun fuel hfuel => ?_⟩
      obtain ⟨k, rfl⟩ : ∃ k, fuel = k + 1 := ⟨fuel - 1, by omega⟩
      exact play_bind_ok hp
    · obtain ⟨m, hm, hinv⟩ := hagain n s t t' s' h hp
      obtain ⟨t'', r, hq, hend⟩ := ih m hm hinv
      refine ⟨t'', r, hq, fun fuel hfuel => ?_⟩
      obtain ⟨k, rfl⟩ : ∃ k, fuel = k + 1 := ⟨fuel - 1, by omega⟩
      have hk := hend k (by omega)
      rw [← hk]
      exact play_bind_ok hp

/-- A loop ends as one of its rounds does, or for want of fuel. -/
theorem run_loop {body : σ → Prog Op Ans ε (α ⊕ σ)} {dry : ε} {n : Nat} {s : σ} {r : Except ε α}
    (h : Run (Prog.loop body dry n s) t r) : r = .error dry ∨ ∃ s' u,
      (∃ a, r = .ok a ∧ Run (body s') u (.ok (.inl a))) ∨ ∃ e, r = .error e ∧ Run (body s') u (.error e) := by
  induction n generalizing s t with
  | zero => exact Or.inl (run_fail.1 h).2
  | succ n ih =>
    rw [Prog.loop, run_bind] at h
    rcases h with ⟨e, rfl, he⟩ | ⟨u, v, a | s', rfl, ha, h⟩
    · exact Or.inr ⟨s, t, Or.inr ⟨e, rfl, he⟩⟩
    · obtain ⟨-, rfl⟩ := run_ret.1 h
      exact Or.inr ⟨s, u, Or.inl ⟨a, rfl, ha⟩⟩
    · exact ih h

/-! ## Runs as plays -/

section Follow

variable {p q : Prog Op Ans ε α} {u v : Trace Op Ans} {d : Env Op Ans} {r : Except ε α}

/-- What a play leaves is a run. -/
theorem play_run (hp : play env t p = (u, r)) : ∃ v, u = t ++ v ∧ Run p v r := by
  induction p generalizing t with
  | ret a =>
    cases hp
    exact ⟨[], by simp, run_ret.2 ⟨rfl, rfl⟩⟩
  | fail e =>
    cases hp
    exact ⟨[], by simp, run_fail.2 ⟨rfl, rfl⟩⟩
  | ask o k ih =>
    obtain ⟨v, rfl, hv⟩ := ih (env t o) hp
    exact ⟨⟨o, env t o⟩ :: v, by simp, run_ask.2 ⟨_, v, rfl, hv⟩⟩

open Classical in
/-- Answers as in `t`; past its end, or off its course, as in `d`. -/
noncomputable def follow (t : Trace Op Ans) (d : Env Op Ans) : Env Op Ans := fun u o =>
  if hx : ∃ x, u ++ [⟨o, x⟩] <+: t then hx.choose else d u o

theorem follow_eq {o : Op} {x : Ans o} (hx : u ++ [⟨o, x⟩] <+: t) : follow t d u o = x := by
  have hex : ∃ x, u ++ [⟨o, x⟩] <+: t := ⟨x, hx⟩
  have heq : (u ++ [⟨o, hex.choose⟩] : Trace Op Ans) = u ++ [⟨o, x⟩] := by
    refine List.IsPrefix.eq_of_length (List.prefix_of_prefix_length_le hex.choose_spec hx ?_) ?_
    · simp
    · simp
  rw [follow, dif_pos hex]
  have hlast := List.append_cancel_left heq
  simpa using hlast

/-- An answer of `follow` is the one of `t`, or `d` gave it. -/
theorem follow_cases (t u : Trace Op Ans) (d : Env Op Ans) (o : Op) :
    u ++ [⟨o, follow t d u o⟩] <+: t ∨ follow t d u o = d u o := by
  by_cases hx : ∃ x, u ++ [⟨o, x⟩] <+: t
  · obtain ⟨x, hx⟩ := hx
    rw [follow_eq hx]
    exact Or.inl hx
  · rw [follow, dif_neg hx]
    exact Or.inr rfl

/-- A play that follows `t` comes through every exchange of it. -/
theorem play_follow (ha : After p v q) (hpre : u ++ v <+: t) :
    play (follow t d) u p = play (follow t d) (u ++ v) q := by
  induction v generalizing p u with
  | nil =>
    rw [after_nil] at ha
    rw [ha, List.append_nil]
  | cons e v ih =>
    cases p with
    | ret a => exact absurd (after_ret.1 ha).1 (by simp)
    | fail e' => exact absurd (after_fail.1 ha).1 (by simp)
    | ask o k =>
      obtain ⟨x, rfl, ha⟩ := ha
      have hpre' : u ++ [⟨o, x⟩] ++ v <+: t := by simpa using hpre
      have hx : follow t d u o = x := follow_eq ((List.prefix_append _ _).trans hpre')
      rw [play_ask, hx, ih ha hpre']
      simp

end Follow

end Interact

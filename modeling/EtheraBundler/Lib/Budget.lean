import EtheraBundler.Lib.Prog
import Mathlib.Data.List.Basic
/-!
# Budgets

A price on every question bounds what a program can spend on questions, however it is answered
and wherever it is cut.

* `spent price t` — what the questions of the trace `t` cost together.
* `Costs price p n` — whatever the answers, `p` spends at most `n`.
* `Costs.after` — what is spent and what is left to spend, at any point of a run.
* `Costs.bind`, `Costs.withGuard`, `Costs.mapFail`, … — one rule for each way to build a program.
-/

namespace Interact

open Prog

variable {Op : Type} {Ans : Op → Type} {ε ε' α β : Type} {price : Op → Nat}

/-- What a trace cost. -/
def spent (price : Op → Nat) : Trace Op Ans → Nat
  | [] => 0
  | e :: t => price e.1 + spent price t

@[simp] theorem spent_nil : spent price ([] : Trace Op Ans) = 0 := rfl

@[simp] theorem spent_cons (e : Event Op Ans) (t : Trace Op Ans) :
    spent price (e :: t) = price e.1 + spent price t := rfl

@[simp] theorem spent_append (t u : Trace Op Ans) : spent price (t ++ u) = spent price t + spent price u := by
  induction t with
  | nil => simp
  | cons e t ih =>
    rw [List.cons_append, spent_cons, spent_cons, ih]
    omega

/-- At one a question, a trace costs its length. -/
theorem spent_one (t : Trace Op Ans) : spent (fun _ => 1) t = t.length := by
  induction t with
  | nil => rfl
  | cons e t ih =>
    rw [spent_cons, ih, List.length_cons]
    omega

/-- A question asked for a price is paid for. -/
theorem price_le_spent {t : Trace Op Ans} {e : Event Op Ans} (h : e ∈ t) : price e.1 ≤ spent price t := by
  induction t with
  | nil => cases h
  | cons e' t ih =>
    rw [spent_cons]
    rcases List.mem_cons.1 h with rfl | h
    · omega
    · have hle := ih h
      omega

theorem length_le_spent {t : Trace Op Ans} (h : ∀ e ∈ t, 1 ≤ price e.1) : t.length ≤ spent price t := by
  induction t with
  | nil => simp
  | cons e t ih =>
    have he := h e List.mem_cons_self
    have ht := ih fun e' hm => h e' (List.mem_cons_of_mem _ hm)
    rw [spent_cons, List.length_cons]
    omega

/-- Whatever the answers, the questions of `p` cost at most `n` together. -/
def Costs (price : Op → Nat) : Prog Op Ans ε α → Nat → Prop
  | .ret _, _ => True
  | .fail _, _ => True
  | .ask o k, n => ∃ m, n = price o + m ∧ ∀ x, Costs price (k x) m

variable {p q : Prog Op Ans ε α} {n m : Nat} {t : Trace Op Ans}

/-- **What is spent and what is left**, at any point of a run. -/
theorem Costs.after (h : Costs price p n) (ht : After p t q) : ∃ m, n = spent price t + m ∧ Costs price q m := by
  induction t generalizing p n with
  | nil =>
    rw [after_nil] at ht
    exact ⟨n, by simp, ht ▸ h⟩
  | cons e t ih =>
    cases p with
    | ret a => exact absurd (after_ret.1 ht).1 (by simp)
    | fail e' => exact absurd (after_fail.1 ht).1 (by simp)
    | ask o k =>
      obtain ⟨x, rfl, ht⟩ := ht
      obtain ⟨m, rfl, hk⟩ := h
      obtain ⟨l, rfl, hq⟩ := ih (hk x) ht
      exact ⟨l, (Nat.add_assoc _ _ _).symm, hq⟩

theorem Costs.spent_le (h : Costs price p n) (ht : After p t q) : spent price t ≤ n := by
  obtain ⟨m, rfl, -⟩ := h.after ht
  omega

/-! ## How it is shown -/

@[simp] theorem costs_ret {a : α} : Costs price (.ret a : Prog Op Ans ε α) n := trivial
@[simp] theorem costs_fail {e : ε} : Costs price (.fail e : Prog Op Ans ε α) n := trivial

@[simp] theorem costs_exit {r : Except ε α} : Costs price (exit r : Prog Op Ans ε α) n := by
  cases r <;> trivial

@[simp] theorem costs_failIf {c : Prop} [Decidable c] {e : ε} : Costs price (failIf c e : Prog Op Ans ε Unit) n := by
  unfold failIf
  split <;> trivial

theorem Costs.mono (h : Costs price p n) (hle : n ≤ m) : Costs price p m := by
  induction p generalizing n m with
  | ret a => trivial
  | fail e => trivial
  | ask o k ih =>
    obtain ⟨l, rfl, hk⟩ := h
    exact ⟨m - price o, by omega, fun x => ih x (hk x) (by omega)⟩

theorem Costs.bind {f : α → Prog Op Ans ε β} (hp : Costs price p n) (hf : ∀ a, Costs price (f a) m) :
    Costs price (p >>= f) (n + m) := by
  induction p generalizing n with
  | ret a => exact (hf a).mono (by omega)
  | fail e => trivial
  | ask o k ih =>
    obtain ⟨l, rfl, hk⟩ := hp
    exact ⟨l + m, by omega, fun x => ih x (hk x)⟩

theorem Costs.mapFail {f : ε → ε'} (hp : Costs price p n) : Costs price (p.mapFail f) n := by
  induction p generalizing n with
  | ret a => trivial
  | fail e => trivial
  | ask o k ih =>
    obtain ⟨l, rfl, hk⟩ := hp
    exact ⟨l, rfl, fun x => ih x (hk x)⟩

theorem Costs.thenRelease {release : Op} (hp : Costs price p n) :
    Costs price (p.thenRelease release) (n + price release) := by
  induction p generalizing n with
  | ret a => exact ⟨n, by omega, fun _ => trivial⟩
  | fail e => exact ⟨n, by omega, fun _ => trivial⟩
  | ask o k ih =>
    obtain ⟨l, rfl, hk⟩ := hp
    exact ⟨l + price release, by omega, fun x => ih x (hk x)⟩

theorem Costs.withGuard {acquire release : Op} (hp : Costs price p n) :
    Costs price (withGuard acquire release p) (price acquire + (n + price release)) :=
  ⟨_, rfl, fun _ => hp.thenRelease⟩

end Interact

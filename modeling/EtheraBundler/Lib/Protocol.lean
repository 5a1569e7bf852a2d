import EtheraBundler.Lib.Prog
import Mathlib.Data.List.Induction
/-!
# Protocols

A protocol gives a program phases: `allow s o` says that `o` may be asked in phase `s`, `next s`
moves the phase along with the answer. `Obeys P s p Q E` is the triple for programs: from phase
`s` on, `p` asks only what is allowed, whatever the answers; it returns in phases that `Q` admits
for the result and fails in phases that `E` admits for the failure.

* `Obeys.after`, `Obeys.asks`, `Obeys.trace` — what a program that obeys does in every run.
* `Obeys.bind`, `Obeys.thenRelease`, `Obeys.withGuard`, `Only.obeys` — the rules by which a
  program is shown to obey.
-/

namespace Interact

open Prog

/-- Phases, the questions each of them allows, and where an answered question leads. -/
structure Protocol (Op : Type) (Ans : Op → Type) (σ : Type) where
  allow : σ → Op → Prop
  next : σ → Event Op Ans → σ

variable {Op : Type} {Ans : Op → Type} {ε ε' α β σ : Type}

/-- The phase after a trace. -/
def Protocol.phase (P : Protocol Op Ans σ) (s : σ) (t : Trace Op Ans) : σ := t.foldl P.next s

@[simp] theorem Protocol.phase_nil (P : Protocol Op Ans σ) (s : σ) : P.phase s [] = s := rfl

@[simp] theorem Protocol.phase_snoc (P : Protocol Op Ans σ) (s : σ) (e : Event Op Ans) (t : Trace Op Ans) :
    P.phase s (t ++ [e]) = P.next (P.phase s t) e := by
  rw [phase, List.foldl_append]
  rfl

/-- From phase `s` on, `p` keeps to the protocol; it returns within `Q` and fails within `E`. -/
def Obeys (P : Protocol Op Ans σ) : σ → Prog Op Ans ε α → (σ → α → Prop) → (σ → ε → Prop) → Prop
  | s, .ret a, Q, _ => Q s a
  | s, .fail e, _, E => E s e
  | s, .ask o k, Q, E => P.allow s o ∧ ∀ x, Obeys P (P.next s ⟨o, x⟩) (k x) Q E

variable {P : Protocol Op Ans σ} {s : σ} {p q : Prog Op Ans ε α} {t : Trace Op Ans}
  {Q : σ → α → Prop} {E : σ → ε → Prop}

/-! ## What obedience gives -/

theorem Obeys.after (h : Obeys P s p Q E) (ht : After p t q) : Obeys P (P.phase s t) q Q E := by
  induction t generalizing p s with
  | nil =>
    rw [after_nil] at ht
    rwa [← ht]
  | cons e t ih =>
    cases p with
    | ret a => exact absurd (after_ret.1 ht).1 (by simp)
    | fail e' => exact absurd (after_fail.1 ht).1 (by simp)
    | ask o k =>
      obtain ⟨x, rfl, ht⟩ := ht
      exact ih (h.2 x) ht

/-- Whatever is pending is allowed. -/
theorem Obeys.asks {o : Op} (h : Obeys P s p Q E) (ht : Asks p t o) : P.allow (P.phase s t) o := by
  obtain ⟨k, ht⟩ := ht
  exact (h.after ht).1

/-- A relation between phase and trace that every allowed question keeps. -/
theorem Obeys.trace {I : σ → Trace Op Ans → Prop} (h : Obeys P s p Q E) (ht : After p t q) (h₀ : I s [])
    (hstep : ∀ s t o x, I s t → P.allow s o → I (P.next s ⟨o, x⟩) (t ++ [⟨o, x⟩])) : I (P.phase s t) t := by
  induction t using List.reverseRecOn generalizing q with
  | nil => exact h₀
  | append_singleton t e ih =>
    obtain ⟨o, x⟩ := e
    obtain ⟨q', hq, -⟩ := after_append.1 ht
    rw [Protocol.phase_snoc]
    exact hstep _ _ o x (ih hq) (h.asks ht.asks)

/-! ## How it is shown -/

theorem obeys_exit {r : Except ε α} :
    Obeys P s (exit r) Q E ↔ (∀ a, r = .ok a → Q s a) ∧ ∀ e, r = .error e → E s e := by
  cases r <;> simp [exit, Obeys]

theorem obeys_failIf {c : Prop} [Decidable c] {e : ε} {Q : σ → Unit → Prop} (hQ : Q s ()) (hE : E s e) :
    Obeys P s (failIf c e) Q E := by
  unfold failIf
  split
  · exact hE
  · exact hQ

theorem Obeys.mono {Q' : σ → α → Prop} {E' : σ → ε → Prop} (h : Obeys P s p Q E)
    (hQ : ∀ s a, Q s a → Q' s a) (hE : ∀ s e, E s e → E' s e) : Obeys P s p Q' E' := by
  induction p generalizing s with
  | ret a => exact hQ s a h
  | fail e => exact hE s e h
  | ask o k ih => exact ⟨h.1, fun x => ih x (h.2 x)⟩

/-- The continuation starts in a phase the first part can return in. -/
theorem Obeys.bind {f : α → Prog Op Ans ε β} {Q : σ → β → Prop} {R : σ → α → Prop} (h : Obeys P s p R E)
    (hf : ∀ s a, R s a → Obeys P s (f a) Q E) : Obeys P s (p >>= f) Q E := by
  induction p generalizing s with
  | ret a => exact hf s a h
  | fail e => exact h
  | ask o k ih => exact ⟨h.1, fun x => ih x (h.2 x)⟩

/-- The release may be asked wherever the body ends. -/
theorem Obeys.thenRelease {release : Op}
    (h : Obeys P s p (fun s a => P.allow s release ∧ ∀ x, Q (P.next s ⟨release, x⟩) a)
      fun s e => P.allow s release ∧ ∀ x, E (P.next s ⟨release, x⟩) e) :
    Obeys P s (p.thenRelease release) Q E := by
  induction p generalizing s with
  | ret a => exact h
  | fail e => exact h
  | ask o k ih => exact ⟨h.1, fun x => ih x (h.2 x)⟩

theorem Obeys.withGuard {acquire release : Op} (ha : P.allow s acquire)
    (h : ∀ x, Obeys P (P.next s ⟨acquire, x⟩) p
      (fun s a => P.allow s release ∧ ∀ x, Q (P.next s ⟨release, x⟩) a)
      fun s e => P.allow s release ∧ ∀ x, E (P.next s ⟨release, x⟩) e) :
    Obeys P s (Prog.withGuard acquire release p) Q E :=
  ⟨ha, fun x => (h x).thenRelease⟩

/-- A program whose questions are all allowed in `s` and stay there. -/
theorem Only.obeys {C : Op → Prop} (h : Only C p) (hs : ∀ o, C o → P.allow s o ∧ ∀ x, P.next s ⟨o, x⟩ = s)
    (hQ : ∀ a, Q s a) (hE : ∀ e, E s e) : Obeys P s p Q E := by
  induction p with
  | ret a => exact hQ a
  | fail e => exact hE e
  | ask o k ih =>
    obtain ⟨h1, h2⟩ := hs o h.1
    refine ⟨h1, fun x => ?_⟩
    rw [h2 x]
    exact ih x (h.2 x)

end Interact

/-!
# Interaction programs

A program that can only learn about the world by asking it questions: `ask o k` asks `o` and
goes on with the answer, `ret a` and `fail e` are its two exits. Nothing is said about who
answers; every theorem quantifies over the answers, so one program text serves a sequential
run, a concurrent pool (`Pool.lean`) and a run that is cut short.

* `After p t q` — having asked and been answered `t`, `p` has become `q`.
* `Run p t r` — `p` ended with `r` after the exchange `t`.
* `Asks p t o` — after `t`, `p` is waiting for the answer to `o`.
* `after_bind`, `run_bind`, `run_bind_ok`, `run_bind_error`, `asks_bind` — how the three split along `>>=`.
* `Only P p` — whatever the answers, every question `p` asks satisfies `P`.
* `FailsWith P p` — whatever the answers, every failure of `p` satisfies `P`.
* `StopsOn bad p` — on an answer that `bad` names a failure for, `p` fails with it at once.
* `exec env p` — the run against a fixed table of answers (`exec_run`), the only one it allows
  (`exec_eq_of_run`).
-/

namespace Interact

/-- A program asking questions `o : Op`, answered in `Ans o`. -/
inductive Prog (Op : Type) (Ans : Op → Type) (ε α : Type) : Type where
  | ret (a : α)
  | fail (e : ε)
  | ask (o : Op) (k : Ans o → Prog Op Ans ε α)

/-- A question together with the answer it got. -/
abbrev Event (Op : Type) (Ans : Op → Type) := Sigma Ans

abbrev Trace (Op : Type) (Ans : Op → Type) := List (Event Op Ans)

variable {Op : Type} {Ans : Op → Type} {ε ε' α β γ : Type}

namespace Prog

def bind : Prog Op Ans ε α → (α → Prog Op Ans ε β) → Prog Op Ans ε β
  | .ret a, f => f a
  | .fail e, _ => .fail e
  | .ask o k, f => .ask o fun x => (k x).bind f

instance : Monad (Prog Op Ans ε) where
  pure := .ret
  bind := bind

@[simp] theorem pure_eq (a : α) : (pure a : Prog Op Ans ε α) = .ret a := rfl
@[simp] theorem ret_bind (a : α) (f : α → Prog Op Ans ε β) : (Prog.ret a >>= f) = f a := rfl
@[simp] theorem fail_bind (e : ε) (f : α → Prog Op Ans ε β) : (Prog.fail e >>= f) = .fail e := rfl
@[simp] theorem ask_bind (o : Op) (k : Ans o → Prog Op Ans ε α) (f : α → Prog Op Ans ε β) :
    (Prog.ask o k >>= f) = .ask o fun x => k x >>= f := rfl

/-- The program that exits with `r` at once. -/
def exit : Except ε α → Prog Op Ans ε α
  | .ok a => .ret a
  | .error e => .fail e

@[simp] theorem exit_ok (a : α) : (exit (.ok a) : Prog Op Ans ε α) = .ret a := rfl
@[simp] theorem exit_error (e : ε) : (exit (.error e) : Prog Op Ans ε α) = .fail e := rfl

/-- Fail with `e` when `c` holds. -/
def failIf (c : Prop) [Decidable c] (e : ε) : Prog Op Ans ε Unit := if c then .fail e else .ret ()

/-- Run `p`; on either exit ask `release` before leaving. -/
def thenRelease (release : Op) : Prog Op Ans ε α → Prog Op Ans ε α
  | .ret a => .ask release fun _ => .ret a
  | .fail e => .ask release fun _ => .fail e
  | .ask o k => .ask o fun x => (k x).thenRelease release

/-- Convert the failures of `p`. -/
def mapFail (f : ε → ε') : Prog Op Ans ε α → Prog Op Ans ε' α
  | .ret a => .ret a
  | .fail e => .fail (f e)
  | .ask o k => .ask o fun x => (k x).mapFail f

/-- A scoped guard: `acquire`, then `body`, and `release` on every exit of `body`. -/
def withGuard (acquire release : Op) (body : Prog Op Ans ε α) : Prog Op Ans ε α :=
  .ask acquire fun _ => body.thenRelease release

end Prog

open Prog

/-! ## Residuals, runs and pending questions -/

/-- Having been answered `t`, `p` has become `q`. -/
def After : Prog Op Ans ε α → Trace Op Ans → Prog Op Ans ε α → Prop
  | p, [], q => p = q
  | .ask o k, e :: t, q => ∃ x, e = ⟨o, x⟩ ∧ After (k x) t q
  | .ret _, _ :: _, _ => False
  | .fail _, _ :: _, _ => False

/-- `p` ended with `r` after the exchange `t`. -/
def Run (p : Prog Op Ans ε α) (t : Trace Op Ans) (r : Except ε α) : Prop := After p t (exit r)

/-- After `t`, `p` is waiting for the answer to `o`. -/
def Asks (p : Prog Op Ans ε α) (t : Trace Op Ans) (o : Op) : Prop := ∃ k, After p t (.ask o k)

@[simp] theorem after_nil {p q : Prog Op Ans ε α} : After p [] q ↔ p = q := by
  cases p <;> simp [After]

@[simp] theorem after_ask_cons {o : Op} {k : Ans o → Prog Op Ans ε α} {e : Event Op Ans}
    {t : Trace Op Ans} {q : Prog Op Ans ε α} :
    After (.ask o k) (e :: t) q ↔ ∃ x, e = ⟨o, x⟩ ∧ After (k x) t q := Iff.rfl

@[simp] theorem after_ret {a : α} {t : Trace Op Ans} {q : Prog Op Ans ε α} :
    After (.ret a) t q ↔ t = [] ∧ .ret a = q := by
  cases t <;> simp [After]

@[simp] theorem after_fail {e : ε} {t : Trace Op Ans} {q : Prog Op Ans ε α} :
    After (.fail e) t q ↔ t = [] ∧ .fail e = q := by
  cases t <;> simp [After]

/-- Residuals compose along the trace. -/
theorem after_append {p q : Prog Op Ans ε α} {t u : Trace Op Ans} :
    After p (t ++ u) q ↔ ∃ p', After p t p' ∧ After p' u q := by
  induction t generalizing p with
  | nil => simp
  | cons e t ih =>
    cases p with
    | ret a => simp
    | fail e => simp
    | ask o k =>
      simp only [List.cons_append, after_ask_cons, ih]
      constructor
      · rintro ⟨x, rfl, p', h1, h2⟩; exact ⟨p', ⟨x, rfl, h1⟩, h2⟩
      · rintro ⟨p', ⟨x, rfl, h1⟩, h2⟩; exact ⟨x, rfl, p', h1, h2⟩

/-- One more answer. -/
theorem After.snoc {p : Prog Op Ans ε α} {t : Trace Op Ans} {o : Op} {k : Ans o → Prog Op Ans ε α}
    (h : After p t (.ask o k)) (x : Ans o) : After p (t ++ [⟨o, x⟩]) (k x) :=
  after_append.2 ⟨_, h, x, rfl, by simp⟩

/-- An answered question was pending before its answer. -/
theorem After.asks {p q : Prog Op Ans ε α} {t u : Trace Op Ans} {o : Op} {x : Ans o}
    (h : After p (t ++ ⟨o, x⟩ :: u) q) : Asks p t o := by
  obtain ⟨p', h1, h2⟩ := after_append.1 h
  cases p' with
  | ret a => simp at h2
  | fail e => simp at h2
  | ask o' k =>
    obtain ⟨y, he, -⟩ := h2
    cases he
    exact ⟨k, h1⟩

/-- Every event of a trace was once the pending question. -/
theorem After.asks_of_mem {p q : Prog Op Ans ε α} {t : Trace Op Ans} {o : Op} {x : Ans o}
    (h : After p t q) (hm : ⟨o, x⟩ ∈ t) : ∃ t₁ t₂, t = t₁ ++ ⟨o, x⟩ :: t₂ ∧ Asks p t₁ o := by
  obtain ⟨t₁, t₂, rfl⟩ := List.append_of_mem hm
  exact ⟨t₁, t₂, rfl, h.asks⟩

/-! ## Sequencing -/

theorem after_bind {p : Prog Op Ans ε α} {f : α → Prog Op Ans ε β} {t : Trace Op Ans}
    {q : Prog Op Ans ε β} :
    After (p >>= f) t q ↔
      (∃ p', After p t p' ∧ (p' >>= f) = q) ∨
      ∃ t₁ t₂ a, t = t₁ ++ t₂ ∧ Run p t₁ (.ok a) ∧ After (f a) t₂ q := by
  induction p generalizing t with
  | ret a =>
    simp only [ret_bind, after_ret, Run, exit_ok]
    constructor
    · intro h; exact Or.inr ⟨[], t, a, rfl, ⟨rfl, rfl⟩, h⟩
    · rintro (⟨p', ⟨rfl, rfl⟩, h⟩ | ⟨t₁, t₂, a', rfl, ⟨rfl, ha⟩, h⟩)
      · simpa using h
      · cases ha; exact h
  | fail e =>
    simp only [fail_bind, after_fail, Run, exit_ok, reduceCtorEq, and_false, false_and, exists_false,
      or_false]
    constructor
    · rintro ⟨rfl, h⟩; exact ⟨.fail e, ⟨rfl, rfl⟩, h⟩
    · rintro ⟨p', ⟨rfl, rfl⟩, h⟩; exact ⟨rfl, h⟩
  | ask o k ih =>
    cases t with
    | nil =>
      simp only [after_nil, Run, exit_ok]
      constructor
      · intro h; exact Or.inl ⟨_, rfl, h⟩
      · rintro (⟨p', rfl, h⟩ | ⟨t₁, t₂, a, he, h, -⟩)
        · exact h
        · obtain ⟨rfl, rfl⟩ := List.append_eq_nil_iff.1 he.symm
          simp at h
    | cons e t =>
      simp only [ask_bind, after_ask_cons]
      constructor
      · rintro ⟨x, rfl, h⟩
        rcases (ih x).1 h with ⟨p', h1, h2⟩ | ⟨t₁, t₂, a, rfl, h1, h2⟩
        · exact Or.inl ⟨p', ⟨x, rfl, h1⟩, h2⟩
        · exact Or.inr ⟨⟨o, x⟩ :: t₁, t₂, a, rfl, ⟨x, rfl, h1⟩, h2⟩
      · rintro (⟨p', ⟨x, rfl, h1⟩, h2⟩ | ⟨t₁, t₂, a, he, h1, h2⟩)
        · exact ⟨x, rfl, (ih x).2 (Or.inl ⟨p', h1, h2⟩)⟩
        · cases t₁ with
          | nil => simp [Run] at h1
          | cons e' t₁ =>
            obtain ⟨x, rfl, h1⟩ := h1
            cases he
            exact ⟨x, rfl, (ih x).2 (Or.inr ⟨t₁, t₂, a, rfl, h1, h2⟩)⟩

theorem run_bind_ok {p : Prog Op Ans ε α} {f : α → Prog Op Ans ε β} {t : Trace Op Ans} {b : β} :
    Run (p >>= f) t (.ok b) ↔
      ∃ t₁ t₂ a, t = t₁ ++ t₂ ∧ Run p t₁ (.ok a) ∧ Run (f a) t₂ (.ok b) := by
  rw [Run, after_bind]
  constructor
  · rintro (⟨p', h1, h2⟩ | h)
    · cases p' with
      | ret a => exact ⟨t, [], a, by simp, h1, by simpa [Run] using h2⟩
      | fail e => simp at h2
      | ask o k => simp at h2
    · exact h
  · exact Or.inr

theorem run_bind_error {p : Prog Op Ans ε α} {f : α → Prog Op Ans ε β} {t : Trace Op Ans} {e : ε} :
    Run (p >>= f) t (.error e) ↔
      Run p t (.error e) ∨
      ∃ t₁ t₂ a, t = t₁ ++ t₂ ∧ Run p t₁ (.ok a) ∧ Run (f a) t₂ (.error e) := by
  rw [Run, after_bind]
  constructor
  · rintro (⟨p', h1, h2⟩ | h)
    · cases p' with
      | ret a => exact Or.inr ⟨t, [], a, by simp, h1, by simpa [Run] using h2⟩
      | fail e' =>
        simp only [fail_bind, exit_error, Prog.fail.injEq] at h2
        subst h2; exact Or.inl h1
      | ask o k => simp at h2
    · exact Or.inr h
  · rintro (h | h)
    · exact Or.inl ⟨.fail e, h, rfl⟩
    · exact Or.inr h

/-- A sequence ends where its first part fails, or as its second part does. -/
theorem run_bind {p : Prog Op Ans ε α} {f : α → Prog Op Ans ε β} {t : Trace Op Ans} {r : Except ε β} :
    Run (p >>= f) t r ↔
      (∃ e, r = .error e ∧ Run p t (.error e)) ∨
      ∃ t₁ t₂ a, t = t₁ ++ t₂ ∧ Run p t₁ (.ok a) ∧ Run (f a) t₂ r := by
  cases r with
  | ok b => simp [run_bind_ok]
  | error e => simp [run_bind_error]

/-- A run of a sequence is one of another whose parts do what these did along it. -/
theorem Run.bind_congr {p p' : Prog Op Ans ε α} {f g : α → Prog Op Ans ε β} {t : Trace Op Ans} {r : Except ε β}
    (h : Run (p >>= f) t r) (hp : ∀ t₁ t₂ x, t = t₁ ++ t₂ → Run p t₁ x → Run p' t₁ x)
    (hf : ∀ t₁ t₂ a, t = t₁ ++ t₂ → Run p t₁ (.ok a) → Run (f a) t₂ r → Run (g a) t₂ r) :
    Run (p' >>= g) t r := by
  rcases run_bind.1 h with ⟨e, rfl, h1⟩ | ⟨t₁, t₂, a, rfl, h1, h2⟩
  · exact run_bind.2 (Or.inl ⟨e, rfl, hp t [] _ (List.append_nil t).symm h1⟩)
  · exact run_bind.2 (Or.inr ⟨t₁, t₂, a, rfl, hp t₁ t₂ _ rfl h1, hf t₁ t₂ a rfl h1 h2⟩)

theorem asks_bind {p : Prog Op Ans ε α} {f : α → Prog Op Ans ε β} {t : Trace Op Ans} {o : Op} :
    Asks (p >>= f) t o ↔
      Asks p t o ∨ ∃ t₁ t₂ a, t = t₁ ++ t₂ ∧ Run p t₁ (.ok a) ∧ Asks (f a) t₂ o := by
  simp only [Asks, after_bind]
  constructor
  · rintro ⟨k, ⟨p', h1, h2⟩ | ⟨t₁, t₂, a, rfl, h1, h2⟩⟩
    · cases p' with
      | ret a =>
        simp only [ret_bind] at h2
        exact Or.inr ⟨t, [], a, by simp, h1, k, by simpa using h2⟩
      | fail e' => simp at h2
      | ask o' k' =>
        simp only [ask_bind, Prog.ask.injEq] at h2
        obtain ⟨rfl, -⟩ := h2
        exact Or.inl ⟨k', h1⟩
    · exact Or.inr ⟨t₁, t₂, a, rfl, h1, k, h2⟩
  · rintro (⟨k, h⟩ | ⟨t₁, t₂, a, rfl, h1, k, h2⟩)
    · exact ⟨_, Or.inl ⟨_, h, rfl⟩⟩
    · exact ⟨k, Or.inr ⟨t₁, t₂, a, rfl, h1, h2⟩⟩

/-! ### The leaves -/

@[simp] theorem run_ret {a : α} {t : Trace Op Ans} {r : Except ε α} :
    Run (.ret a) t r ↔ t = [] ∧ r = .ok a := by
  cases r <;> simp [Run, eq_comm]

@[simp] theorem run_fail {e : ε} {t : Trace Op Ans} {r : Except ε α} :
    Run (.fail e) t r ↔ t = [] ∧ r = .error e := by
  cases r <;> simp [Run, eq_comm]

theorem run_ask {o : Op} {k : Ans o → Prog Op Ans ε α} {t : Trace Op Ans} {r : Except ε α} :
    Run (.ask o k) t r ↔ ∃ x t', t = ⟨o, x⟩ :: t' ∧ Run (k x) t' r := by
  cases t with
  | nil => cases r <;> simp [Run]
  | cons e t =>
    simp only [Run, after_ask_cons, List.cons.injEq]
    constructor
    · rintro ⟨x, rfl, h⟩; exact ⟨x, t, ⟨rfl, rfl⟩, h⟩
    · rintro ⟨x, t', ⟨rfl, rfl⟩, h⟩; exact ⟨x, rfl, h⟩

@[simp] theorem run_failIf {c : Prop} [Decidable c] {e : ε} {t : Trace Op Ans} {r : Except ε Unit} :
    Run (failIf c e) t r ↔ t = [] ∧ r = if c then .error e else .ok () := by
  unfold failIf; split <;> simp

@[simp] theorem run_exit {r r' : Except ε α} {t : Trace Op Ans} :
    Run (exit r) t r' ↔ t = [] ∧ r' = r := by
  cases r <;> simp

@[simp] theorem asks_ret {a : α} {t : Trace Op Ans} {o : Op} :
    ¬ Asks (.ret a : Prog Op Ans ε α) t o := by simp [Asks]

@[simp] theorem asks_fail {e : ε} {t : Trace Op Ans} {o : Op} :
    ¬ Asks (.fail e : Prog Op Ans ε α) t o := by simp [Asks]

@[simp] theorem asks_exit {r : Except ε α} {t : Trace Op Ans} {o : Op} :
    ¬ Asks (exit r : Prog Op Ans ε α) t o := by cases r <;> simp

theorem asks_ask {o o' : Op} {k : Ans o → Prog Op Ans ε α} {t : Trace Op Ans} :
    Asks (.ask o k) t o' ↔ (t = [] ∧ o' = o) ∨ ∃ x t', t = ⟨o, x⟩ :: t' ∧ Asks (k x) t' o' := by
  cases t with
  | nil =>
    simp only [Asks, after_nil, true_and, reduceCtorEq, false_and, exists_false, or_false,
      Prog.ask.injEq]
    constructor
    · rintro ⟨k', rfl, -⟩; rfl
    · rintro rfl; exact ⟨k, rfl, HEq.rfl⟩
  | cons e t =>
    simp only [Asks, after_ask_cons, reduceCtorEq, false_and, false_or, List.cons.injEq]
    constructor
    · rintro ⟨k', x, rfl, h⟩; exact ⟨x, t, ⟨rfl, rfl⟩, k', h⟩
    · rintro ⟨x, t', ⟨rfl, rfl⟩, k', h⟩; exact ⟨k', x, rfl, h⟩

@[simp] theorem asks_failIf {c : Prop} [Decidable c] {e : ε} {t : Trace Op Ans} {o : Op} :
    ¬ Asks (failIf c e : Prog Op Ans ε Unit) t o := by
  unfold failIf; split <;> simp

/-- The answers determine how a program ends. -/
theorem Run.unique {p : Prog Op Ans ε α} {t : Trace Op Ans} {r r' : Except ε α} (h : Run p t r)
    (h' : Run p t r') : r = r' := by
  induction p generalizing t with
  | ret a => rw [(run_ret.1 h).2, (run_ret.1 h').2]
  | fail e => rw [(run_fail.1 h).2, (run_fail.1 h').2]
  | ask o k ih =>
    obtain ⟨x, u, rfl, hx⟩ := run_ask.1 h
    obtain ⟨y, v, he, hy⟩ := run_ask.1 h'
    cases he
    exact ih x hx hy

/-! ### Converted failures -/

theorem run_mapFail_ok {f : ε → ε'} {p : Prog Op Ans ε α} {t : Trace Op Ans} {a : α} :
    Run (p.mapFail f) t (.ok a) ↔ Run p t (.ok a) := by
  induction p generalizing t with
  | ret b => simp [mapFail]
  | fail e => simp [mapFail]
  | ask o k ih => simp only [mapFail, run_ask, ih]

theorem run_mapFail_error {f : ε → ε'} {p : Prog Op Ans ε α} {t : Trace Op Ans} {e' : ε'} :
    Run (p.mapFail f) t (.error e') ↔ ∃ e, e' = f e ∧ Run p t (.error e) := by
  induction p generalizing t with
  | ret b => simp [mapFail]
  | fail e =>
    simp only [mapFail, run_fail, Except.error.injEq]
    constructor
    · rintro ⟨rfl, rfl⟩; exact ⟨e, rfl, rfl, rfl⟩
    · rintro ⟨e, rfl, rfl, rfl⟩; exact ⟨rfl, rfl⟩
  | ask o k ih =>
    simp only [mapFail, run_ask, ih]
    constructor
    · rintro ⟨x, t', rfl, e, rfl, h⟩; exact ⟨e, rfl, x, t', rfl, h⟩
    · rintro ⟨e, rfl, x, t', rfl, h⟩; exact ⟨x, t', rfl, e, rfl, h⟩

theorem run_mapFail {f : ε → ε'} {p : Prog Op Ans ε α} {t : Trace Op Ans} {r : Except ε' α} :
    Run (p.mapFail f) t r ↔ ∃ r', Run p t r' ∧ r = r'.mapError f := by
  rcases r with e | a
  · rw [run_mapFail_error]
    constructor
    · rintro ⟨e', rfl, h⟩
      exact ⟨.error e', h, rfl⟩
    · rintro ⟨e' | a, h, he⟩
      · cases he
        exact ⟨e', rfl, h⟩
      · cases he
  · rw [run_mapFail_ok]
    constructor
    · exact fun h => ⟨.ok a, h, rfl⟩
    · rintro ⟨e' | a', h, he⟩
      · cases he
      · cases he
        exact h

theorem asks_mapFail {f : ε → ε'} {p : Prog Op Ans ε α} {t : Trace Op Ans} {o : Op} :
    Asks (p.mapFail f) t o ↔ Asks p t o := by
  induction p generalizing t with
  | ret a => simp [mapFail]
  | fail e => simp [mapFail]
  | ask o' k ih => simp only [mapFail, asks_ask, ih]

/-! ### Guards -/

/-- A guarded body exits as the body does, with the release as its last event. -/
theorem run_thenRelease {release : Op} {p : Prog Op Ans ε α} {t : Trace Op Ans} {r : Except ε α} :
    Run (p.thenRelease release) t r ↔ ∃ t' x, t = t' ++ [⟨release, x⟩] ∧ Run p t' r := by
  induction p generalizing t with
  | ret a =>
    simp only [thenRelease, run_ask, run_ret]
    constructor
    · rintro ⟨x, t', rfl, rfl, h⟩; exact ⟨[], x, rfl, rfl, h⟩
    · rintro ⟨t', x, rfl, rfl, h⟩; exact ⟨x, [], rfl, rfl, h⟩
  | fail e =>
    simp only [thenRelease, run_ask, run_fail]
    constructor
    · rintro ⟨x, t', rfl, rfl, h⟩; exact ⟨[], x, rfl, rfl, h⟩
    · rintro ⟨t', x, rfl, rfl, h⟩; exact ⟨x, [], rfl, rfl, h⟩
  | ask o k ih =>
    simp only [thenRelease, run_ask]
    constructor
    · rintro ⟨x, t', rfl, h⟩
      obtain ⟨u, y, rfl, hu⟩ := (ih x).1 h
      exact ⟨⟨o, x⟩ :: u, y, rfl, x, u, rfl, hu⟩
    · rintro ⟨u, y, rfl, x, t', rfl, h⟩
      exact ⟨x, t' ++ [⟨release, y⟩], rfl, (ih x).2 ⟨t', y, rfl, h⟩⟩

theorem run_withGuard {acquire release : Op} {p : Prog Op Ans ε α} {t : Trace Op Ans}
    {r : Except ε α} :
    Run (withGuard acquire release p) t r ↔
      ∃ x t' y, t = ⟨acquire, x⟩ :: t' ++ [⟨release, y⟩] ∧ Run p t' r := by
  simp only [withGuard, run_ask, run_thenRelease]
  constructor
  · rintro ⟨x, _, rfl, t', y, rfl, h⟩; exact ⟨x, t', y, rfl, h⟩
  · rintro ⟨x, t', y, rfl, h⟩; exact ⟨x, _, rfl, t', y, rfl, h⟩

/-- Inside a guard the pending question is the body's, the release, or the acquisition. -/
theorem asks_thenRelease {release o : Op} {p : Prog Op Ans ε α} {t : Trace Op Ans} :
    Asks (p.thenRelease release) t o ↔ Asks p t o ∨ (o = release ∧ ∃ r, Run p t r) := by
  induction p generalizing t with
  | ret a => simp [thenRelease, asks_ask, and_comm]
  | fail e => simp [thenRelease, asks_ask, and_comm]
  | ask o' k ih =>
    simp only [thenRelease, asks_ask, run_ask, ih]
    constructor
    · rintro (h | ⟨x, t', rfl, h | ⟨rfl, r, h⟩⟩)
      · exact Or.inl (Or.inl h)
      · exact Or.inl (Or.inr ⟨x, t', rfl, h⟩)
      · exact Or.inr ⟨rfl, r, x, t', rfl, h⟩
    · rintro ((h | ⟨x, t', rfl, h⟩) | ⟨rfl, r, x, t', rfl, h⟩)
      · exact Or.inl h
      · exact Or.inr ⟨x, t', rfl, Or.inl h⟩
      · exact Or.inr ⟨x, t', rfl, Or.inr ⟨rfl, r, h⟩⟩

theorem asks_withGuard {acquire release o : Op} {p : Prog Op Ans ε α} {t : Trace Op Ans} :
    Asks (withGuard acquire release p) t o ↔
      (t = [] ∧ o = acquire) ∨
      ∃ x t', t = ⟨acquire, x⟩ :: t' ∧ (Asks p t' o ∨ (o = release ∧ ∃ r, Run p t' r)) := by
  simp only [withGuard, asks_ask, asks_thenRelease]

/-! ## Which questions a program can ask -/

/-- Whatever the answers, every question of `p` satisfies `P`. -/
def Only (P : Op → Prop) : Prog Op Ans ε α → Prop
  | .ret _ => True
  | .fail _ => True
  | .ask o k => P o ∧ ∀ x, Only P (k x)

@[simp] theorem only_ret {P : Op → Prop} {a : α} : Only P (.ret a : Prog Op Ans ε α) := trivial
@[simp] theorem only_fail {P : Op → Prop} {e : ε} : Only P (.fail e : Prog Op Ans ε α) := trivial

@[simp] theorem only_exit {P : Op → Prop} {r : Except ε α} : Only P (exit r : Prog Op Ans ε α) := by
  cases r <;> simp

@[simp] theorem only_failIf {P : Op → Prop} {c : Prop} [Decidable c] {e : ε} :
    Only P (failIf c e : Prog Op Ans ε Unit) := by
  unfold failIf; split <;> simp

theorem Only.mono {P P' : Op → Prop} {p : Prog Op Ans ε α} (hp : Only P p) (h : ∀ o, P o → P' o) :
    Only P' p := by
  induction p with
  | ret a => trivial
  | fail e => trivial
  | ask o k ih => exact ⟨h o hp.1, fun x => ih x (hp.2 x)⟩

theorem Only.bind {P : Op → Prop} {p : Prog Op Ans ε α} {f : α → Prog Op Ans ε β}
    (hp : Only P p) (hf : ∀ a, Only P (f a)) : Only P (p >>= f) := by
  induction p with
  | ret a => exact hf a
  | fail e => trivial
  | ask o k ih => exact ⟨hp.1, fun x => ih x (hp.2 x)⟩

theorem Only.mapFail {P : Op → Prop} {f : ε → ε'} {p : Prog Op Ans ε α} (hp : Only P p) :
    Only P (p.mapFail f) := by
  induction p with
  | ret a => trivial
  | fail e => trivial
  | ask o k ih => exact ⟨hp.1, fun x => ih x (hp.2 x)⟩

theorem Only.withGuard {P : Op → Prop} {acquire release : Op} {p : Prog Op Ans ε α} (ha : P acquire)
    (hr : P release) (hp : Only P p) : Only P (withGuard acquire release p) := by
  refine ⟨ha, fun _ => ?_⟩
  induction p with
  | ret a => exact ⟨hr, fun _ => trivial⟩
  | fail e => exact ⟨hr, fun _ => trivial⟩
  | ask o k ih => exact ⟨hp.1, fun x => ih x (hp.2 x)⟩

theorem Only.after {P : Op → Prop} {p q : Prog Op Ans ε α} {t : Trace Op Ans} (hp : Only P p)
    (h : After p t q) : Only P q := by
  induction t generalizing p with
  | nil => exact after_nil.1 h ▸ hp
  | cons e t ih =>
    cases p with
    | ret a => simp at h
    | fail e => simp at h
    | ask o k =>
      obtain ⟨x, rfl, h⟩ := h
      exact ih (hp.2 x) h

theorem Only.asks {P : Op → Prop} {p : Prog Op Ans ε α} {t : Trace Op Ans} {o : Op} (hp : Only P p)
    (h : Asks p t o) : P o := by
  obtain ⟨k, h⟩ := h
  exact (hp.after h).1

/-- The trace of such a program holds nothing but such questions. -/
theorem Only.mem {P : Op → Prop} {p q : Prog Op Ans ε α} {t : Trace Op Ans} {o : Op} {x : Ans o}
    (hp : Only P p) (h : After p t q) (hm : ⟨o, x⟩ ∈ t) : P o := by
  obtain ⟨t₁, t₂, rfl, hq⟩ := h.asks_of_mem hm
  exact hp.asks hq

/-! ## How a program can fail -/

/-- Whatever the answers, every failure of `p` satisfies `P`. -/
def FailsWith (P : ε → Prop) (p : Prog Op Ans ε α) : Prop := ∀ t e, Run p t (.error e) → P e

@[simp] theorem failsWith_ret {P : ε → Prop} {a : α} : FailsWith P (.ret a : Prog Op Ans ε α) := by
  intro t e h
  exact absurd (run_ret.1 h).2 (by simp)

theorem failsWith_failIf {P : ε → Prop} {c : Prop} [Decidable c] {e : ε} (h : P e) :
    FailsWith P (failIf c e : Prog Op Ans ε Unit) := by
  intro t e' he
  have h1 := (run_failIf.1 he).2
  split at h1
  · cases h1; exact h
  · cases h1

theorem FailsWith.mono {P P' : ε → Prop} {p : Prog Op Ans ε α} (hp : FailsWith P p) (h : ∀ e, P e → P' e) :
    FailsWith P' p := fun t e he => h e (hp t e he)

/-- The continuation is only reached on answers the first part succeeded on. -/
theorem FailsWith.bind {P : ε → Prop} {p : Prog Op Ans ε α} {f : α → Prog Op Ans ε β} (hp : FailsWith P p)
    (hf : ∀ t a, Run p t (.ok a) → FailsWith P (f a)) : FailsWith P (p >>= f) := by
  intro t e h
  rcases run_bind_error.1 h with h | ⟨t₁, t₂, a, rfl, h1, h2⟩
  · exact hp t e h
  · exact hf t₁ a h1 t₂ e h2

theorem FailsWith.mapFail {P : ε' → Prop} {f : ε → ε'} {p : Prog Op Ans ε α}
    (hp : FailsWith (fun e => P (f e)) p) : FailsWith P (p.mapFail f) := by
  intro t e h
  obtain ⟨e', rfl, h'⟩ := run_mapFail_error.1 h
  exact hp t e' h'

theorem FailsWith.withGuard {P : ε → Prop} {acquire release : Op} {p : Prog Op Ans ε α}
    (hp : FailsWith P p) : FailsWith P (withGuard acquire release p) := by
  intro t e h
  obtain ⟨_, t', _, rfl, h'⟩ := run_withGuard.1 h
  exact hp t' e h'

/-- On an answer that `bad` names a failure for, `p` fails with it at once. -/
def StopsOn (bad : Event Op Ans → Option ε) : Prog Op Ans ε α → Prop
  | .ret _ => True
  | .fail _ => True
  | .ask o k => ∀ x, (∀ e, bad ⟨o, x⟩ = some e → k x = .fail e) ∧ (bad ⟨o, x⟩ = none → StopsOn bad (k x))

@[simp] theorem stopsOn_exit {bad : Event Op Ans → Option ε} {r : Except ε α} :
    StopsOn bad (exit r : Prog Op Ans ε α) := by
  cases r <;> trivial

@[simp] theorem stopsOn_failIf {bad : Event Op Ans → Option ε} {c : Prop} [Decidable c] {e : ε} :
    StopsOn bad (failIf c e : Prog Op Ans ε Unit) := by
  unfold failIf
  split <;> trivial

theorem StopsOn.bind {bad : Event Op Ans → Option ε} {p : Prog Op Ans ε α} {f : α → Prog Op Ans ε β}
    (hp : StopsOn bad p) (hf : ∀ a, StopsOn bad (f a)) : StopsOn bad (p >>= f) := by
  induction p with
  | ret a => exact hf a
  | fail e => trivial
  | ask o k ih =>
    intro x
    refine ⟨fun e he => ?_, fun hn => ih x ((hp x).2 hn)⟩
    exact congrArg (·.bind f) ((hp x).1 e he)

/-- The first bad answer of a run is its last event, and the run fails with its failure. -/
theorem StopsOn.run {bad : Event Op Ans → Option ε} {p : Prog Op Ans ε α} {t u : Trace Op Ans}
    {ev : Event Op Ans} {r : Except ε α} {e : ε} (hp : StopsOn bad p) (h : Run p (t ++ ev :: u) r)
    (hbad : bad ev = some e) : u = [] ∧ r = .error e := by
  induction t generalizing p with
  | nil =>
    cases p with
    | ret a => exact absurd (run_ret.1 h).1 (by simp)
    | fail e' => exact absurd (run_fail.1 h).1 (by simp)
    | ask o k =>
      obtain ⟨x, t', he, h'⟩ := run_ask.1 h
      rw [List.nil_append, List.cons.injEq] at he
      obtain ⟨rfl, rfl⟩ := he
      rw [(hp x).1 e hbad] at h'
      exact run_fail.1 h'
  | cons ev' t ih =>
    cases p with
    | ret a => exact absurd (run_ret.1 h).1 (by simp)
    | fail e' => exact absurd (run_fail.1 h).1 (by simp)
    | ask o k =>
      obtain ⟨x, t', he, h'⟩ := run_ask.1 h
      rw [List.cons_append, List.cons.injEq] at he
      obtain ⟨rfl, rfl⟩ := he
      rcases hx : bad ⟨o, x⟩ with - | e'
      · exact ih ((hp x).2 hx) h'
      · rw [(hp x).1 e' hx] at h'
        exact absurd (run_fail.1 h').1 (by simp)

/-! ## Running against a table of answers -/

/-- The run in which each question `o` is answered `env o`. -/
def exec (env : (o : Op) → Ans o) : Prog Op Ans ε α → Trace Op Ans × Except ε α
  | .ret a => ([], .ok a)
  | .fail e => ([], .error e)
  | .ask o k => (⟨o, env o⟩ :: (exec env (k (env o))).1, (exec env (k (env o))).2)

theorem exec_run (env : (o : Op) → Ans o) (p : Prog Op Ans ε α) :
    Run p (exec env p).1 (exec env p).2 := by
  induction p with
  | ret a => simp [exec]
  | fail e => simp [exec]
  | ask o k ih => exact run_ask.2 ⟨env o, _, rfl, ih (env o)⟩

theorem exec_mem {env : (o : Op) → Ans o} {p : Prog Op Ans ε α} {o : Op} {x : Ans o}
    (h : ⟨o, x⟩ ∈ (exec env p).1) : x = env o := by
  induction p with
  | ret a => cases h
  | fail e => cases h
  | ask o' k ih =>
    rcases List.mem_cons.1 h with h | h
    · cases h; rfl
    · exact ih (env o') h

/-- A question asked on the way is asked after answers from the table only. -/
theorem exec_asks (env : (o : Op) → Ans o) (p : Prog Op Ans ε α) (f : Op → Bool)
    (h : (exec env p).1.any (fun e => f e.1) = true) :
    ∃ t o, f o = true ∧ Asks p t o ∧ ∀ o' x, ⟨o', x⟩ ∈ t → x = env o' := by
  obtain ⟨⟨o, x⟩, hmem, ho⟩ := List.any_eq_true.1 h
  obtain ⟨t₁, t₂, ht, hasks⟩ := After.asks_of_mem (exec_run env p) hmem
  refine ⟨t₁, o, ho, hasks, fun o' x' hx => exec_mem (p := p) ?_⟩
  rw [ht]
  exact List.mem_append_left _ hx

/-- Every answer of the trace is the table's. -/
def AnsweredBy (env : (o : Op) → Ans o) (t : Trace Op Ans) : Prop := ∀ o x, ⟨o, x⟩ ∈ t → x = env o

/-- The only run the table allows is the one it executes. -/
theorem exec_eq_of_run {env : (o : Op) → Ans o} {p : Prog Op Ans ε α} {t : Trace Op Ans} {r : Except ε α}
    (h : Run p t r) (ht : AnsweredBy env t) : exec env p = (t, r) := by
  induction p generalizing t with
  | ret a =>
    obtain ⟨rfl, rfl⟩ := run_ret.1 h
    rfl
  | fail e =>
    obtain ⟨rfl, rfl⟩ := run_fail.1 h
    rfl
  | ask o k ih =>
    obtain ⟨x, t', rfl, h'⟩ := run_ask.1 h
    have hx : x = env o := ht o x List.mem_cons_self
    subst hx
    have hrest := ih (env o) h' fun o' x' hm => ht o' x' (List.mem_cons_of_mem _ hm)
    rw [exec, hrest]

theorem exec_ok_iff {env : (o : Op) → Ans o} {p : Prog Op Ans ε α} {a : α} :
    (exec env p).2 = .ok a ↔ ∃ t, Run p t (.ok a) ∧ AnsweredBy env t := by
  constructor
  · intro h
    refine ⟨(exec env p).1, ?_, fun o x hm => exec_mem hm⟩
    have hrun := exec_run env p
    rw [h] at hrun
    exact hrun
  · rintro ⟨t, h, ht⟩
    rw [exec_eq_of_run h ht]

theorem exec_bind_ok {env : (o : Op) → Ans o} {p : Prog Op Ans ε α} {f : α → Prog Op Ans ε β} {b : β} :
    (exec env (p >>= f)).2 = .ok b ↔ ∃ a, (exec env p).2 = .ok a ∧ (exec env (f a)).2 = .ok b := by
  induction p with
  | ret a => simp [exec]
  | fail e => simp [exec]
  | ask o k ih => simpa [exec] using ih (env o)

end Interact

import EtheraBundler.Lib.Budget
import Mathlib.Data.List.Forall2
/-!
# Questions answered by programs

A program asks questions of one kind, and a handler answers each of them by a program over
questions of another kind: a client over its transport, a library over system calls. The handler
may also give up, and then the whole does.

* `Prog.via h p` — `p` with every question answered by `h`.
* `Handled h t v` — the exchange `v` below is what the handlers made of the exchange `t` above.
* `after_via`, `run_via` — **refinement**: what `p.via h` does is what `p` does on the answers its
  handlers return, up to where one of them gives up.
* `Prog.relabel`, `after_relabel` — the same questions under other names.
* `Prog.attempt`, `run_attempt` — a program whose failures are answers too.
* `Spends`, `spent_via_le` — a budget above and a price for each handler give a budget below.
-/

namespace Interact

open Prog

variable {Op Op' : Type} {Ans : Op → Type} {Ans' : Op' → Type} {ε α β : Type}
  {h : (o : Op) → Prog Op' Ans' ε (Ans o)}

/-- `p` with each question answered by a program of its own. -/
def Prog.via (h : (o : Op) → Prog Op' Ans' ε (Ans o)) : Prog Op Ans ε α → Prog Op' Ans' ε α
  | .ret a => .ret a
  | .fail e => .fail e
  | .ask o k => h o >>= fun x => (k x).via h

@[simp] theorem via_ret {a : α} : (Prog.ret a : Prog Op Ans ε α).via h = .ret a := rfl
@[simp] theorem via_fail {e : ε} : (Prog.fail e : Prog Op Ans ε α).via h = .fail e := rfl
@[simp] theorem via_ask {o : Op} {k : Ans o → Prog Op Ans ε α} :
    (Prog.ask o k).via h = h o >>= fun x => (k x).via h := rfl

/-- `v` is what the handlers made of `t`, each having returned its answer. -/
inductive Handled (h : (o : Op) → Prog Op' Ans' ε (Ans o)) : Trace Op Ans → Trace Op' Ans' → Prop where
  | nil : Handled h [] []
  | cons {o : Op} {x : Ans o} {u v : Trace Op' Ans'} {t : Trace Op Ans} (hx : Run (h o) u (.ok x))
    (ht : Handled h t v) : Handled h (⟨o, x⟩ :: t) (u ++ v)

section Refinement

variable {p q : Prog Op Ans ε α} {t t' : Trace Op Ans} {v v' : Trace Op' Ans'}

theorem handled_nil : Handled h [] v ↔ v = [] := by
  constructor
  · intro hh
    cases hh
    rfl
  · rintro rfl
    exact .nil

theorem handled_cons {o : Op} {x : Ans o} :
    Handled h (⟨o, x⟩ :: t) v ↔ ∃ u w, v = u ++ w ∧ Run (h o) u (.ok x) ∧ Handled h t w := by
  constructor
  · intro hh
    cases hh with
    | cons hx ht => exact ⟨_, _, rfl, hx, ht⟩
  · rintro ⟨u, w, rfl, hx, ht⟩
    exact .cons hx ht

theorem handled_append : Handled h (t ++ t') v ↔ ∃ u w, v = u ++ w ∧ Handled h t u ∧ Handled h t' w := by
  induction t generalizing v with
  | nil =>
    simp only [List.nil_append, handled_nil]
    constructor
    · exact fun hh => ⟨[], v, rfl, rfl, hh⟩
    · rintro ⟨u, w, rfl, rfl, hh⟩
      exact hh
  | cons e t ih =>
    obtain ⟨o, x⟩ := e
    simp only [List.cons_append, handled_cons, ih]
    constructor
    · rintro ⟨u, w, rfl, hx, u', w', rfl, h1, h2⟩
      exact ⟨u ++ u', w', by simp, ⟨u, u', rfl, hx, h1⟩, h2⟩
    · rintro ⟨u, w, rfl, ⟨u', w', rfl, hx, h1⟩, h2⟩
      exact ⟨u', w' ++ w, by simp, hx, w', w, rfl, h1, h2⟩

/-- The exchange behind one answer. -/
theorem Handled.of_mem {o : Op} {x : Ans o} (hh : Handled h t v) (hm : ⟨o, x⟩ ∈ t) :
    ∃ u u₁ u₂, v = u₁ ++ u ++ u₂ ∧ Run (h o) u (.ok x) := by
  obtain ⟨t₁, t₂, rfl⟩ := List.append_of_mem hm
  obtain ⟨u₁, w, rfl, -, hw⟩ := handled_append.1 hh
  obtain ⟨u, u₂, rfl, hx, -⟩ := handled_cons.1 hw
  exact ⟨u, u₁, u₂, by simp, hx⟩

/-- The answer an event below belongs to. -/
theorem Handled.mem {e : Event Op' Ans'} (hh : Handled h t v) (hm : e ∈ v) :
    ∃ o x u, ⟨o, x⟩ ∈ t ∧ e ∈ u ∧ u <:+: v ∧ Run (h o) u (.ok x) := by
  induction hh with
  | nil => cases hm
  | @cons o x u w t hx ht ih =>
    rcases List.mem_append.1 hm with hm | hm
    · exact ⟨o, x, u, List.mem_cons_self, hm, ⟨[], w, by simp⟩, hx⟩
    · obtain ⟨o', x', u', h1, h2, ⟨a, c, h3⟩, h4⟩ := ih hm
      exact ⟨o', x', u', List.mem_cons_of_mem _ h1, h2, ⟨u ++ a, c, by simp [← h3]⟩, h4⟩

/-- **At any point of a run**, some answers were returned by their handlers, and at most one handler
is under way. -/
theorem after_via {q' : Prog Op' Ans' ε α} (ha : After (p.via h) v q') :
    ∃ t q v₁ v₂, v = v₁ ++ v₂ ∧ Handled h t v₁ ∧ After p t q ∧
      ((v₂ = [] ∧ q' = q.via h) ∨
        ∃ o k w, q = .ask o k ∧ After (h o) v₂ w ∧ q' = w >>= fun x => (k x).via h) := by
  induction p generalizing v with
  | ret a =>
    obtain ⟨rfl, rfl⟩ := after_ret.1 ha
    exact ⟨[], .ret a, [], [], rfl, .nil, after_nil.2 rfl, Or.inl ⟨rfl, rfl⟩⟩
  | fail e =>
    obtain ⟨rfl, rfl⟩ := after_fail.1 ha
    exact ⟨[], .fail e, [], [], rfl, .nil, after_nil.2 rfl, Or.inl ⟨rfl, rfl⟩⟩
  | ask o k ih =>
    rcases after_bind.1 ha with ⟨w, hw, rfl⟩ | ⟨u, u', x, rfl, hx, ha⟩
    · exact ⟨[], .ask o k, [], v, rfl, .nil, after_nil.2 rfl, Or.inr ⟨o, k, w, rfl, hw, rfl⟩⟩
    · obtain ⟨t, q, v₁, v₂, rfl, hh, hq, hend⟩ := ih x ha
      exact ⟨⟨o, x⟩ :: t, q, u ++ v₁, v₂, by simp, .cons hx hh, ⟨x, rfl, hq⟩, hend⟩

/-- **A run below is a run above on the answers the handlers returned**, or one of them gave up. -/
theorem run_via {r : Except ε α} : Run (p.via h) v r ↔
    (∃ t, Handled h t v ∧ Run p t r) ∨
    ∃ t v₁ v₂ o e, v = v₁ ++ v₂ ∧ Handled h t v₁ ∧ Asks p t o ∧ Run (h o) v₂ (.error e) ∧ r = .error e := by
  induction p generalizing v with
  | ret a =>
    simp only [via_ret, run_ret, asks_ret]
    constructor
    · rintro ⟨rfl, rfl⟩
      exact Or.inl ⟨[], .nil, rfl, rfl⟩
    · rintro (⟨t, hh, rfl, rfl⟩ | ⟨t, v₁, v₂, o, e, -, -, hno, -⟩)
      · exact ⟨handled_nil.1 hh, rfl⟩
      · exact absurd hno id
  | fail e =>
    simp only [via_fail, run_fail, asks_fail]
    constructor
    · rintro ⟨rfl, rfl⟩
      exact Or.inl ⟨[], .nil, rfl, rfl⟩
    · rintro (⟨t, hh, rfl, rfl⟩ | ⟨t, v₁, v₂, o, e', -, -, hno, -⟩)
      · exact ⟨handled_nil.1 hh, rfl⟩
      · exact absurd hno id
  | ask o k ih =>
    rw [via_ask, run_bind]
    constructor
    · rintro (⟨e, rfl, he⟩ | ⟨u, w, x, rfl, hx, hw⟩)
      · exact Or.inr ⟨[], [], v, o, e, rfl, .nil, asks_ask.2 (Or.inl ⟨rfl, rfl⟩), he, rfl⟩
      · rcases (ih x).1 hw with ⟨t, hh, hr⟩ | ⟨t, v₁, v₂, o', e, rfl, hh, hasks, he, rfl⟩
        · exact Or.inl ⟨⟨o, x⟩ :: t, .cons hx hh, run_ask.2 ⟨x, t, rfl, hr⟩⟩
        · refine Or.inr ⟨⟨o, x⟩ :: t, u ++ v₁, v₂, o', e, by simp, .cons hx hh, ?_, he, rfl⟩
          exact asks_ask.2 (Or.inr ⟨x, t, rfl, hasks⟩)
    · rintro (⟨t, hh, hr⟩ | ⟨t, v₁, v₂, o', e, rfl, hh, hasks, he, rfl⟩)
      · obtain ⟨x, t', rfl, hrest⟩ := run_ask.1 hr
        obtain ⟨u, w, rfl, hx, hw⟩ := handled_cons.1 hh
        exact Or.inr ⟨u, w, x, rfl, hx, (ih x).2 (Or.inl ⟨t', hw, hrest⟩)⟩
      · rcases asks_ask.1 hasks with ⟨rfl, rfl⟩ | ⟨x, t', rfl, hrest⟩
        · obtain rfl := handled_nil.1 hh
          exact Or.inl ⟨e, rfl, he⟩
        · obtain ⟨u, w, rfl, hx, hw⟩ := handled_cons.1 hh
          refine Or.inr ⟨u, w ++ v₂, x, by simp, hx, (ih x).2 (Or.inr ?_)⟩
          exact ⟨t', w, v₂, o', e, rfl, hw, hrest, he, rfl⟩

end Refinement

/-! ## Questions under another name -/

section Relabel

variable {emb : Op → Op'} {ret : (o : Op) → Ans' (emb o) → Ans o} {p : Prog Op Ans ε α} {t : Trace Op Ans}
  {v : Trace Op' Ans'}

/-- `p` with each question `o` asked as `emb o`, its answer read by `ret`. -/
def Prog.relabel (emb : Op → Op') (ret : (o : Op) → Ans' (emb o) → Ans o) (p : Prog Op Ans ε α) :
    Prog Op' Ans' ε α :=
  p.via fun o => .ask (emb o) fun y => .ret (ret o y)

/-- The two sides of an event. -/
def Renames (emb : Op → Op') (ret : (o : Op) → Ans' (emb o) → Ans o) (e : Event Op Ans) (e' : Event Op' Ans') : Prop :=
  ∃ y, e' = ⟨emb e.1, y⟩ ∧ e.2 = ret e.1 y

/-- At any point of a run, the same program is at the same point under the old names. -/
theorem after_relabel {q' : Prog Op' Ans' ε α} (ha : After (p.relabel emb ret) v q') :
    ∃ t q, List.Forall₂ (Renames emb ret) t v ∧ After p t q ∧ q' = q.relabel emb ret := by
  induction v generalizing p with
  | nil => exact ⟨[], p, .nil, after_nil.2 rfl, (after_nil.1 ha).symm⟩
  | cons e v ih =>
    cases p with
    | ret a => exact absurd (after_ret.1 ha).1 (by simp)
    | fail e' => exact absurd (after_fail.1 ha).1 (by simp)
    | ask o k =>
      obtain ⟨y, rfl, ha⟩ := ha
      obtain ⟨t, q, ht, hq, rfl⟩ := ih ha
      exact ⟨⟨o, ret o y⟩ :: t, q, .cons ⟨y, rfl, rfl⟩ ht, ⟨ret o y, rfl, hq⟩, rfl⟩

theorem run_relabel {r : Except ε α} (hr : Run (p.relabel emb ret) v r) :
    ∃ t, List.Forall₂ (Renames emb ret) t v ∧ Run p t r := by
  obtain ⟨t, q, ht, hq, he⟩ := after_relabel hr
  refine ⟨t, ht, ?_⟩
  rcases r with e | a
  · cases q with
    | fail e' =>
      cases he
      exact hq
    | ret a => cases he
    | ask o k => cases he
  · cases q with
    | ret a' =>
      cases he
      exact hq
    | fail e => cases he
    | ask o k => cases he

/-- What is asked under the new names. -/
theorem only_relabel {P : Op' → Prop} (hP : ∀ o, P (emb o)) : Only P (p.relabel emb ret) := by
  induction p with
  | ret a => exact only_ret
  | fail e => exact only_fail
  | ask o k ih => exact ⟨hP o, fun y => ih (ret o y)⟩

/-- An event under its new name, where the answers are the same. -/
theorem mem_of_renames {Ans' : Op' → Type} {t : Trace Op fun o => Ans' (emb o)} {v : Trace Op' Ans'}
    {e : Event Op fun o => Ans' (emb o)} (h : List.Forall₂ (Renames emb fun _ y => y) t v) (he : e ∈ t) :
    ⟨emb e.1, e.2⟩ ∈ v := by
  induction h with
  | nil => cases he
  | cons hev ht ih =>
    obtain ⟨y, rfl, hy⟩ := hev
    rcases List.mem_cons.1 he with rfl | he
    · rw [hy]
      exact List.mem_cons_self
    · exact List.mem_cons_of_mem _ (ih he)

end Relabel

/-! ## Failures as answers -/

section Attempt

variable {ε' δ : Type}

/-- `p`, whose failures are answers too where `f` makes an answer of them. -/
def Prog.attempt (f : ε → Except ε' δ) : Prog Op Ans ε α → Prog Op Ans ε' (Except δ α)
  | .ret a => .ret (.ok a)
  | .fail e => Prog.exit ((f e).map .error)
  | .ask o k => .ask o fun x => (k x).attempt f

/-- The exit of an attempt. -/
def attempted (f : ε → Except ε' δ) : Except ε α → Except ε' (Except δ α)
  | .ok a => .ok (.ok a)
  | .error e => (f e).map .error

theorem run_attempt {f : ε → Except ε' δ} {p : Prog Op Ans ε α} {t : Trace Op Ans} {r : Except ε' (Except δ α)} :
    Run (p.attempt f) t r ↔ ∃ r', Run p t r' ∧ r = attempted f r' := by
  induction p generalizing t with
  | ret a =>
    simp only [attempt, run_ret]
    constructor
    · rintro ⟨rfl, rfl⟩
      exact ⟨.ok a, ⟨rfl, rfl⟩, rfl⟩
    · rintro ⟨r', ⟨rfl, rfl⟩, rfl⟩
      exact ⟨rfl, rfl⟩
  | fail e =>
    simp only [attempt, run_exit, run_fail]
    constructor
    · rintro ⟨rfl, rfl⟩
      exact ⟨.error e, ⟨rfl, rfl⟩, rfl⟩
    · rintro ⟨r', ⟨rfl, rfl⟩, rfl⟩
      exact ⟨rfl, rfl⟩
  | ask o k ih =>
    simp only [attempt, run_ask, ih]
    constructor
    · rintro ⟨x, t', rfl, r', hr, rfl⟩
      exact ⟨r', ⟨x, t', rfl, hr⟩, rfl⟩
    · rintro ⟨r', ⟨x, t', rfl, hr⟩, rfl⟩
      exact ⟨x, t', rfl, r', hr, rfl⟩

/-- An attempt under way is the program under way. -/
theorem after_attempt {f : ε → Except ε' δ} {p : Prog Op Ans ε α} {t : Trace Op Ans}
    {q : Prog Op Ans ε' (Except δ α)} (ha : After (p.attempt f) t q) : ∃ q', After p t q' ∧ q = q'.attempt f := by
  induction t generalizing p with
  | nil => exact ⟨p, after_nil.2 rfl, (after_nil.1 ha).symm⟩
  | cons e t ih =>
    cases p with
    | ret a => exact absurd (after_ret.1 ha).1 (by simp)
    | fail e' =>
      rw [attempt] at ha
      rcases hf : f e' with e'' | d
      · rw [hf] at ha
        exact absurd (after_fail.1 ha).1 (by simp)
      · rw [hf] at ha
        exact absurd (after_ret.1 ha).1 (by simp)
    | ask o k =>
      obtain ⟨x, rfl, ha⟩ := ha
      obtain ⟨q', hq, rfl⟩ := ih ha
      exact ⟨q', ⟨x, rfl, hq⟩, rfl⟩

end Attempt

/-! ## Budgets -/

section Spends

variable {P : Op → Prop} {price : Op → Nat} {price' : Op' → Nat} {S : Trace Op' Ans' → Prop}
  {p : Prog Op Ans ε α} {t : Trace Op Ans} {v : Trace Op' Ans'} {n : Nat}

/-- On exchanges within `S`, the handler of a question within `P` spends at most its price. -/
def Spends (P : Op → Prop) (S : Trace Op' Ans' → Prop) (price' : Op' → Nat)
    (h : (o : Op) → Prog Op' Ans' ε (Ans o)) (price : Op → Nat) : Prop :=
  ∀ o u w, P o → S u → After (h o) u w → spent price' u ≤ price o

theorem Handled.spent_le (hsplit : ∀ u w, S (u ++ w) → S u ∧ S w) (hprice : Spends P S price' h price)
    (hh : Handled h t v) (ht : ∀ e ∈ t, P e.1) (hv : S v) : spent price' v ≤ spent price t := by
  induction hh with
  | nil => simp
  | @cons o x u w t hx _ ih =>
    obtain ⟨hu, hw⟩ := hsplit u w hv
    have h1 := hprice o u _ (ht _ List.mem_cons_self) hu hx
    have h2 := ih (fun e he => ht e (List.mem_cons_of_mem _ he)) hw
    rw [spent_append, spent_cons]
    show spent price' u + spent price' w ≤ price o + spent price t
    omega

/-- **A budget above is a budget below**, wherever the run is cut. -/
theorem spent_via_le (hsplit : ∀ u w, S (u ++ w) → S u ∧ S w) (hprice : Spends P S price' h price)
    (hP : Only P p) (hp : Costs price p n) {q' : Prog Op' Ans' ε α} (ha : After (p.via h) v q') (hv : S v) :
    spent price' v ≤ n := by
  obtain ⟨t, q, v₁, v₂, rfl, hh, hq, hend⟩ := after_via ha
  obtain ⟨h1, h2⟩ := hsplit v₁ v₂ hv
  have hdone := hh.spent_le hsplit hprice (fun e he => hP.mem hq he) h1
  obtain ⟨m, rfl, hm⟩ := hp.after hq
  rw [spent_append]
  rcases hend with ⟨rfl, -⟩ | ⟨o, k, w, rfl, hw, -⟩
  · rw [spent_nil]
    omega
  · obtain ⟨l, rfl, -⟩ := hm
    have hlast := hprice o v₂ w (hP.after hq).1 h2 hw
    omega

end Spends

end Interact

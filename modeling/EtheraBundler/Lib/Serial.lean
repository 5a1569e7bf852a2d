import EtheraBundler.Lib.Progress
/-!
# Serial runs

A run of a pool is serial if the calls move one after the other: each does all it will ever do
before the next one starts.

* `Solo` — what a call and the world do while only that call moves.
* `OneAtATime` — the serial runs, with the calls in their order; `OneAtATime.reach` — they are runs.
* `InTurn` — the same seen from the calls: the world is handed from one to the next.
* `InTurn.oneAtATime` — a world handed through all calls is a serial run of the pool.
* `inTurn_append`, `inTurn_of_quiet`, `InTurn.mono` — how such a hand-over is changed: a step that only
  its own call sees may be added in place.
-/

namespace Interact

open Prog

variable {ι W L E Op : Type} {Ans : Op → Type} {ε α : Type} {R : Rules ι W L E Op Ans}

/-- The call a label is about. -/
def Label.owner : Label ι L E Op Ans → Option ι
  | .answer i _ | .act i _ | .drop i => some i
  | .env _ => none

/-- Call `i` in the state `c₀` gets to `c` by its own steps, and the world from `w₀` to `w` with it. -/
inductive Solo (R : Rules ι W L E Op Ans) (i : ι) (c₀ : Call Op Ans ε α) (w₀ : W) : Call Op Ans ε α → W → Prop where
  | refl : Solo R i c₀ w₀ c₀ w₀
  | answer {c : Call Op Ans ε α} {w : W} (h : Solo R i c₀ w₀ c w) (live : c.dropped = false)
    (f : (o : Op) → Ans o) (o : Op) (k : Ans o → Prog Op Ans ε α) (hcur : c.cur = .ask o k) (w' : W)
    (hw : R.answer w i c.hist o (f o) = some w') : Solo R i c₀ w₀ ⟨c.hist ++ [⟨o, f o⟩], k (f o), c.dropped⟩ w'
  | act {c : Call Op Ans ε α} {w : W} (h : Solo R i c₀ w₀ c w) (live : c.dropped = false) (l : L) (o : Op)
    (k : Ans o → Prog Op Ans ε α) (hcur : c.cur = .ask o k) (w' : W) (hw : R.act w i c.hist o l = some w') :
    Solo R i c₀ w₀ c w'
  | drop {c : Call Op Ans ε α} {w : W} (h : Solo R i c₀ w₀ c w) (live : c.dropped = false) (w' : W)
    (hw : R.drop w i c.hist c.pending = some w') : Solo R i c₀ w₀ { c with dropped := true } w'

/-- The world is handed from call to call: each of `order` gets from its start to where it is. -/
def InTurn (R : Rules ι W L E Op Ans) (fresh calls : ι → Call Op Ans ε α) : List ι → W → W → Prop
  | [], w, w' => w = w'
  | i :: is, w, w' => ∃ w₁, Solo R i (fresh i) w (calls i) w₁ ∧ InTurn R fresh calls is w₁ w'

section InTurn

variable {fresh calls calls' : ι → Call Op Ans ε α} {order us : List ι} {w w' : W}

@[simp] theorem inTurn_nil : InTurn R fresh calls [] w w' ↔ w = w' := Iff.rfl

@[simp] theorem inTurn_cons {i : ι} : InTurn R fresh calls (i :: order) w w' ↔
    ∃ w₁, Solo R i (fresh i) w (calls i) w₁ ∧ InTurn R fresh calls order w₁ w' := Iff.rfl

theorem inTurn_append : InTurn R fresh calls (order ++ us) w w' ↔
    ∃ w₁, InTurn R fresh calls order w w₁ ∧ InTurn R fresh calls us w₁ w' := by
  induction order generalizing w with
  | nil => simp
  | cons i is ih =>
    simp only [List.cons_append, inTurn_cons, ih]
    constructor
    · rintro ⟨w₁, h1, w₂, h2, h3⟩
      exact ⟨w₂, ⟨w₁, h1, h2⟩, h3⟩
    · rintro ⟨w₂, ⟨w₁, h1, h2⟩, h3⟩
      exact ⟨w₁, h1, w₂, h2, h3⟩

/-- Calls that get further on the same worlds. -/
theorem InTurn.mono (h : InTurn R fresh calls order w w')
    (hone : ∀ i ∈ order, ∀ v v', Solo R i (fresh i) v (calls i) v' → Solo R i (fresh i) v (calls' i) v') :
    InTurn R fresh calls' order w w' := by
  induction order generalizing w with
  | nil => exact h
  | cons i is ih =>
    obtain ⟨w₁, h1, h2⟩ := h
    exact ⟨w₁, hone i List.mem_cons_self w w₁ h1, ih h2 fun j hj => hone j (List.mem_cons_of_mem _ hj)⟩

/-- Calls that leave the world as it is may all take their turn on it. -/
theorem inTurn_of_quiet (h : ∀ i ∈ order, Solo R i (fresh i) w (calls i) w) : InTurn R fresh calls order w w := by
  induction order with
  | nil => rfl
  | cons i is ih => exact ⟨w, h i List.mem_cons_self, ih fun j hj => h j (List.mem_cons_of_mem _ hj)⟩

end InTurn

variable [DecidableEq ι]

/-- Call `i` alone moves. -/
def Alone (R : Rules ι W L E Op Ans) (i : ι) (s s' : Pool ι W Op Ans ε α) : Prop :=
  ∃ ls : List (Label ι L E Op Ans), (∀ l ∈ ls, l.owner = some i) ∧ ls.foldlM R.step s = some s'

/-- The calls of `order` move one after the other, each once. -/
inductive OneAtATime (R : Rules ι W L E Op Ans) : Pool ι W Op Ans ε α → List ι → Pool ι W Op Ans ε α → Prop where
  | nil (s : Pool ι W Op Ans ε α) : OneAtATime R s [] s
  | cons {s s₁ s' : Pool ι W Op Ans ε α} {i : ι} {order : List ι} (h : Alone R i s s₁) (hi : i ∉ order)
    (h' : OneAtATime R s₁ order s') : OneAtATime R s (i :: order) s'

/-- A serial run is a run. -/
theorem OneAtATime.reach {s₀ s s' : Pool ι W Op Ans ε α} {order : List ι} (h : OneAtATime R s order s')
    (hr : Reach R anyStep s₀ s) : Reach R anyStep s₀ s' := by
  induction h with
  | nil s => exact hr
  | cons h hi h' ih =>
    obtain ⟨ls, -, hrun⟩ := h
    exact ih (hr.foldlM hrun)

/-- One more step of the one that moves. -/
theorem Alone.snoc {i : ι} {s s₁ s' : Pool ι W Op Ans ε α} (h : Alone R i s s₁) {l : Label ι L E Op Ans}
    (hl : l.owner = some i) (hs : R.step s₁ l = some s') : Alone R i s s' := by
  obtain ⟨ls, howner, hrun⟩ := h
  refine ⟨ls ++ [l], fun l' hl' => ?_, ?_⟩
  · rcases List.mem_append.1 hl' with hl' | hl'
    · exact howner l' hl'
    · rw [List.mem_singleton.1 hl']
      exact hl
  · rw [List.foldlM_append, hrun]
    simpa using hs

/-- What a call does on its own it does in a pool. -/
theorem Solo.alone {i : ι} {c₀ c : Call Op Ans ε α} {w₀ w : W} (h : Solo R i c₀ w₀ c w)
    {s : Pool ι W Op Ans ε α} (hc : s.calls i = c₀) (hw : s.world = w₀) :
    Alone R i s ⟨Function.update s.calls i c, w⟩ := by
  induction h with
  | refl =>
    refine ⟨[], by simp, ?_⟩
    rw [← hc, ← hw, Function.update_eq_self]
    rfl
  | answer h live f o k hcur w' hw' ih =>
    refine ih.snoc (l := .answer i f) rfl ?_
    simp [Rules.step, live, hcur, hw', Pool.answered]
  | act h live l o k hcur w' hw' ih =>
    refine ih.snoc (l := .act i l) rfl ?_
    simp [Rules.step, live, hcur, hw']
  | drop h live w' hw' ih =>
    refine ih.snoc (l := .drop i) rfl ?_
    simp [Rules.step, live, hw', Pool.cut]

/-- **A world handed through all calls is a serial run.** -/
theorem InTurn.oneAtATime {fresh calls : ι → Call Op Ans ε α} {order : List ι} {s : Pool ι W Op Ans ε α} {w' : W}
    (h : InTurn R fresh calls order s.world w') (hnodup : order.Nodup) (hin : ∀ i ∈ order, s.calls i = fresh i)
    (hout : ∀ i, i ∉ order → calls i = s.calls i) : OneAtATime R s order ⟨calls, w'⟩ := by
  induction order generalizing s with
  | nil =>
    cases h
    have hcalls : calls = s.calls := funext fun i => hout i (by simp)
    rw [hcalls]
    exact .nil s
  | cons i is ih =>
    obtain ⟨w₁, h1, h2⟩ := h
    obtain ⟨hi, his⟩ := List.nodup_cons.1 hnodup
    refine .cons (h1.alone (hin i List.mem_cons_self) rfl) hi (ih h2 his (fun j hj => ?_) fun j hj => ?_)
    · have hji : j ≠ i := fun he => hi (he ▸ hj)
      exact (Function.update_of_ne hji _ _).trans (hin j (List.mem_cons_of_mem _ hj))
    · by_cases hji : j = i
      · subst hji
        exact (Function.update_self j (calls j) s.calls).symm
      · exact (hout j (by simp [hji, hj])).trans (Function.update_of_ne hji _ _).symm

end Interact

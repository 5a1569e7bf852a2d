import Mathlib.Data.List.Forall2
import Mathlib.Data.List.Nodup
import Mathlib.Logic.Equiv.Defs
import Mathlib.Logic.Function.Basic
import Mathlib.Algebra.Group.Nat.Defs
/-!
# Records as JSON

A record is a function on its field names. A `Schema` says how each field is written and read, what
stands in for it when it is absent, and when it is left out. Reading goes by the documented rules of a
derived `Deserialize`, entry by entry:

* an object's entries come in any order, and a key that names no field is skipped;
* a key that comes twice is refused as a duplicate field;
* a field without an entry takes its `default`, and is a missing field where it has none;
* an array holds the fields in their order of declaration: where it ends early the defaults fill in, or
  its length is refused; where it goes on it is refused too.

Numbers are integers only. A fraction or an exponent makes a JSON number a float, which no integer type
reads, so nothing that is accepted is left out.

* `Codec`, `Schema`, `Schema.serialize`, `Schema.deserialize` — the derived pair, executable.
* `Reads` — what an object says as a record, in no order.
* `visitMap_ok_iff`, `deserialize_arr_iff` — what an object, and an array, is accepted for.
* `SameFields.reads` — the order of the entries does not count, nor do entries of no field.
* `deserialize_serialize` — **round trip**.
* `Says`, `deserialize_iff` — **a value is accepted exactly for what it says.**
* `Schema.record` — the codec of a type that is its fields.
-/

namespace Wire

/-! ## Values -/

inductive Json where
  | null
  | bool (b : Bool)
  | num (n : Int)
  | str (s : String)
  | arr (xs : List Json)
  | obj (entries : List (String × Json))

/-- Why a value is refused. -/
inductive DeError where
  | missingField (name : String)
  | duplicateField (name : String)
  | invalidType
  | invalidLength (n : Nat)
  | trailing
  | custom (msg : String)
deriving DecidableEq

/-- `Serialize` and `Deserialize` of a type. -/
structure Codec (α : Type) where
  ser : α → Json
  de : Json → Except DeError α

namespace Codec

variable {α : Type}

/-- What is written is read back, and is no `null`. -/
structure Lawful (c : Codec α) : Prop where
  de_ser : ∀ v, c.de (c.ser v) = .ok v
  ser_ne_null : ∀ v, c.ser v ≠ .null

protected def bool : Codec Bool where
  ser := .bool
  de
    | .bool b => .ok b
    | _ => .error .invalidType

/-- An unsigned integer of `w` bits, as a number. -/
def uint (w : Nat) : Codec (BitVec w) where
  ser v := .num v.toNat
  de
    | .num (.ofNat n) => if n < 2 ^ w then .ok (BitVec.ofNat w n) else .error .invalidType
    | _ => .error .invalidType

/-- `Option`: `null` or the value. -/
protected def option (c : Codec α) : Codec (Option α) where
  ser
    | none => .null
    | some v => c.ser v
  de
    | .null => .ok none
    | j => (c.de j).map some

/-- `Vec`: an array. -/
protected def list (c : Codec α) : Codec (List α) where
  ser vs := .arr (vs.map c.ser)
  de
    | .arr xs => xs.mapM c.de
    | _ => .error .invalidType

theorem lawful_bool : Codec.bool.Lawful where
  de_ser v := rfl
  ser_ne_null v := by
    intro h
    cases h

theorem lawful_uint (w : Nat) : (uint w).Lawful where
  de_ser v := by
    show (if v.toNat < 2 ^ w then Except.ok (BitVec.ofNat w v.toNat) else _) = _
    rw [if_pos v.isLt, BitVec.ofNat_toNat, BitVec.setWidth_eq]
  ser_ne_null v := by
    intro h
    cases h

theorem option_de_ser {c : Codec α} (h : c.Lawful) (v : Option α) : c.option.de (c.option.ser v) = .ok v := by
  cases v with
  | none => rfl
  | some v =>
    have hnull := h.ser_ne_null v
    have hv := h.de_ser v
    show c.option.de (c.ser v) = _
    generalize c.ser v = j at hnull hv
    cases j with
    | null => exact absurd rfl hnull
    | _ =>
      show (c.de _).map some = _
      rw [hv]
      rfl

theorem lawful_list {c : Codec α} (h : ∀ v, c.de (c.ser v) = .ok v) : c.list.Lawful where
  de_ser vs := by
    show (vs.map c.ser).mapM c.de = .ok vs
    induction vs with
    | nil => rfl
    | cons v vs ih =>
      rw [List.map_cons, List.mapM_cons, h, ih]
      rfl
  ser_ne_null vs := by
    intro h
    cases h

/-- An array is read element by element. -/
theorem list_de_iff {c : Codec α} {xs : List Json} {vs : List α} :
    c.list.de (.arr xs) = .ok vs ↔ List.Forall₂ (fun x v => c.de x = .ok v) xs vs := by
  show xs.mapM c.de = .ok vs ↔ _
  induction xs generalizing vs with
  | nil =>
    rw [List.forall₂_nil_left_iff]
    constructor
    · rintro ⟨⟩
      rfl
    · rintro rfl
      rfl
  | cons x xs ih =>
    rw [List.mapM_cons]
    rcases hx : c.de x with err | v
    · simp [bind, Except.bind, List.forall₂_cons_left_iff, hx]
    rcases hxs : xs.mapM c.de with err | ws
    · have hnone (ws : List α) : ¬ List.Forall₂ (fun x v => c.de x = .ok v) xs ws := by
        rw [← ih, hxs]
        simp
      simp [bind, Except.bind, List.forall₂_cons_left_iff, hx, hnone]
    · have hws (us : List α) : List.Forall₂ (fun x v => c.de x = .ok v) xs us ↔ ws = us := by
        rw [← ih, hxs, Except.ok.injEq]
      show Except.ok (v :: ws) = .ok vs ↔ _
      rw [Except.ok.injEq, List.forall₂_cons_left_iff]
      constructor
      · rintro rfl
        exact ⟨v, ws, hx, (hws ws).2 rfl, rfl⟩
      · rintro ⟨w, us, hw, hus, rfl⟩
        rw [hx] at hw
        cases hw
        rw [(hws us).1 hus]

end Codec

/-! ## Schemas -/

/-- The fields of a record, each with its codec, its `default` if it has one, and its
`skip_serializing_if`. What is skipped is what the default restores. -/
structure Schema (F : Type) (Val : F → Type) where
  /-- In the order of declaration. -/
  fields : List F
  complete : ∀ f, f ∈ fields
  name : F → String
  distinct : (fields.map name).Nodup
  codec : (f : F) → Codec (Val f)
  default : (f : F) → Option (Val f)
  skip : (f : F) → Val f → Bool
  default_of_skip : ∀ f v, skip f v = true → default f = some v

namespace Schema

variable {F : Type} {Val : F → Type} (S : Schema F Val)

theorem name_inj {f g : F} (h : S.name f = S.name g) : f = g :=
  List.inj_on_of_nodup_map S.distinct (S.complete f) (S.complete g) h

/-- The field an entry is for. -/
def fieldOf (key : String) : Option F := S.fields.find? fun f => S.name f == key

variable {S}

theorem fieldOf_eq_some {key : String} {f : F} : S.fieldOf key = some f ↔ key = S.name f := by
  constructor
  · intro h
    have hname := List.find?_some h
    exact (beq_iff_eq.1 hname).symm
  · rintro rfl
    cases h : S.fieldOf (S.name f) with
    | none =>
      have hnone := List.find?_eq_none.1 h f (S.complete f)
      exact absurd (beq_self_eq_true _) hnone
    | some g =>
      have hname := List.find?_some h
      rw [S.name_inj (beq_iff_eq.1 hname)]

variable (S)

/-- The fields of a record that are written. -/
def entriesOf (v : (f : F) → Val f) : List (String × Json) :=
  S.fields.filterMap fun f => if S.skip f (v f) then none else some (S.name f, (S.codec f).ser (v f))

def serialize (v : (f : F) → Val f) : Json := .obj (S.entriesOf v)

variable [DecidableEq F]

/-- What was read so far. -/
abbrev Slots (Val : F → Type) := (f : F) → Option (Val f)

/-- The value of `f`. -/
def fill (slots : Slots Val) (f : F) (j : Json) : Except DeError (Slots Val) :=
  match (S.codec f).de j with
  | .ok v => .ok (Function.update slots f (some v))
  | .error err => .error err

/-- One entry of an object. A key that is no field's is skipped. -/
def visitEntry (slots : Slots Val) (e : String × Json) : Except DeError (Slots Val) :=
  match S.fieldOf e.1 with
  | none => .ok slots
  | some f =>
    if (slots f).isSome then .error (.duplicateField e.1) else S.fill slots f e.2

/-- One element of an array, for the field in its place. -/
def visitElement (slots : Slots Val) (e : F × Json) : Except DeError (Slots Val) := S.fill slots e.1 e.2

def filled (slots : Slots Val) (f : F) : Option (Val f) := (slots f).or (S.default f)

/-- The defaults fill in; the first field without one is reported. -/
def finish (missing : F → DeError) (slots : Slots Val) : Except DeError ((f : F) → Val f) :=
  if h : ∀ f ∈ S.fields, (S.filled slots f).isSome then .ok fun f => (S.filled slots f).get (h f (S.complete f))
  else
    match S.fields.find? fun f => (S.filled slots f).isNone with
    | some f => .error (missing f)
    | none => .error .invalidType

def visitMap (entries : List (String × Json)) : Except DeError ((f : F) → Val f) := do
  let slots ← entries.foldlM S.visitEntry fun _ => none
  S.finish (fun f => .missingField (S.name f)) slots

def visitSeq (xs : List Json) : Except DeError ((f : F) → Val f) := do
  let slots ← (S.fields.zip xs).foldlM S.visitElement fun _ => none
  let v ← S.finish (fun f => .invalidLength (S.fields.idxOf f)) slots
  if S.fields.length < xs.length then .error .trailing else .ok v

/-- A record is read from an object, or from an array of its fields in their order. -/
def deserialize : Json → Except DeError ((f : F) → Val f)
  | .obj entries => S.visitMap entries
  | .arr xs => S.visitSeq xs
  | _ => .error .invalidType

/-! ## What is accepted -/

/-- The fields an object has entries for, in its order. -/
def keys (entries : List (String × Json)) : List F := entries.filterMap fun e => S.fieldOf e.1

/-- What an object says as a record: no field twice, each field as its entry decodes, and the
default where there is no entry. -/
structure Reads (entries : List (String × Json)) (v : (f : F) → Val f) : Prop where
  once : (S.keys entries).Nodup
  present : ∀ f j, (S.name f, j) ∈ entries → (S.codec f).de j = .ok (v f)
  absent : ∀ f, f ∉ S.keys entries → S.default f = some (v f)

variable {S}

omit [DecidableEq F] in
theorem mem_keys {entries : List (String × Json)} {f : F} : f ∈ S.keys entries ↔ ∃ j, (S.name f, j) ∈ entries := by
  simp only [keys, List.mem_filterMap, fieldOf_eq_some, Prod.exists]
  constructor
  · rintro ⟨key, j, hm, rfl⟩
    exact ⟨j, hm⟩
  · rintro ⟨j, hm⟩
    exact ⟨_, j, hm, rfl⟩

omit [DecidableEq F] in
theorem finish_ok_iff {missing : F → DeError} {slots : Slots Val} {v : (f : F) → Val f} :
    S.finish missing slots = .ok v ↔ ∀ f, S.filled slots f = some (v f) := by
  unfold finish
  split
  · rename_i h
    rw [Except.ok.injEq]
    constructor
    · rintro rfl f
      exact (Option.some_get _).symm
    · intro hv
      funext f
      simp [hv f]
  · rename_i h
    refine iff_of_false ?_ fun hv => h fun f _ => by simp [hv f]
    split <;> simp

theorem fill_ok_iff {slots s : Slots Val} {f : F} {j : Json} :
    S.fill slots f j = .ok s ↔ ∃ v, (S.codec f).de j = .ok v ∧ s = Function.update slots f (some v) := by
  unfold fill
  rcases (S.codec f).de j with err | v
  · simp
  · simp [eq_comm]

theorem visitEntry_of_none {slots : Slots Val} {e : String × Json} (h : S.fieldOf e.1 = none) :
    S.visitEntry slots e = .ok slots := by
  rw [visitEntry, h]

theorem visitEntry_ok_iff {slots s : Slots Val} {f : F} {j : Json} :
    S.visitEntry slots (S.name f, j) = .ok s ↔
      slots f = none ∧ ∃ v, (S.codec f).de j = .ok v ∧ s = Function.update slots f (some v) := by
  have hf : S.fieldOf (S.name f) = some f := fieldOf_eq_some.2 rfl
  simp only [visitEntry, hf]
  rcases hs : slots f with - | v'
  · rw [if_neg (by simp), fill_ok_iff]
    simp
  · simp

/-- All entries: each field is read at most once, into its own slot. -/
theorem visitEntries_ok_iff {entries : List (String × Json)} : ∀ {slots s : Slots Val},
    entries.foldlM S.visitEntry slots = .ok s ↔ (S.keys entries).Nodup ∧ (∀ f ∈ S.keys entries, slots f = none) ∧
      (∀ f j, (S.name f, j) ∈ entries → ∃ v, (S.codec f).de j = .ok v ∧ s f = some v) ∧
      ∀ f, f ∉ S.keys entries → s f = slots f := by
  induction entries with
  | nil =>
    intro slots s
    simp only [List.foldlM_nil, keys, List.filterMap_nil, List.nodup_nil, List.not_mem_nil, false_implies,
      implies_true, true_and, not_false_eq_true, true_implies]
    constructor
    · rintro ⟨⟩ f
      rfl
    · intro h
      exact congrArg Except.ok (funext fun f => (h f).symm)
  | cons e entries ih =>
    obtain ⟨key, j⟩ := e
    intro slots s
    rw [List.foldlM_cons]
    rcases hf : S.fieldOf key with - | f
    · have hkeys : S.keys ((key, j) :: entries) = S.keys entries := by simp [keys, hf]
      have hne (g : F) : S.name g ≠ key := by
        rintro rfl
        rw [fieldOf_eq_some.2 rfl] at hf
        cases hf
      rw [visitEntry_of_none hf, hkeys]
      show entries.foldlM S.visitEntry slots = .ok s ↔ _
      rw [ih]
      simp [hne]
    · obtain rfl := fieldOf_eq_some.1 hf
      have hkeys : S.keys ((S.name f, j) :: entries) = f :: S.keys entries := by simp [keys, hf]
      rw [hkeys, List.nodup_cons]
      constructor
      · intro h
        rcases hv : S.visitEntry slots (S.name f, j) with err | slots'
        · rw [hv] at h
          cases h
        rw [hv] at h
        obtain ⟨hnone, v, hd, rfl⟩ := visitEntry_ok_iff.1 hv
        obtain ⟨hnodup, hfree, hread, hrest⟩ := ih.1 h
        have hfresh : f ∉ S.keys entries := by
          intro hm
          have hslot := hfree f hm
          rw [Function.update_self] at hslot
          cases hslot
        have hold (g : F) (hg : g ≠ f) : Function.update slots f (some v) g = slots g := Function.update_of_ne hg _ _
        refine ⟨⟨hfresh, hnodup⟩, fun g hg => ?_, fun g j' hm => ?_, fun g hg => ?_⟩
        · rcases List.mem_cons.1 hg with rfl | hg
          · exact hnone
          · have hgf : g ≠ f := fun he => hfresh (he ▸ hg)
            rw [← hold g hgf]
            exact hfree g hg
        · rcases List.mem_cons.1 hm with he | hm
          · obtain ⟨hname, rfl⟩ := Prod.mk.inj he
            obtain rfl := S.name_inj hname
            refine ⟨v, hd, ?_⟩
            rw [hrest g hfresh, Function.update_self]
          · exact hread g j' hm
        · obtain ⟨hgf, hg⟩ := not_or.1 (mt List.mem_cons.2 hg)
          rw [hrest g hg, hold g hgf]
      · rintro ⟨⟨hfresh, hnodup⟩, hfree, hread, hrest⟩
        obtain ⟨v, hd, hs⟩ := hread f j List.mem_cons_self
        rw [visitEntry_ok_iff.2 ⟨hfree f List.mem_cons_self, v, hd, rfl⟩]
        refine ih.2 ⟨hnodup, fun g hg => ?_, fun g j' hm => hread g j' (List.mem_cons_of_mem _ hm), fun g hg => ?_⟩
        · have hgf : g ≠ f := fun he => hfresh (he ▸ hg)
          rw [Function.update_of_ne hgf]
          exact hfree g (List.mem_cons_of_mem _ hg)
        · by_cases hgf : g = f
          · subst hgf
            rw [hs, Function.update_self]
          · rw [Function.update_of_ne hgf]
            exact hrest g (by simp [hgf, hg])

/-- **What is accepted.** -/
theorem visitMap_ok_iff {entries : List (String × Json)} {v : (f : F) → Val f} :
    S.visitMap entries = .ok v ↔ S.Reads entries v := by
  have hbind : S.visitMap entries = .ok v ↔
      ∃ slots, entries.foldlM S.visitEntry (fun _ => none) = .ok slots ∧ ∀ f, S.filled slots f = some (v f) := by
    unfold visitMap
    rcases hm : entries.foldlM S.visitEntry (fun _ => none) with err | slots
    · simp [bind, Except.bind]
    · show S.finish _ slots = .ok v ↔ _
      rw [finish_ok_iff]
      simp
  rw [hbind]
  constructor
  · rintro ⟨slots, hm, hv⟩
    obtain ⟨hnodup, -, hread, hrest⟩ := visitEntries_ok_iff.1 hm
    refine ⟨hnodup, fun f j hj => ?_, fun f hf => ?_⟩
    · obtain ⟨w, hd, hs⟩ := hread f j hj
      have hvf := hv f
      simp only [filled, hs, Option.some_or, Option.some.injEq] at hvf
      rw [hd, hvf]
    · have hvf := hv f
      simpa only [filled, hrest f hf, Option.none_or] using hvf
  · intro h
    refine ⟨fun f => if f ∈ S.keys entries then some (v f) else none, visitEntries_ok_iff.2 ?_, fun f => ?_⟩
    · refine ⟨h.once, fun _ _ => rfl, fun f j hj => ?_, fun f hf => if_neg hf⟩
      exact ⟨v f, h.present f j hj, if_pos (mem_keys.2 ⟨j, hj⟩)⟩
    · by_cases hf : f ∈ S.keys entries
      · simp [filled, hf]
      · simp [filled, hf, h.absent f hf]

omit [DecidableEq F] in
/-- The order of the entries does not count. -/
theorem Reads.perm {entries entries' : List (String × Json)} {v : (f : F) → Val f} (h : S.Reads entries v)
    (hp : entries.Perm entries') : S.Reads entries' v where
  once := (hp.filterMap _).nodup_iff.1 h.once
  present f j hj := h.present f j (hp.mem_iff.2 hj)
  absent f hf := h.absent f fun hm => hf ((hp.filterMap _).mem_iff.1 hm)

omit [DecidableEq F] in
/-- Entries of no field do not count. -/
theorem reads_filter {entries : List (String × Json)} {v : (f : F) → Val f} :
    S.Reads (entries.filter fun e => (S.fieldOf e.1).isSome) v ↔ S.Reads entries v := by
  have hkeys : S.keys (entries.filter fun e => (S.fieldOf e.1).isSome) = S.keys entries := by
    simp only [keys, List.filterMap_filter]
    refine List.filterMap_congr fun e _ => ?_
    cases S.fieldOf e.1 <;> rfl
  have hmem (f : F) (j : Json) :
      (S.name f, j) ∈ entries.filter (fun e => (S.fieldOf e.1).isSome) ↔ (S.name f, j) ∈ entries := by
    simp [List.mem_filter, fieldOf_eq_some.2 rfl]
  constructor
  · rintro ⟨h1, h2, h3⟩
    rw [hkeys] at h1 h3
    exact ⟨h1, fun f j hj => h2 f j ((hmem f j).2 hj), h3⟩
  · rintro ⟨h1, h2, h3⟩
    refine ⟨?_, fun f j hj => h2 f j ((hmem f j).1 hj), ?_⟩ <;> rw [hkeys] <;> assumption

/-- Two objects with the same entries for fields, in whatever order and among whatever others. -/
def SameFields (S : Schema F Val) (entries entries' : List (String × Json)) : Prop :=
  (entries.filter fun e => (S.fieldOf e.1).isSome).Perm (entries'.filter fun e => (S.fieldOf e.1).isSome)

omit [DecidableEq F] in
theorem SameFields.reads {entries entries' : List (String × Json)} {v : (f : F) → Val f}
    (h : S.SameFields entries entries') (hr : S.Reads entries v) : S.Reads entries' v :=
  reads_filter.1 ((reads_filter.2 hr).perm h)

/-! ## Round trip -/

omit [DecidableEq F] in
theorem fields_nodup : S.fields.Nodup := List.Nodup.of_map _ S.distinct

omit [DecidableEq F] in
theorem mem_entriesOf {v : (f : F) → Val f} {f : F} {j : Json} :
    (S.name f, j) ∈ S.entriesOf v ↔ S.skip f (v f) = false ∧ j = (S.codec f).ser (v f) := by
  simp only [entriesOf, List.mem_filterMap]
  constructor
  · rintro ⟨g, -, hg⟩
    split at hg
    · cases hg
    · rename_i hskip
      obtain ⟨hname, rfl⟩ := Prod.mk.inj (Option.some.inj hg)
      obtain rfl := S.name_inj hname
      exact ⟨by simpa using hskip, rfl⟩
  · rintro ⟨hskip, rfl⟩
    exact ⟨f, S.complete f, by simp [hskip]⟩

omit [DecidableEq F] in
theorem keys_entriesOf (v : (f : F) → Val f) : S.keys (S.entriesOf v) = S.fields.filter fun f => !S.skip f (v f) := by
  rw [keys, entriesOf, List.filterMap_filterMap, ← List.filterMap_eq_filter]
  refine List.filterMap_congr fun f _ => ?_
  cases hskip : S.skip f (v f) with
  | true => simp [Option.guard, hskip]
  | false => simp [Option.guard, hskip, fieldOf_eq_some.2 rfl]

/-- **Round trip**: what is written is read back. -/
theorem deserialize_serialize (h : ∀ f v, (S.codec f).de ((S.codec f).ser v) = .ok v) (v : (f : F) → Val f) :
    S.deserialize (S.serialize v) = .ok v := by
  refine visitMap_ok_iff.2 ⟨?_, fun f j hj => ?_, fun f hf => ?_⟩
  · rw [keys_entriesOf]
    exact fields_nodup.filter _
  · obtain ⟨-, rfl⟩ := mem_entriesOf.1 hj
    exact h f (v f)
  · rw [keys_entriesOf, List.mem_filter] at hf
    have hskip : S.skip f (v f) = true := by simpa [S.complete f] using hf
    exact S.default_of_skip f (v f) hskip

/-! ## Arrays -/

omit [DecidableEq F] in
theorem map_fst_zip_sublist (fs : List F) (xs : List Json) : ((fs.zip xs).map Prod.fst).Sublist fs := by
  induction fs generalizing xs with
  | nil => exact List.Sublist.refl _
  | cons f fs ih =>
    cases xs with
    | nil => exact List.nil_sublist _
    | cons x xs => exact (ih xs).cons_cons f

/-- An element is an entry under its field's name. -/
theorem visitElements_eq {es : List (F × Json)} : ∀ {slots : Slots Val}, (es.map Prod.fst).Nodup →
    (∀ f ∈ es.map Prod.fst, slots f = none) →
    es.foldlM S.visitElement slots = (es.map fun e => (S.name e.1, e.2)).foldlM S.visitEntry slots := by
  induction es with
  | nil => exact fun _ _ => rfl
  | cons e es ih =>
    obtain ⟨f, j⟩ := e
    intro slots hnodup hfree
    simp only [List.map_cons, List.nodup_cons, List.mem_cons] at hnodup hfree
    have hone : S.visitEntry slots (S.name f, j) = S.visitElement slots (f, j) := by
      simp [visitEntry, visitElement, fieldOf_eq_some.2 rfl, hfree f (Or.inl rfl)]
    rw [List.map_cons, List.foldlM_cons, List.foldlM_cons, hone]
    rcases hv : S.visitElement slots (f, j) with err | slots'
    · rfl
    refine ih hnodup.2 fun g hg => ?_
    obtain ⟨v, -, rfl⟩ := fill_ok_iff.1 hv
    have hgf : g ≠ f := fun he => hnodup.1 (he ▸ hg)
    rw [Function.update_of_ne hgf]
    exact hfree g (Or.inr hg)

/-- **An array is the object** that names its elements after the fields in their order. -/
theorem deserialize_arr_iff {xs : List Json} {v : (f : F) → Val f} :
    S.deserialize (.arr xs) = .ok v ↔
      xs.length ≤ S.fields.length ∧ S.Reads ((S.fields.map S.name).zip xs) v := by
  have hfold : (S.fields.zip xs).foldlM S.visitElement (fun _ => none) =
      ((S.fields.map S.name).zip xs).foldlM S.visitEntry fun _ => none := by
    rw [visitElements_eq ?_ fun _ _ => rfl, List.zip_map_left]
    · rfl
    · exact fields_nodup.sublist (map_fst_zip_sublist _ _)
  have hfinish (slots : Slots Val) (m m' : F → DeError) (w : (f : F) → Val f) :
      S.finish m slots = .ok w ↔ S.finish m' slots = .ok w := by
    rw [finish_ok_iff, finish_ok_iff]
  rw [← visitMap_ok_iff]
  show S.visitSeq xs = .ok v ↔ _
  unfold visitSeq visitMap
  rw [hfold]
  rcases ((S.fields.map S.name).zip xs).foldlM S.visitEntry (fun _ => none) with err | slots
  · simp [bind, Except.bind]
  show (S.finish _ slots).bind _ = .ok v ↔ _ ∧ S.finish _ slots = .ok v
  rw [hfinish slots (fun f => .missingField (S.name f)) fun f => .invalidLength (S.fields.idxOf f)]
  rcases S.finish _ slots with err | w
  · simp [Except.bind]
  · show (if S.fields.length < xs.length then Except.error _ else Except.ok w) = _ ↔ _
    by_cases hlen : S.fields.length < xs.length
    · simp [hlen, Nat.not_le_of_lt hlen]
    · simp [hlen, Nat.le_of_not_lt hlen]

/-- What a value says as a record. -/
inductive Says (S : Schema F Val) : Json → ((f : F) → Val f) → Prop where
  | obj {entries : List (String × Json)} {v : (f : F) → Val f} (h : S.Reads entries v) : Says S (.obj entries) v
  | arr {xs : List Json} {v : (f : F) → Val f} (hlen : xs.length ≤ S.fields.length)
    (h : S.Reads ((S.fields.map S.name).zip xs) v) : Says S (.arr xs) v

/-- **A value is accepted exactly for what it says.** -/
theorem deserialize_iff {j : Json} {v : (f : F) → Val f} : S.deserialize j = .ok v ↔ S.Says j v := by
  cases j with
  | obj entries =>
    show S.visitMap entries = .ok v ↔ _
    rw [visitMap_ok_iff]
    constructor
    · exact .obj
    · rintro ⟨h⟩
      exact h
  | arr xs =>
    rw [deserialize_arr_iff]
    constructor
    · rintro ⟨hlen, h⟩
      exact .arr hlen h
    · rintro ⟨⟩
      exact ⟨‹_›, ‹_›⟩
  | _ =>
    refine iff_of_false ?_ ?_
    · intro h
      cases h
    · intro h
      cases h

omit [DecidableEq F] in
theorem SameFields.means {entries entries' : List (String × Json)} {v : (f : F) → Val f}
    (h : S.SameFields entries entries') (hs : S.Says (.obj entries) v) : S.Says (.obj entries') v := by
  cases hs with
  | obj hr => exact .obj (h.reads hr)

/-! ## Types -/

/-- The codec of a type that is its fields. -/
def record {R : Type} (S : Schema F Val) (e : R ≃ ((f : F) → Val f)) : Codec R where
  ser r := S.serialize (e r)
  de j := (S.deserialize j).map e.symm

variable {R : Type} {e : R ≃ ((f : F) → Val f)}

theorem record_de_iff {j : Json} {r : R} : (S.record e).de j = .ok r ↔ S.Says j (e r) := by
  rw [← deserialize_iff]
  show (S.deserialize j).map e.symm = .ok r ↔ _
  rcases S.deserialize j with err | v
  · simp [Except.map]
  · simp [Except.map, Equiv.symm_apply_eq]

theorem lawful_record (h : ∀ f v, (S.codec f).de ((S.codec f).ser v) = .ok v) : (S.record e).Lawful where
  de_ser r := record_de_iff.2 (deserialize_iff.1 (deserialize_serialize h (e r)))
  ser_ne_null r := by
    intro h
    cases h

end Schema

end Wire

import Mathlib.Tactic.Lemma
import SapOne.Diagnostic

set_option relaxedAutoImplicit false
set_option autoImplicit false

/-!
# Outcomes of a computation

Both passes of the assembler are sequences of computations that stop at the first error. This
module takes such sequences apart: a success is a success of every part, and an error is the
first one in the order in which things are checked.

## Main definitions

* `Except.error?` — the error of a computation that fails.
* `Except.Rel` — two computations that end alike.
* `SapOne.firstFailure` — the error of the first check of a list that fails.
* `SapOne.DecidedBy` — a computation fails as the first failing check of a list says, and
  succeeds if no check fails.

## Main results

* `Except.bind_eq_ok_iff`, `SapOne.atLine_eq_ok_iff` — a success of a sequence, part by part.
* `Except.Rel.bind` — sequences end alike if their parts do.
* `SapOne.DecidedBy.bind` — checks of a sequence are the checks of its parts, in order.
-/

namespace Except

variable {ε α β : Type}

/-- A sequence of two computations succeeds exactly if both do. -/
lemma bind_eq_ok_iff {x : Except ε α} {f : α → Except ε β} {b : β} :
    x >>= f = .ok b ↔ ∃ a, x = .ok a ∧ f a = .ok b := by
  cases x with
  | error e =>
    constructor
    · intro h
      cases h
    · rintro ⟨a, h, -⟩
      cases h
  | ok a =>
    constructor
    · intro h
      exact ⟨a, rfl, h⟩
    · rintro ⟨a', h, hf⟩
      cases h
      exact hf

/-- A computation with a last step succeeds if it does without, and gives what that step makes of
the result. -/
lemma map_eq_ok_iff {x : Except ε α} {f : α → β} {b : β} :
    x.map f = .ok b ↔ ∃ a, x = .ok a ∧ f a = b := by
  cases x <;> simp [Except.map]

/-- A last step that cannot fail changes no error. -/
lemma map_eq_error_iff {x : Except ε α} {f : α → β} {e : ε} :
    x.map f = .error e ↔ x = .error e := by
  cases x <;> simp [Except.map]

/-- A list is computed if its first element is, and then the others. -/
lemma mapM_cons_eq_ok_iff {f : α → Except ε β} {a : α} {l : List α} {r : List β} :
    (a :: l).mapM f = .ok r ↔ ∃ b bs, f a = .ok b ∧ l.mapM f = .ok bs ∧ r = b :: bs := by
  rw [List.mapM_cons, bind_eq_ok_iff]
  constructor
  · rintro ⟨b, hb, h⟩
    obtain ⟨bs, hbs, h⟩ := bind_eq_ok_iff.1 h
    cases h
    exact ⟨b, bs, hb, hbs, rfl⟩
  · rintro ⟨b, bs, hb, hbs, rfl⟩
    exact ⟨b, hb, bind_eq_ok_iff.2 ⟨bs, hbs, rfl⟩⟩

/-- There is one result for each element. -/
lemma length_of_mapM_eq_ok {f : α → Except ε β} {l : List α} {r : List β}
    (h : l.mapM f = .ok r) : r.length = l.length := by
  induction l generalizing r with
  | nil =>
    cases h
    rfl
  | cons a l ih =>
    obtain ⟨b, bs, -, hbs, rfl⟩ := mapM_cons_eq_ok_iff.1 h
    simp [ih hbs]

/-- Where a whole list is computed, each of its elements is. -/
lemma exists_of_mapM_eq_ok {f : α → Except ε β} {l : List α} {r : List β}
    (h : l.mapM f = .ok r) {a : α} (ha : a ∈ l) : ∃ b, f a = .ok b := by
  induction l generalizing r with
  | nil => cases ha
  | cons a' l ih =>
    obtain ⟨b, bs, hb, hbs, -⟩ := mapM_cons_eq_ok_iff.1 h
    rcases List.mem_cons.1 ha with rfl | ha
    · exact ⟨b, hb⟩
    · exact ih hbs ha

/-- The error of a computation that fails. -/
def error? : Except ε α → Option ε
  | .ok _ => none
  | .error e => some e

/-- A computation has the error that it fails with. -/
lemma error?_eq_some_iff {x : Except ε α} {e : ε} : x.error? = some e ↔ x = .error e := by
  cases x <;> simp [error?]

/-- A computation has no error exactly if it succeeds. -/
lemma error?_eq_none_iff {x : Except ε α} : x.error? = none ↔ ∃ a, x = .ok a := by
  cases x <;> simp [error?]

/-! ## Two computations side by side -/

/-- Two computations end alike: both fail or both succeed, with related errors or results. -/
inductive Rel {δ : Type} (E : ε → δ → Prop) (R : α → β → Prop) : Except ε α → Except δ β → Prop
  | error {e : ε} {d : δ} (h : E e d) : Rel E R (.error e) (.error d)
  | ok {a : α} {b : β} (h : R a b) : Rel E R (.ok a) (.ok b)

namespace Rel

variable {δ α' β' : Type} {E : ε → δ → Prop} {R : α → β → Prop} {R' : α' → β' → Prop}
  {x : Except ε α} {y : Except δ β}

/-- **Sequences end alike** if their first parts do, and if their second parts do on related
results of the first ones. -/
lemma bind {f : α → Except ε α'} {g : β → Except δ β'} (h : Rel E R x y)
    (hf : ∀ a b, R a b → Rel E R' (f a) (g b)) : Rel E R' (x >>= f) (y >>= g) := by
  cases h with
  | error h => exact error h
  | ok h => exact hf _ _ h

/-- Computations that end alike do so after a last step that keeps their results related. -/
lemma map {f : α → α'} {g : β → β'} (h : Rel E R x y) (hf : ∀ a b, R a b → R' (f a) (g b)) :
    Rel E R' (x.map f) (y.map g) := by
  cases h with
  | error h => exact error h
  | ok h => exact ok (hf _ _ h)

/-- Computations end alike also under weaker relations of errors and results. -/
lemma imp {E' : ε → δ → Prop} {S : α → β → Prop} (h : Rel E R x y) (hE : ∀ e d, E e d → E' e d)
    (hR : ∀ a b, R a b → S a b) : Rel E' S x y := by
  cases h with
  | error h => exact error (hE _ _ h)
  | ok h => exact ok (hR _ _ h)

/-- A computation ends as it ends, if the relations are reflexive. -/
lemma refl {E : ε → ε → Prop} {R : α → α → Prop} (hE : ∀ e, E e e) (hR : ∀ a, R a a)
    (x : Except ε α) : Rel E R x x := by
  cases x with
  | error e => exact error (hE e)
  | ok a => exact ok (hR a)

/-- Computations that end with the same error or the same result are the same. -/
lemma eq {x y : Except ε α} (h : Rel Eq Eq x y) : x = y := by
  cases h with
  | error h => rw [h]
  | ok h => rw [h]

end Rel

end Except

namespace SapOne

variable {ε α β : Type}

/-- Blaming a line does not touch a success. -/
lemma atLine_eq_ok_iff {line : Nat} {x : Except Error α} {a : α} :
    atLine line x = .ok a ↔ x = .ok a := by
  cases x <;> simp

/-! ## Checks in order -/

/-- The error of the first check that fails. A check is given by the error it reports, if it
fails. -/
def firstFailure (checks : List (Option ε)) : Option ε :=
  checks.findSome? id

/-- The first failure of two lists of checks is that of the first list, if there is one. -/
lemma firstFailure_append (checks later : List (Option ε)) :
    firstFailure (checks ++ later) = (firstFailure checks).or (firstFailure later) :=
  List.findSome?_append

/-- No check fails first exactly if none fails. -/
lemma firstFailure_eq_none_iff {checks : List (Option ε)} :
    firstFailure checks = none ↔ ∀ c ∈ checks, c = none :=
  List.findSome?_eq_none_iff

/-- Errors may be rewritten before or after the first one is looked for. -/
lemma firstFailure_map {δ : Type} (f : ε → δ) (checks : List (Option ε)) :
    firstFailure (checks.map (Option.map f)) = (firstFailure checks).map f := by
  induction checks with
  | nil => rfl
  | cons c checks ih =>
    cases c with
    | none => exact ih
    | some e => rfl

/-- A computation is decided by a list of checks if it fails with the error of the first check
that fails, and succeeds if there is none. -/
def DecidedBy (x : Except ε α) (checks : List (Option ε)) : Prop :=
  x.error? = firstFailure checks

namespace DecidedBy

/-- A success needs no check. -/
lemma ok (a : α) : DecidedBy (.ok a : Except ε α) [] := rfl

/-- A computation is the check of itself. -/
lemma self (x : Except ε α) : DecidedBy x [x.error?] := by
  cases x <;> rfl

/-- **The checks of a sequence** are those of its first part and then those of its second one,
which may depend on what the first part has given. -/
lemma bind {x : Except ε α} {f : α → Except ε β} {checks later : List (Option ε)}
    (hx : DecidedBy x checks) (hf : ∀ a, x = .ok a → DecidedBy (f a) later) :
    DecidedBy (x >>= f) (checks ++ later) := by
  unfold DecidedBy at hx ⊢
  rw [firstFailure_append, ← hx]
  cases x with
  | error e => rfl
  | ok a => exact hf a rfl

/-- A last step that cannot fail needs no check. -/
lemma map {x : Except ε α} {checks : List (Option ε)} (hx : DecidedBy x checks) (f : α → β) :
    DecidedBy (x.map f) checks := by
  unfold DecidedBy at hx ⊢
  rw [← hx]
  cases x <;> rfl

/-- Blaming a line for an error is blaming it in every check. -/
lemma atLine {x : Except Error α} {checks : List (Option Error)} (hx : DecidedBy x checks)
    (line : Nat) :
    DecidedBy (SapOne.atLine line x) (checks.map (Option.map (Diagnostic.mk line))) := by
  unfold DecidedBy at hx ⊢
  rw [firstFailure_map, ← hx]
  cases x <;> rfl

end DecidedBy

end SapOne

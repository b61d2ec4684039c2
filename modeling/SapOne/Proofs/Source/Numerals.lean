import SapOne.Proofs.Source.Items
import SapOne.Proofs.Source.Rendering

set_option relaxedAutoImplicit false
set_option autoImplicit false

/-!
# Numerals

Which texts denote a number, stated without a way of reading them: runs of digits in base ten, and
runs of digits in base sixteen behind their sign. Leading zeros and the case of letters are free, so
that every number is denoted by many texts, among them the ones that the writers of this library
give. A numeral is a token, and is read as the number that it denotes wherever an operand may stand.

## Main definitions

* `SapOne.Numeral.Denotes` — a text and the number that it denotes.

## Main results

* `SapOne.Numeral.read?_eq_some_iff` — numerals are read as what they denote.
* `SapOne.Numeral.denotes_decimal`, `SapOne.Numeral.denotes_hex` — what is written denotes the
  number that was written.
* `SapOne.Number.parse_eq_ok_iff` — numbers are read off numerals below the limit, and off nothing
  else.
* `SapOne.Operand.parse_of_denotes` — a numeral below the limit is an operand.
* `SapOne.Operand.items_of_isToken` — a token is a list with one item.
-/

namespace SapOne

open Grammar

namespace Numeral

/-- A text denotes a number: by its digits in base ten, or in base sixteen behind the sign of that
base. -/
inductive Denotes : Text → Nat → Prop
  | decimal {digits : Text} (hne : digits ≠ []) (h : ∀ c ∈ digits, c.isDigit = true) :
    Denotes digits (value 10 digits)
  | hex {digits : Text} (hne : digits ≠ []) (h : ∀ c ∈ digits, isHexDigit c = true) :
    Denotes (hexSign :: digits) (value 16 digits)

/-- The digits of base sixteen are letters and digits. -/
lemma isAlphanum_of_isHexDigit {c : Char} (h : isHexDigit c = true) : c.isAlphanum = true := by
  have hrange : (decide (48 ≤ c.val) && decide (c.val ≤ 57) ||
      decide (97 ≤ c.val) && decide (c.val ≤ 102) ||
      decide (65 ≤ c.val) && decide (c.val ≤ 70)) = true := h
  have halnum : c.isAlphanum = (decide (65 ≤ c.val ∧ c.val ≤ 90) ||
      (decide (97 ≤ c.val) && decide (c.val ≤ 122)) ||
      (decide (48 ≤ c.val) && decide (c.val ≤ 57))) := rfl
  simp only [halnum, Bool.or_eq_true, Bool.and_eq_true, decide_eq_true_eq,
    UInt32.le_iff_toNat_le] at hrange ⊢
  simp only [UInt32.reduceToNat] at hrange ⊢
  omega

/-- A digit of base ten is not the sign of base sixteen. -/
lemma ne_hexSign_of_isDigit {c : Char} (h : c.isDigit = true) : c ≠ hexSign := by
  intro hc
  rw [hc] at h
  exact absurd h (by decide)

/-- **Numerals are read as what they denote**, and nothing else is read. -/
theorem read?_eq_some_iff {s : Text} {n : Nat} : read? s = some n ↔ Denotes s n := by
  constructor
  · intro h
    cases s with
    | nil => cases h
    | cons c s =>
      rw [read?] at h
      by_cases hc : c = hexSign
      · rw [if_pos hc] at h
        split at h
        · next hdigits =>
          simp only [Bool.and_eq_true, Bool.not_eq_true', List.isEmpty_eq_false_iff,
            List.all_eq_true] at hdigits
          cases h
          rw [hc]
          exact .hex hdigits.1 hdigits.2
        · cases h
      · rw [if_neg hc] at h
        split at h
        · next hdigits =>
          cases h
          exact .decimal (by simp) (List.all_eq_true.1 hdigits)
        · cases h
  · intro h
    cases h with
    | decimal hne hdigits =>
      obtain ⟨c, s, rfl⟩ := List.exists_cons_of_ne_nil hne
      have hc := ne_hexSign_of_isDigit (hdigits c List.mem_cons_self)
      rw [read?, if_neg hc, if_pos (List.all_eq_true.2 hdigits)]
    | hex hne hdigits =>
      simp [read?, hne, List.all_eq_true.2 hdigits]

/-- The decimal digits of a number denote it. -/
lemma denotes_decimal (n : Nat) : Denotes (decimal n) n :=
  read?_eq_some_iff.1 (read?_decimal n)

/-- The digits of base sixteen denote their number, behind the sign of that base. -/
lemma denotes_hex (n : Nat) : Denotes (hexSign :: hex n) n :=
  read?_eq_some_iff.1 (read?_hex n)

variable {s : Text} {n : Nat}

/-- A numeral is a token. -/
lemma Denotes.isToken (h : Denotes s n) : IsToken s := by
  cases h with
  | decimal hne hdigits =>
    exact ⟨s, Or.inl rfl, hne, fun c hc => by simp [Char.isAlphanum, hdigits c hc]⟩
  | @hex digits hne hdigits =>
    exact ⟨digits, Or.inr rfl, hne, fun c hc => isAlphanum_of_isHexDigit (hdigits c hc)⟩

/-- What decides that an operand is a number: it begins with a digit or with the sign of base
sixteen. -/
lemma Denotes.exists_head (h : Denotes s n) :
    ∃ c rest, s = c :: rest ∧ (c.isDigit = true ∨ c = hexSign) := by
  cases h with
  | decimal hne hdigits =>
    obtain ⟨c, rest, rfl⟩ := List.exists_cons_of_ne_nil hne
    exact ⟨c, rest, rfl, Or.inl (hdigits c List.mem_cons_self)⟩
  | @hex digits hne hdigits => exact ⟨hexSign, digits, rfl, Or.inr rfl⟩

end Numeral

/-! ## Tokens as numbers and operands -/

namespace Grammar

variable {s : Text}

/-- A token can stand as the operand of any directive. -/
lemma IsToken.wellFormed (h : IsToken s) (d : Directive) :
    (Statement.directive d s).WellFormed := by
  refine ⟨h.isTrimmed, h.commentSign_not_mem, ?_⟩
  intro hmem
  have hblank := h.isBlank_of_mem hmem
  exact absurd hblank (by decide)

end Grammar

namespace Number

open Numeral

/-- A numeral is missing exactly if there is nothing but blanks. -/
lemma parse_eq_missingArgument_iff {s : Text} :
    parse s = .error .missingArgument ↔ Text.trim s = [] := by
  unfold parse
  by_cases h : Text.trim s = []
  · simp [h]
  · simp only [List.isEmpty_iff, h, if_false, iff_false]
    split
    · split <;> simp
    · simp

/-- A number is read exactly if a numeral denotes it, and it is a word. -/
lemma parse_eq_ok_iff {s : Text} {v : Nat} :
    parse s = .ok v ↔ Denotes (Text.trim s) v ∧ v < limit := by
  rw [← read?_eq_some_iff]
  unfold parse
  by_cases h : Text.trim s = []
  · simp [h, read?]
  · simp only [List.isEmpty_iff, h, if_false]
    cases read? (Text.trim s) with
    | none => simp
    | some n =>
      by_cases hn : n < limit
      · simp only [hn, if_true, Except.ok.injEq, Option.some.injEq]
        constructor
        · rintro rfl
          exact ⟨rfl, hn⟩
        · exact fun h => h.1
      · simp only [hn, if_false, reduceCtorEq, Option.some.injEq, false_iff, not_and]
        rintro rfl
        exact hn

/-- What is neither blank nor a numeral below the limit is quoted without the blanks around it. -/
lemma parse_eq_notANumber_iff {s : Text} :
    parse s = .error (.notANumber (Text.trim s)) ↔
      Text.trim s ≠ [] ∧ ∀ v < limit, ¬ Denotes (Text.trim s) v := by
  constructor
  · intro h
    refine ⟨fun hnil => ?_, fun v hv hdenotes => ?_⟩
    · rw [parse_eq_missingArgument_iff.2 hnil] at h
      cases h
    · rw [parse_eq_ok_iff.2 ⟨hdenotes, hv⟩] at h
      cases h
  · rintro ⟨hne, hnone⟩
    unfold parse
    simp only [List.isEmpty_iff, hne, if_false]
    cases hread : read? (Text.trim s) with
    | none => rfl
    | some n =>
      have hn : ¬ n < limit := fun hn => hnone n hn (read?_eq_some_iff.1 hread)
      simp [hn]

/-- A numeral below the limit is read as the number that it denotes. -/
lemma parse_of_denotes {s : Text} {n : Nat} (h : Denotes s n) (hn : n < limit) :
    parse s = .ok n := by
  rw [parse_eq_ok_iff, h.isToken.trim_eq_self]
  exact ⟨h, hn⟩

end Number

namespace Operand

/-- A numeral below the limit is an operand. -/
lemma parse_of_denotes {s : Text} {n : Nat} (h : Numeral.Denotes s n) (hn : n < Number.limit) :
    parse s = .ok (.literal n) := by
  have htrim := h.isToken.trim_eq_self
  have hnumber := Number.parse_of_denotes h hn
  obtain ⟨c, rest, rfl, hc⟩ := h.exists_head
  have hcond : (c.isDigit || decide (c = Numeral.hexSign)) = true := by simpa using hc
  rw [parse, htrim]
  simp only [hcond, if_true, hnumber]
  rfl

/-- A token is a list with one item. -/
lemma items_of_isToken {s : Text} (h : IsToken s) : items s = .ok [s] := by
  have hcomma : ',' ∉ s := by
    intro hmem
    exact absurd (h.isAlphanum_of_mem hmem) (by decide)
  simp [items, h.trim_eq_self, h.ne_nil, Text.split_eq_singleton hcomma]

end Operand

end SapOne

import Mathlib.Data.Nat.Digits.Defs
import Mathlib.Data.Nat.Digits.Lemmas
import SapOne.Proofs.Source.Numerals

set_option relaxedAutoImplicit false
set_option autoImplicit false

/-!
# Numerals as positional notation

A numeral is a row of digits, and the number that it stands for is the sum of its digits, each times
a power of the base. This module says which characters are digits by the digits themselves and not
by ranges of characters, and finds the values of the reader again in the sum.

Numbers of a source are words. The reader computes the value of a numeral without a bound and
compares it with the limit once; checking every product and every sum on the way instead refuses
the same numerals, because the value never gets smaller with one more digit.

## Main definitions

* `SapOne.Numeral.IsDigitOf` — a character that is the digit of a number.
* `SapOne.Numeral.Positional` — a text and the number that it stands for in positional notation.
* `SapOne.Number.accumulate?` — the value of digits, computed in words.

## Main results

* `SapOne.Numeral.denotes_iff_positional` — numerals denote what they stand for.
* `SapOne.Numeral.exists_digits_toDigits` — the digits of a number are its digits.
* `SapOne.Number.foldlM_push?` — words overflow exactly if the value is no word.
* `SapOne.Number.parse_reads_positional` — numbers are read exactly as positional notation.
-/

namespace SapOne

namespace Numeral

/-! ## Digits -/

/-- A character is the digit of a number in a base, in either case of letters. -/
def IsDigitOf (base : Nat) (c : Char) (d : Nat) : Prop :=
  d < base ∧ (c = Nat.digitChar d ∨ c = (Nat.digitChar d).toUpper)

instance (base : Nat) (c : Char) (d : Nat) : Decidable (IsDigitOf base c d) :=
  inferInstanceAs (Decidable (_ ∧ _))

/-- A text stands for a number: by a row of digits of base ten, or by a row of digits of base
sixteen behind a dollar sign. The first digit has the highest power of the base. -/
inductive Positional : Text → Nat → Prop
  | decimal {text : Text} {digits : List Nat} (hne : text ≠ [])
    (h : List.Forall₂ (IsDigitOf 10) text digits) :
    Positional text (Nat.ofDigits 10 digits.reverse)
  | hex {text : Text} {digits : List Nat} (hne : text ≠ [])
    (h : List.Forall₂ (IsDigitOf 16) text digits) :
    Positional ('$' :: text) (Nat.ofDigits 16 digits.reverse)

/-- What holds of all characters up to the last digit holds of every digit of base sixteen. -/
lemma of_isHexDigit {P : Char → Prop}
    (h : ∀ n < 103, isHexDigit (Char.ofNat n) = true → P (Char.ofNat n)) {c : Char}
    (hc : isHexDigit c = true) : P c := by
  have hrange : (decide (48 ≤ c.val) && decide (c.val ≤ 57) ||
      decide (97 ≤ c.val) && decide (c.val ≤ 102) ||
      decide (65 ≤ c.val) && decide (c.val ≤ 70)) = true := hc
  simp only [Bool.or_eq_true, Bool.and_eq_true, decide_eq_true_eq,
    UInt32.le_iff_toNat_le, UInt32.reduceToNat] at hrange
  have hlt : c.toNat < 103 := by
    simp only [Char.toNat]
    omega
  have hchar := h c.toNat hlt
  rw [Char.ofNat_toNat] at hchar
  exact hchar hc

/-- The digits of base sixteen are those that are recognized, with their values. -/
lemma isDigitOf_sixteen_iff {c : Char} {d : Nat} :
    IsDigitOf 16 c d ↔ isHexDigit c = true ∧ digitValue c = d := by
  constructor
  · rintro ⟨hd, rfl | rfl⟩
    · revert d
      decide
    · revert d
      decide
  · rintro ⟨hc, rfl⟩
    exact of_isHexDigit (P := fun c => IsDigitOf 16 c (digitValue c)) (by decide) hc

/-- The digits of base ten are those that are recognized, with their values. -/
lemma isDigitOf_ten_iff {c : Char} {d : Nat} :
    IsDigitOf 10 c d ↔ c.isDigit = true ∧ digitValue c = d := by
  constructor
  · rintro ⟨hd, rfl | rfl⟩
    · revert d
      decide
    · revert d
      decide
  · rintro ⟨hc, rfl⟩
    have hhex : isHexDigit c = true := by simp [isHexDigit, hc]
    exact of_isHexDigit (P := fun c => c.isDigit = true → IsDigitOf 10 c (digitValue c)) (by decide)
      hhex hc

/-- The digits of a text are the values of its characters, if all of these are digits. -/
lemma forall₂_isDigitOf_iff {base : Nat} {p : Char → Bool}
    (hp : ∀ c d, IsDigitOf base c d ↔ p c = true ∧ digitValue c = d) {text : Text}
    {digits : List Nat} :
    List.Forall₂ (IsDigitOf base) text digits ↔
      (∀ c ∈ text, p c = true) ∧ digits = text.map digitValue := by
  induction text generalizing digits with
  | nil => simp
  | cons c text ih =>
    rw [List.forall₂_cons_left_iff]
    constructor
    · rintro ⟨d, rest, hd, hrest, rfl⟩
      obtain ⟨hall, rfl⟩ := ih.1 hrest
      obtain ⟨hc, rfl⟩ := (hp c d).1 hd
      exact ⟨List.forall_mem_cons.2 ⟨hc, hall⟩, rfl⟩
    · rintro ⟨hall, rfl⟩
      obtain ⟨hc, hall⟩ := List.forall_mem_cons.1 hall
      exact ⟨_, _, (hp c _).2 ⟨hc, rfl⟩, ih.2 ⟨hall, rfl⟩, rfl⟩

/-- **The value of digits is the sum of their powers.** -/
lemma value_eq_ofDigits (base : Nat) (text : Text) :
    value base text = Nat.ofDigits base (text.map digitValue).reverse := by
  induction text using List.reverseRecOn with
  | nil => simp
  | append_singleton text c ih =>
    have hdigits : ((text ++ [c]).map digitValue).reverse =
        digitValue c :: (text.map digitValue).reverse := by simp
    rw [value_concat, ih, hdigits, Nat.ofDigits_cons, Nat.mul_comm, Nat.add_comm]

/-- **Numerals denote what they stand for.** -/
theorem denotes_iff_positional {s : Text} {n : Nat} : Denotes s n ↔ Positional s n := by
  constructor
  · intro h
    cases h with
    | decimal hne hdigits =>
      rw [value_eq_ofDigits]
      exact .decimal hne ((forall₂_isDigitOf_iff @isDigitOf_ten_iff).2 ⟨hdigits, rfl⟩)
    | hex hne hdigits =>
      rw [value_eq_ofDigits]
      exact .hex hne ((forall₂_isDigitOf_iff @isDigitOf_sixteen_iff).2 ⟨hdigits, rfl⟩)
  · intro h
    cases h with
    | decimal hne hdigits =>
      obtain ⟨hall, rfl⟩ := (forall₂_isDigitOf_iff @isDigitOf_ten_iff).1 hdigits
      rw [← value_eq_ofDigits]
      exact .decimal hne hall
    | hex hne hdigits =>
      obtain ⟨hall, rfl⟩ := (forall₂_isDigitOf_iff @isDigitOf_sixteen_iff).1 hdigits
      rw [← value_eq_ofDigits]
      exact .hex hne hall

/-- A text stands for one number at most. -/
lemma Positional.unique {s : Text} {m n : Nat} (hm : Positional s m) (hn : Positional s n) :
    m = n := by
  rw [← denotes_iff_positional, ← read?_eq_some_iff] at hm hn
  rw [hm] at hn
  exact Option.some.inj hn

/-! ## Written numerals -/

/-- **The digits of a number are its digits.** -/
lemma exists_digits_toDigits {base : Nat} (h : 1 < base) (n : Nat) :
    ∃ digits, List.Forall₂ (IsDigitOf base) (Nat.toDigits base n) digits ∧
      Nat.ofDigits base digits.reverse = n := by
  induction n using Nat.strongRecOn with
  | ind n ih =>
    rw [Nat.toDigits_eq_if h]
    split
    · next hn => exact ⟨[n], .cons ⟨hn, Or.inl rfl⟩ .nil, by simp⟩
    · obtain ⟨digits, hdigits, hvalue⟩ := ih (n / base) (Nat.div_lt_self (by omega) h)
      refine ⟨digits ++ [n % base], ?_, ?_⟩
      · apply List.rel_append hdigits
        exact .cons ⟨Nat.mod_lt n (by omega), Or.inl rfl⟩ .nil
      · simp [Nat.ofDigits_cons, hvalue, Nat.mod_add_div]

/-- Zeros in front of a row of digits are digits, and do not change what it stands for. -/
lemma exists_digits_replicate_append {base : Nat} (h : 0 < base) (k : Nat) {text : Text}
    {digits : List Nat} (hdigits : List.Forall₂ (IsDigitOf base) text digits) :
    ∃ digits', List.Forall₂ (IsDigitOf base) (List.replicate k '0' ++ text) digits' ∧
      Nat.ofDigits base digits'.reverse = Nat.ofDigits base digits.reverse := by
  refine ⟨List.replicate k 0 ++ digits, List.rel_append ?_ hdigits, ?_⟩
  · induction k with
    | zero => exact .nil
    | succ k ih => exact .cons ⟨h, Or.inl rfl⟩ ih
  · simp [Nat.ofDigits_append]

/-- Capital letters are digits, too. -/
lemma forall₂_isDigitOf_map_toUpper {text : Text} {digits : List Nat}
    (h : List.Forall₂ (IsDigitOf 16) text digits) :
    List.Forall₂ (IsDigitOf 16) (text.map Char.toUpper) digits := by
  rw [List.forall₂_map_left_iff]
  refine h.imp ?_
  rintro c d ⟨hd, rfl | rfl⟩
  · exact ⟨hd, Or.inr rfl⟩
  · revert d
    decide

/-- A number in base ten, with any number of zeros in front, stands for itself. -/
lemma positional_decimal (k n : Nat) : Positional (List.replicate k '0' ++ decimal n) n := by
  obtain ⟨digits, hdigits, hvalue⟩ := exists_digits_toDigits (by decide : 1 < 10) n
  obtain ⟨digits', hdigits', hvalue'⟩ := exists_digits_replicate_append (by decide) k hdigits
  have hne : List.replicate k '0' ++ decimal n ≠ [] := by simp [decimal, Nat.toDigits_ne_nil]
  have hpositional := Positional.decimal hne hdigits'
  rwa [hvalue', hvalue] at hpositional

/-- A number in base sixteen, in small or in capital letters and with any number of zeros in front,
stands for itself. -/
lemma positional_hex (k n : Nat) {text : Text} (htext : text = hex n ∨ text = upperHex n) :
    Positional ('$' :: (List.replicate k '0' ++ text)) n := by
  obtain ⟨digits, hdigits, hvalue⟩ := exists_digits_toDigits (by decide : 1 < 16) n
  have hspelled : List.Forall₂ (IsDigitOf 16) text digits := by
    rcases htext with rfl | rfl
    · exact hdigits
    · exact forall₂_isDigitOf_map_toUpper hdigits
  obtain ⟨digits', hdigits', hvalue'⟩ := exists_digits_replicate_append (by decide) k hspelled
  have hne : List.replicate k '0' ++ text ≠ [] := by
    rcases htext with rfl | rfl <;> simp [hex, upperHex, Nat.toDigits_ne_nil]
  have hpositional := Positional.hex hne hdigits'
  rwa [hvalue', hvalue] at hpositional

end Numeral

namespace Number

open Numeral

/-! ## Values in words -/

/-- One more digit behind a number, in words: first the product with the base has to be a word, and
then the sum with the digit. -/
def push? (base n : Nat) (c : Char) : Option Nat :=
  if n * base < limit then add? (n * base) (digitValue c) else none

/-- The value of digits, computed in words. -/
def accumulate? (base : Nat) (digits : Text) : Option Nat :=
  digits.foldlM (push? base) 0

/-- A product that is no word does not lead to a sum that is one. -/
lemma push?_eq (base n : Nat) (c : Char) :
    push? base n c =
      if n * base + digitValue c < limit then some (n * base + digitValue c) else none := by
  unfold push? add?
  split
  · rfl
  · rw [if_neg (by omega)]

/-- The value of digits is not smaller than that of the first ones. -/
lemma le_foldl_value {base : Nat} (h : 0 < base) (digits : Text) (n : Nat) :
    n ≤ digits.foldl (fun n c => n * base + digitValue c) n := by
  induction digits generalizing n with
  | nil => simp
  | cons c digits ih =>
    have hmul : n ≤ n * base := Nat.le_mul_of_pos_right n h
    have hrest := ih (n * base + digitValue c)
    rw [List.foldl_cons]
    omega

/-- **A run over digits in words** stops exactly if the value is no word.

**Proof sketch.** Induction on the digits. If a sum on the way is no word, the value of all digits
is not smaller, and is no word either. -/
lemma foldlM_push? {base : Nat} (h : 0 < base) (digits : Text) {n : Nat} (hn : n < limit) :
    digits.foldlM (push? base) n =
      if digits.foldl (fun n c => n * base + digitValue c) n < limit then
        some (digits.foldl (fun n c => n * base + digitValue c) n)
      else none := by
  induction digits generalizing n with
  | nil => simp [hn]
  | cons c digits ih =>
    rw [List.foldlM_cons, List.foldl_cons, push?_eq]
    by_cases hsum : n * base + digitValue c < limit
    · simp [hsum, ih hsum]
    · have hle := le_foldl_value h digits (n * base + digitValue c)
      rw [if_neg hsum, if_neg (by omega)]
      rfl

/-- The accumulation gives the value of the digits, and gives it exactly if it is a word. -/
lemma accumulate?_eq_some_iff {base : Nat} (h : 0 < base) {digits : Text} {v : Nat} :
    accumulate? base digits = some v ↔ v = value base digits ∧ v < limit := by
  have hrun : accumulate? base digits =
      if value base digits < limit then some (value base digits) else none :=
    foldlM_push? h digits (by decide)
  rw [hrun]
  split
  · simp only [Option.some.injEq]
    constructor
    · rintro rfl
      exact ⟨rfl, by assumption⟩
    · rintro ⟨rfl, -⟩
      rfl
  · simp only [reduceCtorEq, false_iff, not_and]
    rintro rfl
    assumption

/-! ## Reading -/

/-- A text that denotes a number is read as that number, or is refused because it is no word. -/
lemma parse_of_positional {s : Text} {n : Nat} (h : Positional s n) :
    (n < limit → parse s = .ok n) ∧ (limit ≤ n → parse s = .error (.notANumber s)) := by
  have hdenotes := denotes_iff_positional.2 h
  have htrim := hdenotes.isToken.trim_eq_self
  refine ⟨parse_of_denotes hdenotes, fun hn => ?_⟩
  have hnone : parse s = .error (.notANumber (Text.trim s)) := by
    rw [parse_eq_notANumber_iff, htrim]
    refine ⟨hdenotes.isToken.ne_nil, fun v hv hother => ?_⟩
    have := h.unique (denotes_iff_positional.1 hother)
    omega
  rw [hnone, htrim]

/-- **Numbers are read exactly as positional notation, up to the limit of words.** A blank text is a
missing argument, a text that stands for a word is read as that word, and any other text is quoted
as it is between its blanks. The words that are read are those that computing digit by digit finds
if every product and every sum is checked. In particular every word is read back from its digits, in
both bases and with zeros in front, and no larger number is. -/
theorem parse_reads_positional :
    (∀ s : Text,
      (parse s = .error .missingArgument ↔ Text.trim s = []) ∧
      (∀ v, parse s = .ok v ↔ Positional (Text.trim s) v ∧ v < 2 ^ 64) ∧
      (parse s = .error (.notANumber (Text.trim s)) ↔
        Text.trim s ≠ [] ∧ ∀ v < 2 ^ 64, ¬ Positional (Text.trim s) v)) ∧
    (∀ (s : Text) (v : Nat), parse s = .ok v ↔
      Text.trim s ≠ [] ∧ (∀ c ∈ Text.trim s, c.isDigit = true) ∧
          accumulate? 10 (Text.trim s) = some v ∨
        ∃ digits, Text.trim s = '$' :: digits ∧ digits ≠ [] ∧
          (∀ c ∈ digits, isHexDigit c = true) ∧ accumulate? 16 digits = some v) ∧
    ∀ (zeros n : Nat) (text : Text),
      (text = List.replicate zeros '0' ++ decimal n ∨
        text = '$' :: (List.replicate zeros '0' ++ hex n) ∨
        text = '$' :: (List.replicate zeros '0' ++ upperHex n)) →
      (n < 2 ^ 64 → parse text = .ok n) ∧
        (2 ^ 64 ≤ n → parse text = .error (.notANumber text)) := by
  have hlimit : 2 ^ 64 = limit := by decide
  rw [hlimit]
  refine ⟨fun s => ⟨parse_eq_missingArgument_iff, fun v => ?_, ?_⟩, fun s v => ?_, ?_⟩
  · rw [parse_eq_ok_iff, denotes_iff_positional]
  · simp only [parse_eq_notANumber_iff, denotes_iff_positional]
  · rw [parse_eq_ok_iff]
    constructor
    · rintro ⟨hdenotes, hv⟩
      generalize Text.trim s = t at hdenotes
      cases hdenotes with
      | decimal hne hdigits =>
        exact Or.inl ⟨hne, hdigits, (accumulate?_eq_some_iff (by decide)).2 ⟨rfl, hv⟩⟩
      | hex hne hdigits =>
        exact Or.inr ⟨_, rfl, hne, hdigits, (accumulate?_eq_some_iff (by decide)).2 ⟨rfl, hv⟩⟩
    · rintro (⟨hne, hdigits, hrun⟩ | ⟨digits, htext, hne, hdigits, hrun⟩)
      · obtain ⟨rfl, hv⟩ := (accumulate?_eq_some_iff (by decide)).1 hrun
        exact ⟨.decimal hne hdigits, hv⟩
      · obtain ⟨rfl, hv⟩ := (accumulate?_eq_some_iff (by decide)).1 hrun
        rw [htext]
        exact ⟨.hex hne hdigits, hv⟩
  · rintro zeros n text (rfl | rfl | rfl)
    · exact parse_of_positional (positional_decimal zeros n)
    · exact parse_of_positional (positional_hex zeros n (Or.inl rfl))
    · exact parse_of_positional (positional_hex zeros n (Or.inr rfl))

/-- The last word with zeros in front, the first number that is no word, and a numeral in both cases
of letters between blanks. -/
theorem parse_reads_positional_around_limit :
    parse "$000FFFFFFFFFFFFFFFF".toList = .ok 18446744073709551615 ∧
      parse "18446744073709551616".toList = .error (.notANumber "18446744073709551616".toList) ∧
      parse "\u00a0$0fF\n".toList = .ok 255 := by
  obtain ⟨hread, -, hwritten⟩ := parse_reads_positional
  refine ⟨?_, ?_, ?_⟩
  · exact (hwritten 3 18446744073709551615 _ (Or.inr (Or.inr (by decide +kernel)))).1 (by decide)
  · exact (hwritten 0 18446744073709551616 _ (Or.inl (by decide +kernel))).2 (by decide)
  · have htrim : Text.trim "\u00a0$0fF\n".toList = "$0fF".toList := by decide
    have hdigits : List.Forall₂ (IsDigitOf 16) "0fF".toList [0, 15, 15] :=
      .cons (by decide) (.cons (by decide) (.cons (by decide) .nil))
    have hpositional : Positional "$0fF".toList 255 := .hex (by decide) hdigits
    apply ((hread _).2.1 255).2
    rw [htrim]
    exact ⟨hpositional, by decide⟩

end Number

end SapOne

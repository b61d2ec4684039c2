import SapOne.Text.Basic

set_option relaxedAutoImplicit false
set_option autoImplicit false

/-!
# Numerals

Numbers are written in two ways: in base ten, or in base sixteen behind a dollar sign. This
module reads both and has the writers that messages and listings use.

## Main definitions

* `SapOne.Numeral.value` — the value of a run of digits in a base.
* `SapOne.Numeral.read?` — the number that a numeral denotes, without any bound.
* `SapOne.Numeral.decimal`, `SapOne.Numeral.hex`, `SapOne.Numeral.upperHex` — digits of a
  number.

## Main results

* `SapOne.Numeral.value_toDigits` — the digits of a number have it as their value.
* `SapOne.Numeral.read?_decimal`, `SapOne.Numeral.read?_hex` — written numerals read back.
-/

namespace SapOne.Numeral

/-! ## Reading -/

/-- The sign in front of a numeral in base sixteen. -/
def hexSign : Char := '$'

/-- A digit of base sixteen, in either letter case. -/
def isHexDigit (c : Char) : Bool :=
  c.isDigit || ('a' ≤ c && c ≤ 'f') || ('A' ≤ c && c ≤ 'F')

/-- The value of a digit of base ten or sixteen. -/
def digitValue (c : Char) : Nat :=
  if c.isDigit then c.toNat - '0'.toNat
  else if 'a' ≤ c then c.toNat - 'a'.toNat + 10
  else c.toNat - 'A'.toNat + 10

/-- The value of a run of digits, the most significant one first. -/
def value (base : Nat) (digits : Text) : Nat :=
  digits.foldl (fun n c => n * base + digitValue c) 0

/-- The number that a numeral denotes: a non-empty run of digits of base ten, or the sign
`hexSign` and a non-empty run of digits of base sixteen. Leading zeros are allowed, signs of
any other kind are not. -/
def read? : Text → Option Nat
  | [] => none
  | c :: s =>
    if c = hexSign then
      if !s.isEmpty && s.all isHexDigit then some (value 16 s) else none
    else if (c :: s).all Char.isDigit then some (value 10 (c :: s)) else none

/-! ## Writing -/

/-- The digits of a number in base ten. -/
def decimal (n : Nat) : Text :=
  Nat.toDigits 10 n

/-- The digits of a number in base sixteen, in small letters. -/
def hex (n : Nat) : Text :=
  Nat.toDigits 16 n

/-- The digits of a number in base sixteen, in capital letters. -/
def upperHex (n : Nat) : Text :=
  (hex n).map Char.toUpper

/-! ## Reading what was written -/

/-- Without digits the value is zero. -/
@[simp]
theorem value_nil (base : Nat) : value base [] = 0 := rfl

/-- One more digit at the end. -/
theorem value_concat (base : Nat) (s : Text) (c : Char) :
    value base (s ++ [c]) = value base s * base + digitValue c := by
  simp [value]

/-- The value of a written digit. -/
theorem digitValue_digitChar {d : Nat} (h : d < 16) : digitValue (Nat.digitChar d) = d := by
  revert d
  decide

/-- Written digits below sixteen are digits of base sixteen. -/
theorem isHexDigit_digitChar {d : Nat} (h : d < 16) : isHexDigit (Nat.digitChar d) = true := by
  revert d
  decide

/-- The digits of a number have it as their value, in any base up to sixteen. -/
theorem value_toDigits {base : Nat} (h : 1 < base) (h' : base ≤ 16) (n : Nat) :
    value base (Nat.toDigits base n) = n := by
  induction n using Nat.strongRecOn with
  | ind n ih =>
    rw [Nat.toDigits_eq_if h]
    split
    · simp [value, digitValue_digitChar (show n < 16 by omega)]
    · next hn =>
      have hmod : n % base < 16 := by
        have := Nat.mod_lt n (show base > 0 by omega)
        omega
      rw [value_concat, ih _ (Nat.div_lt_self (by omega) h), digitValue_digitChar hmod,
        Nat.div_add_mod']

/-- The digits of a number in base sixteen are digits of base sixteen. -/
theorem all_isHexDigit_hex (n : Nat) : (hex n).all isHexDigit = true := by
  induction n using Nat.strongRecOn with
  | ind n ih =>
    unfold hex at ih ⊢
    rw [Nat.toDigits_eq_if (by decide)]
    split
    · simp [isHexDigit_digitChar (show n < 16 by omega)]
    · rw [List.all_append, ih _ (by omega)]
      simp [isHexDigit_digitChar (show n % 16 < 16 by omega)]

/-- A numeral in base ten reads back. -/
theorem read?_decimal (n : Nat) : read? (decimal n) = some n := by
  have hdigit : ∀ c ∈ decimal n, c.isDigit = true := fun c hc =>
    Nat.isDigit_of_mem_toDigits (by decide) (by decide) hc
  have hv : value 10 (decimal n) = n := value_toDigits (by decide) (by decide) n
  obtain ⟨c, s, hs⟩ := List.exists_cons_of_ne_nil (Nat.toDigits_ne_nil (n := n) (b := 10))
  rw [show decimal n = c :: s from hs] at hdigit hv ⊢
  have hc : c ≠ hexSign := by
    rintro rfl
    exact absurd (hdigit _ List.mem_cons_self) (by decide)
  have hall : (c :: s).all Char.isDigit = true := List.all_eq_true.2 hdigit
  simp [read?, hc, hv, hall]

/-- A numeral in base sixteen reads back. -/
theorem read?_hex (n : Nat) : read? (hexSign :: hex n) = some n := by
  have hv : value 16 (hex n) = n := value_toDigits (by decide) (by decide) n
  have hne : hex n ≠ [] := Nat.toDigits_ne_nil
  simp [read?, hv, hne, all_isHexDigit_hex]

end SapOne.Numeral

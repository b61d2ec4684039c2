import SapOne.Error

set_option relaxedAutoImplicit false
set_option autoImplicit false

/-!
# Numbers of a source program

Numbers and addresses in a source program are words of 64 bits. A numeral that denotes a larger
number is refused, and so is a sum of addresses that leaves the range. How addresses are added is a
parameter of both passes, because the range has nothing to do with what they do otherwise.

## Main definitions

* `SapOne.Number.limit` — the least number that is not a word.
* `SapOne.Number.add?` — a sum, if it is a word.
* `SapOne.Number.toByte?` — a number as a byte, if it is one.
* `SapOne.Number.parse` — reads a numeral that denotes a word.
* `SapOne.Arithmetic` — a way to add addresses; `SapOne.Arithmetic.words` is the one that the
  assembler has, and `SapOne.Arithmetic.unbounded` the one without limit.
-/

namespace SapOne

namespace Number

/-- The least number that needs more than 64 bits. -/
def limit : Nat := 18446744073709551616

/-- The sum of two numbers, if it is below the limit. -/
def add? (a b : Nat) : Option Nat :=
  if a + b < limit then some (a + b) else none

/-- A number as a byte, if it has eight bits. -/
def toByte? (n : Nat) : Option UInt8 :=
  if n < 256 then some (UInt8.ofNat n) else none

/-- A number is taken for the byte that has this number, and for no other. -/
theorem toByte?_eq_some_iff {n : Nat} {b : UInt8} : toByte? n = some b ↔ n = b.toNat := by
  unfold toByte?
  constructor
  · intro h
    split at h
    · next hlt =>
      cases h
      exact (UInt8.toNat_ofNat_of_lt' hlt).symm
    · cases h
  · rintro rfl
    rw [if_pos b.toNat_lt, UInt8.ofNat_toNat]

/-- Reads a numeral, with blanks allowed around it. Only an entirely blank text is a missing
argument; whatever else is not a numeral, or denotes too large a number, is quoted without the
blanks around it. -/
def parse (s : Text) : Except Error Nat :=
  let t := Text.trim s
  if t.isEmpty then .error .missingArgument
  else
    match Numeral.read? t with
    | some n => if n < limit then .ok n else .error (.notANumber t)
    | none => .error (.notANumber t)

end Number

/-- A way to add addresses. It may refuse a sum, but only one that is not a word, and what it gives
is the sum. -/
structure Arithmetic where
  /-- The sum of two addresses. -/
  add? : Nat → Nat → Option Nat
  /-- What it gives is the sum. -/
  eq_add : ∀ {a b c : Nat}, add? a b = some c → c = a + b
  /-- It refuses no word. -/
  add?_of_lt : ∀ {a b : Nat}, a + b < Number.limit → add? a b = some (a + b)

namespace Arithmetic

/-- The sum of words, if it is a word. -/
def words : Arithmetic where
  add? := Number.add?
  eq_add := by
    intro a b c h
    unfold Number.add? at h
    split at h
    · cases h
      rfl
    · cases h
  add?_of_lt h := if_pos h

/-- The sum of numbers, which is never refused. -/
def unbounded : Arithmetic where
  add? a b := some (a + b)
  eq_add h := (Option.some.inj h).symm
  add?_of_lt _ := rfl

/-- The assembler refuses a sum of addresses exactly if it is not a word. -/
@[simp]
theorem add?_words (a b : Nat) :
    words.add? a b = if a + b < Number.limit then some (a + b) else none := rfl

end Arithmetic

end SapOne

import SapOne.Source.Number
import SapOne.Text.Split

set_option relaxedAutoImplicit false
set_option autoImplicit false

/-!
# Operands

An operand is a number or the name of a label. A list of operands is separated by commas; how
many items it has depends only on the commas, so that the size of a list is known before any
label is.

## Main definitions

* `SapOne.Operand` — a number or a name, read by `SapOne.Operand.parse`.
* `SapOne.Operand.items` — the items of a list, as texts.
-/

namespace SapOne

/-- A number or the name of a label. -/
inductive Operand where
  /-- A number, written out. -/
  | literal (value : Nat)
  /-- The address of a label. -/
  | symbol (name : Text)
deriving DecidableEq

namespace Operand

/-- Reads an operand, with blanks allowed around it. What begins with a digit or the sign of
base sixteen has to be a numeral; anything else has to be a run of ASCII letters and digits,
and is a name. -/
def parse (s : Text) : Except Error Operand :=
  match Text.trim s with
  | [] => .error .missingArgument
  | c :: t =>
    if c.isDigit || c = Numeral.hexSign then (Number.parse (c :: t)).map literal
    else if (c :: t).all Char.isAlphanum then .ok (symbol (c :: t))
    else .error (.malformed (c :: t))

/-- The items of a list separated by commas, without the blanks around them. An entirely blank
text is a missing argument, and a list with a blank item is malformed as a whole. -/
def items (s : Text) : Except Error (List Text) :=
  if (Text.trim s).isEmpty then .error .missingArgument
  else
    let pieces := (Text.split ',' s).map Text.trim
    if pieces.any List.isEmpty then .error (.malformed (Text.trim s)) else .ok pieces

end Operand

end SapOne

import SapOne.Assembly.Basic

set_option relaxedAutoImplicit false
set_option autoImplicit false

/-!
# Listings

A listing shows every memory cell with its byte, the instruction it holds and the line that
wrote it, and then the labels. A byte is shown as an instruction only if an instruction wrote
it: data that happens to be a valid instruction stays data.

## Main definitions

* `SapOne.Listing.Cell` — what a listing says about one memory cell.
* `SapOne.Assembly.cell` — the cell at an address.
* `SapOne.Assembly.listing` — the lines of the listing.
-/

namespace SapOne

namespace Listing

/-- What a listing says about one memory cell. -/
@[ext]
structure Cell where
  /-- The address. -/
  address : Nat
  /-- The byte. -/
  byte : UInt8
  /-- The instruction, if one wrote the cell. -/
  decoded : Option Instruction
  /-- The line that wrote the cell, counted from zero, and its text. -/
  origin : Option (Nat × Text)
deriving DecidableEq

/-- The horizontal rule of a listing. -/
def rule : String :=
  String.ofList (List.replicate 19 '-' ++ '+' :: List.replicate 53 '-')

/-- A line number in four columns, counted from one. -/
def lineNumber (line : Nat) : String :=
  String.ofList ((Numeral.decimal (line + 1)).leftpad 4 ' ')

/-- Where a cell comes from: the number of the line, and its text without the blanks at its
end. -/
def originText : Option (Nat × Text) → String
  | none => ""
  | some (line, text) => lineNumber line ++ ": " ++ String.ofList (Text.trimEnd text)

/-- The row of a listing for one memory cell. -/
def Cell.row (c : Cell) : List Span :=
  [.plain "[", .colored .green (String.ofList (Numeral.upperHex c.address)), .plain "] ",
    .colored .yellow (String.ofList ((Numeral.upperHex c.byte.toNat).leftpad 2 '0')),
    .plain " "] ++
  (match c.decoded with
    | some i => i.spans
    | none => [.plain "       "]) ++
  [.plain ("     | " ++ originText c.origin)]

/-- The row of a listing for one label. -/
def symbolRow (s : Symbol) : List Span :=
  [.colored .green (String.ofList ((s.name ++ [':']).rightpad 14 ' ')),
    .plain ("0x" ++ String.ofList (Numeral.upperHex s.address) ++ " | " ++ lineNumber s.line)]

end Listing

namespace Assembly

open Listing

/-- Whether there is an instruction on a line. -/
def hasInstruction (a : Assembly) (line : Nat) : Bool :=
  a.statements.any fun s => s.line = line && s.statement.isInstruction

/-- What the listing says about the memory cell at an address. -/
def cell (source : List Text) (a : Assembly) (address : Nat) : Cell where
  address := address
  byte := a.image.byteAt address
  decoded := (a.image.lineAt address).bind fun line =>
    if a.hasInstruction line then Instruction.ofByte? (a.image.byteAt address) else none
  origin := (a.image.lineAt address).map fun line => (line, source[line]?.getD [])

/-- The lines of the listing: the memory cells between two rules and, if there are labels, the
labels and a third rule. -/
def listing (source : List Text) (a : Assembly) : List String :=
  let cells := (List.range memorySize).map fun address => Span.render (a.cell source address).row
  let symbols := a.symbols.toList.map fun s => Span.render (symbolRow s)
  rule :: cells ++ [rule] ++ (if symbols.isEmpty then [] else symbols ++ [rule])

end Assembly

end SapOne

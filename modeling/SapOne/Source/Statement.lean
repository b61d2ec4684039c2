import SapOne.Machine.Opcode
import SapOne.Source.Operand

set_option relaxedAutoImplicit false
set_option autoImplicit false

/-!
# Statements

A line of a source program has at most one statement: a directive to the assembler, or an
instruction for the machine. The operand of a statement is kept as text, because labels are not
known yet when it is read. Every statement moves the location counter in a way that its text
alone decides.

## Main definitions

* `SapOne.Directive`, `SapOne.Statement` — what a line asks for.
* `SapOne.Step` — how a statement moves the location counter.
* `SapOne.Statement.step`, `SapOne.Step.apply` — finding and making the move.
* `SapOne.Statement.advance` — both together.
-/

namespace SapOne

/-- The directives to the assembler. -/
inductive Directive where
  /-- Go on at a given address. -/
  | org
  /-- Name a section; without effect. -/
  | segment
  /-- Put a list of bytes into memory. -/
  | byte
deriving DecidableEq

namespace Directive

/-- All directives. -/
def all : List Directive := [org, segment, byte]

/-- The keyword of a directive, in small letters. -/
def keyword : Directive → Text
  | org => "org".toList
  | segment => "segment".toList
  | byte => "byte".toList

/-- The directive with a given keyword; the case of ASCII letters does not matter. -/
def ofKeyword? (s : Text) : Option Directive :=
  all.find? fun d => d.keyword = s.map Char.toLower

/-- Reads the keyword of a directive. -/
def parse (s : Text) : Except Error Directive :=
  match ofKeyword? s with
  | some d => .ok d
  | none => .error (.unknownDirective s)

/-- A text reads as a directive exactly if it spells its keyword up to the case of letters. -/
theorem ofKeyword?_eq_some_iff {s : Text} {d : Directive} :
    ofKeyword? s = some d ↔ s.map Char.toLower = d.keyword := by
  constructor
  · intro h
    have : d.keyword = s.map Char.toLower := by simpa using List.find?_some h
    exact this.symm
  · intro h
    unfold ofKeyword?
    rw [h]
    cases d <;> rfl

end Directive

/-- What a line asks for. -/
inductive Statement where
  /-- A directive, with all that follows its keyword. -/
  | directive (kind : Directive) (operand : Text)
  /-- An instruction; the operand is empty if there is none. -/
  | instruction (opcode : Opcode) (operand : Text)
deriving DecidableEq

/-- Whether a statement is an instruction. -/
def Statement.isInstruction : Statement → Bool
  | directive _ _ => false
  | instruction _ _ => true

/-- How a statement moves the location counter. -/
inductive Step where
  /-- Not at all. -/
  | stay
  /-- Past a number of cells. -/
  | advance (cells : Nat)
  /-- To an address. -/
  | jump (address : Nat)
deriving DecidableEq

/-- Where the location counter stands after a step. It cannot leave the range of addresses, and
the error names the address it would have started from. -/
def Step.apply (counter : Nat) (step : Step) (k : Arithmetic := .words) : Except Error Nat :=
  match step with
  | stay => .ok counter
  | advance n =>
    match k.add? counter n with
    | some a => .ok a
    | none => .error (.addressOutOfRange counter)
  | jump a => .ok a

namespace Statement

/-- The step of a statement: an instruction takes one cell, a list of bytes one cell for each
item whatever the items denote. -/
def step : Statement → Except Error Step
  | directive .segment _ => .ok .stay
  | directive .org operand => (Number.parse operand).map .jump
  | directive .byte operand => (Operand.items operand).map fun items => .advance items.length
  | instruction _ _ => .ok (.advance 1)

/-- Where the location counter stands after a statement. -/
def advance (counter : Nat) (s : Statement) (k : Arithmetic := .words) : Except Error Nat :=
  s.step >>= fun step => step.apply counter k

end Statement

end SapOne

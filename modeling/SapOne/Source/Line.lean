import SapOne.Source.Statement

set_option relaxedAutoImplicit false
set_option autoImplicit false

/-!
# Lines

A line of a source program has an optional label, an optional statement and an optional comment.
The three recognizers below each describe one shape of text; no text has two of these shapes.

## Main definitions

* `SapOne.Line` — a line that is not blank.
* `SapOne.Line.clean` — the line without its comment.
* `SapOne.Line.label?`, `SapOne.Line.directive?`, `SapOne.Line.instruction?` — the recognizers.
* `SapOne.Line.parse` — reads a line.
-/

namespace SapOne

/-- A line of a source program that is not blank. -/
@[ext]
structure Line where
  /-- The label that the line defines. -/
  label : Option Text
  /-- What the line asks for. -/
  statement : Option Statement
deriving DecidableEq

namespace Line

/-- The sign that begins a comment. -/
def commentSign : Char := ';'

/-- The line without its comment and without blanks at its ends. -/
def clean (raw : Text) : Text :=
  Text.trim (raw.takeWhile (· ≠ commentSign))

/-- A label: a run of ASCII letters and a colon. Gives the name and what follows the colon,
without blanks at its ends. -/
def label? (s : Text) : Option (Text × Text) :=
  match s.takeWhile Char.isAlpha, s.dropWhile Char.isAlpha with
  | [], _ => none
  | name, ':' :: rest => some (name, Text.trim rest)
  | _, _ => none

/-- A directive: a dot, a run of ASCII letters and whatever follows on the same line. Gives the
keyword and what follows it, without blanks at its ends. -/
def directive? : Text → Option (Text × Text)
  | '.' :: s =>
    let keyword := s.takeWhile Char.isAlpha
    let rest := s.dropWhile Char.isAlpha
    if keyword.isEmpty || rest.contains '\n' then none else some (keyword, Text.trim rest)
  | _ => none

/-- The operand of an instruction: a run of ASCII letters and digits, with or without the sign
of base sixteen in front. -/
def isToken : Text → Bool
  | [] => false
  | c :: s =>
    if c = Numeral.hexSign then !s.isEmpty && s.all Char.isAlphanum
    else (c :: s).all Char.isAlphanum

/-- An instruction: a run of ASCII letters, alone or with blanks and one operand after it. Gives
the mnemonic and the operand, which is empty if there is none. -/
def instruction? (s : Text) : Option (Text × Text) :=
  match s.takeWhile Char.isAlpha, s.dropWhile Char.isAlpha with
  | [], _ => none
  | mnemonic, [] => some (mnemonic, [])
  | mnemonic, c :: rest =>
    let operand := Text.trimStart rest
    if Text.isBlank c && isToken operand then some (mnemonic, operand) else none

/-- Reads the part of a line behind the label, which is not blank. -/
def parseStatement (code : Text) : Except Error Statement :=
  match directive? code with
  | some (keyword, operand) => (Directive.parse keyword).map fun d => .directive d operand
  | none =>
    match instruction? code with
    | some (mnemonic, operand) =>
      match Opcode.ofMnemonic? mnemonic with
      | some op => .ok (.instruction op operand)
      | none => .error (.unknownOperation mnemonic)
    | none => .error (.malformed code)

/-- Reads the part of a line behind the label, which may be blank. -/
def parseRest (code : Text) : Except Error (Option Statement) :=
  if code.isEmpty then .ok none else (parseStatement code).map some

/-- Reads a line. A line with nothing but blanks and a comment has no content. -/
def parse (raw : Text) : Except Error (Option Line) :=
  let code := clean raw
  if code.isEmpty then .ok none
  else
    match label? code with
    | some (name, rest) => (parseRest rest).map fun s => some ⟨some name, s⟩
    | none => (parseRest code).map fun s => some ⟨none, s⟩

end Line

end SapOne

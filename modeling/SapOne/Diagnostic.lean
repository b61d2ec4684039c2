import SapOne.Error
import SapOne.Text.Style

set_option relaxedAutoImplicit false
set_option autoImplicit false

/-!
# Diagnostics

An error together with the line of the source that caused it, and its printed form, which
quotes the line.

## Main definitions

* `SapOne.Diagnostic` — an error at a line.
* `SapOne.atLine` — blames a line for the error of a computation.
* `SapOne.Diagnostic.report`, `SapOne.Diagnostic.printed` — the report shown to the user.
-/

namespace SapOne

/-- An error and the line that caused it, counted from zero. -/
@[ext]
structure Diagnostic where
  /-- The line, counted from zero. -/
  line : Nat
  /-- What is wrong there. -/
  error : Error
deriving DecidableEq

/-- Blames a line for the error of a computation, if there is one. -/
def atLine {α : Type} (line : Nat) (r : Except Error α) : Except Diagnostic α :=
  r.mapError (Diagnostic.mk line)

/-- A success has no line to be blamed. -/
@[simp]
theorem atLine_ok {α : Type} (line : Nat) (a : α) : atLine line (.ok a) = .ok a := rfl

/-- An error is blamed on its line. -/
@[simp]
theorem atLine_error {α : Type} (line : Nat) (e : Error) :
    atLine line (.error e : Except Error α) = .error ⟨line, e⟩ := rfl

/-- The word that opens every printed error. -/
def errorTag : Span :=
  ⟨{ color := some .red, bold := true }, "error"⟩

namespace Diagnostic

/-- The diagnostic in one line of text. -/
def message (d : Diagnostic) : String :=
  "line " ++ toString (d.line + 1) ++ ": " ++ d.error.message

/-- The report shown to the user, line by line: the error, the place, and the line of the
source between two rails. A line that the source does not have is shown empty. -/
def report (file : Text) (source : List Text) (d : Diagnostic) : List (List Span) :=
  let number := toString (d.line + 1)
  let rail := [.plain "      ", .colored .blue "|"]
  [[errorTag, .plain (": " ++ d.error.message)],
    [.plain "     ", .colored .blue "-->", .plain " ",
      ⟨{ underline := true }, String.ofList file ++ ":" ++ number⟩],
    rail,
    [.plain " ",
      .colored .blue (String.ofList ((Numeral.decimal (d.line + 1)).leftpad 4 ' ') ++ " |"),
      .plain (" " ++ String.ofList (source[d.line]?.getD []))],
    rail]

/-- The report as it is printed. -/
def printed (file : Text) (source : List Text) (d : Diagnostic) : String :=
  printLines (d.report file source)

end Diagnostic

end SapOne

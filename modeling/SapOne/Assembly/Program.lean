import SapOne.Assembly.Symbols
import SapOne.Diagnostic
import SapOne.Source.Line

set_option relaxedAutoImplicit false
set_option autoImplicit false

/-!
# Programs

The first pass over a source program reads every line, binds every label to the location counter
at its line, and collects the statements. Labels stand for the address before the statement of
their own line. How the location counter is added to is a parameter, which is the arithmetic of
words where nothing else is said.

## Main definitions

* `SapOne.Numbered` — a statement and the line it stands on.
* `SapOne.Program` — the labels and statements of a source program.
* `SapOne.Layout` — a program read so far, with the location counter behind it.
* `SapOne.Program.ofSource` — the first pass.
-/

namespace SapOne

/-- A statement and the line it stands on. -/
@[ext]
structure Numbered where
  /-- The line, counted from zero. -/
  line : Nat
  /-- The statement. -/
  statement : Statement
deriving DecidableEq

/-- The labels and statements of a source program, in the order of its lines. -/
@[ext]
structure Program where
  /-- The labels. -/
  symbols : Symbols := {}
  /-- The statements. -/
  statements : List Numbered := []
deriving DecidableEq

/-- A program read so far, and the address where its next statement goes. -/
@[ext]
structure Layout extends Program where
  /-- The location counter. -/
  counter : Nat := 0
deriving DecidableEq

namespace Layout

/-- The layout before the first line. -/
def start : Layout := {}

/-- Binds the label of a line, if it has one, to the location counter. -/
def addLabel (l : Layout) (line : Nat) : Option Text → Except Error Layout
  | none => .ok l
  | some name => do
    let symbols ← l.symbols.define name line l.counter
    .ok { l with symbols }

/-- Appends the statement of a line, if it has one, and moves the location counter past it. -/
def addStatement (l : Layout) (line : Nat) (statement? : Option Statement)
    (k : Arithmetic := .words) : Except Error Layout :=
  match statement? with
  | none => .ok l
  | some statement => do
    let counter ← statement.advance l.counter k
    .ok { l with statements := l.statements ++ [⟨line, statement⟩], counter }

/-- Reads one more line: its text, then its label, then its statement. -/
def addLine (l : Layout) (line : Nat) (raw : Text) (k : Arithmetic := .words) :
    Except Error Layout := do
  match ← Line.parse raw with
  | none => .ok l
  | some content =>
    let l ← l.addLabel line content.label
    l.addStatement line content.statement k

/-- Reads the lines of a source that begin at the line `first`. -/
def addLines (l : Layout) (source : List Text) (first : Nat) (k : Arithmetic := .words) :
    Except Diagnostic Layout :=
  (source.zipIdx first).foldlM (fun l (raw, line) => atLine line (l.addLine line raw k)) l

/-- Without lines there is nothing to read. -/
@[simp]
theorem addLines_nil (l : Layout) (first : Nat) (k : Arithmetic) :
    l.addLines [] first k = .ok l := rfl

/-- The first line is read, and then the others. -/
theorem addLines_cons (l : Layout) (raw : Text) (source : List Text) (first : Nat)
    (k : Arithmetic) :
    l.addLines (raw :: source) first k =
      (atLine first (l.addLine first raw k) >>= fun l => l.addLines source (first + 1) k) := rfl

/-- Two sources one behind the other are read one after the other. -/
theorem addLines_append (l : Layout) (a b : List Text) (first : Nat) (k : Arithmetic) :
    l.addLines (a ++ b) first k =
      (l.addLines a first k >>= fun l => l.addLines b (first + a.length) k) := by
  simp [addLines, List.zipIdx_append, List.foldlM_append]

end Layout

/-- Reads a source program: the first pass. -/
def Program.ofSource (source : List Text) (k : Arithmetic := .words) : Except Diagnostic Program :=
  (Layout.start.addLines source 0 k).map Layout.toProgram

end SapOne

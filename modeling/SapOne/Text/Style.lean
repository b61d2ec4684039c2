set_option relaxedAutoImplicit false
set_option autoImplicit false

/-!
# Styled text

Messages and listings are coloured with terminal control sequences. A styled text is a list of
spans, each with one style; writing it out emits a control sequence only where the style
changes, and leaves the terminal plain at the end.

## Main definitions

* `SapOne.Style`, `SapOne.Span` — how a stretch of text looks.
* `SapOne.Style.switch` — the control sequences that lead from one style to another.
* `SapOne.Span.render`, `SapOne.printLines` — the characters sent to the terminal.
-/

namespace SapOne

/-- The colours in use. -/
inductive Color where
  | red
  | green
  | yellow
  | blue
deriving DecidableEq

/-- The number that selects a colour, as the terminal knows it. -/
def Color.code : Color → Nat
  | red => 31
  | green => 32
  | yellow => 33
  | blue => 34

/-- The looks of a stretch of text. -/
structure Style where
  /-- The colour, or the terminal's own one. -/
  color : Option Color := none
  /-- Set in bold. -/
  bold : Bool := false
  /-- Underlined. -/
  underline : Bool := false
deriving DecidableEq

namespace Style

/-- The style in which the terminal starts and in which it is left. -/
def plain : Style := {}

/-- A style that only sets the colour. -/
def ofColor (c : Color) : Style := { color := some c }

/-- The control sequence with a given number. -/
def control (n : Nat) : String :=
  "\x1b[" ++ toString n ++ "m"

/-- The control sequences that lead from the style `a` to the style `b`: the colour first,
then bold, then the underline, and nothing for what stays the same. -/
def switch (a b : Style) : String :=
  (if a.color = b.color then "" else control (b.color.elim 39 Color.code)) ++
  (if a.bold = b.bold then "" else control (if b.bold then 1 else 22)) ++
  (if a.underline = b.underline then "" else control (if b.underline then 4 else 24))

end Style

/-- A stretch of text in one style. -/
structure Span where
  /-- How it looks. -/
  style : Style
  /-- What it says. -/
  text : String
deriving DecidableEq

namespace Span

/-- A span in the terminal's own style. -/
def plain (text : String) : Span := ⟨Style.plain, text⟩

/-- A span in a colour. -/
def colored (c : Color) (text : String) : Span := ⟨Style.ofColor c, text⟩

/-- Writes spans to a terminal that is in style `now`, and leaves it plain. -/
def renderFrom (now : Style) : List Span → String
  | [] => now.switch Style.plain
  | s :: spans => now.switch s.style ++ s.text ++ renderFrom s.style spans

/-- The characters that show the spans on a plain terminal. -/
def render (spans : List Span) : String :=
  renderFrom Style.plain spans

end Span

/-- Lines of styled text as they are printed, each with a line feed at its end. -/
def printLines (lines : List (List Span)) : String :=
  String.join (lines.map fun spans => Span.render spans ++ "\n")

end SapOne

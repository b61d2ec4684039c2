import SapOne.Assembly.Encoding

set_option relaxedAutoImplicit false
set_option autoImplicit false

/-!
# Assembling

The two passes together: from the lines of a source program to its memory image.

## Main definitions

* `SapOne.Assembly` — all that a run of the assembler produces.
* `SapOne.Assembly.ofSource` — runs both passes.
* `SapOne.assemble` — the memory image alone.
-/

namespace SapOne

/-- All that a run of the assembler produces: the program and its memory image. -/
@[ext]
structure Assembly extends Program where
  /-- The memory image. -/
  image : Image := Image.empty
deriving DecidableEq

/-- Assembles the lines of a source program. The second pass runs only if the first one has
read every line. -/
def Assembly.ofSource (source : List Text) (k : Arithmetic := .words) :
    Except Diagnostic Assembly := do
  let program ← Program.ofSource source k
  let image ← program.encode k
  .ok { program with image }

/-- The memory image of a source program. -/
def assemble (source : List Text) (k : Arithmetic := .words) : Except Diagnostic Image :=
  (Assembly.ofSource source k).map Assembly.image

end SapOne

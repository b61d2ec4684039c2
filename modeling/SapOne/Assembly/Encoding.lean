import SapOne.Assembly.Program
import SapOne.Machine.Image
import SapOne.Machine.Instruction

set_option relaxedAutoImplicit false
set_option autoImplicit false

/-!
# Encoding

The second pass over a source program walks its statements with the same location counter as the
first one, looks up the labels, and writes the memory image.

## Main definitions

* `SapOne.Symbols.instructionByte`, `SapOne.Symbols.itemByte` — the byte that an instruction or
  an item of a list stands for.
* `SapOne.Encoder` — the image written so far, with the location counter.
* `SapOne.Program.encode` — the second pass.
-/

namespace SapOne

namespace Symbols

/-- The value that an operand text denotes. -/
def evaluate (t : Symbols) (text : Text) : Except Error Nat :=
  Operand.parse text >>= Operand.resolve t

/-- The byte that an item of a list stands for. -/
def itemByte (t : Symbols) (item : Text) : Except Error UInt8 := do
  let value ← t.evaluate item
  match Number.toByte? value with
  | some byte => .ok byte
  | none => .error (.byteOutOfRange item value)

/-- The byte that an instruction stands for. The value of the operand has to be a byte, and that
byte an operand. An operation without operand does not look at the operand text at all. -/
def instructionByte (t : Symbols) (op : Opcode) (operand : Text) : Except Error UInt8 :=
  if op.takesOperand then do
    let value ← t.evaluate operand
    match (Number.toByte? value).bind (Instruction.make? op) with
    | some i => .ok i.toByte
    | none => .error (.operandOutOfRange operand value)
  else .ok (op.code <<< 4)

end Symbols

/-- The image written so far, and the address where the next statement goes. -/
@[ext]
structure Encoder where
  /-- The location counter. -/
  counter : Nat := 0
  /-- The image. -/
  image : Image := Image.empty
deriving DecidableEq

namespace Encoder

/-- The encoder before the first statement. -/
def start : Encoder := {}

/-- Writes one item of a list, `offset` cells behind the location counter. -/
def writeItem (t : Symbols) (counter line : Nat) (image : Image) (item : Text) (offset : Nat)
    (k : Arithmetic := .words) : Except Error Image := do
  let byte ← t.itemByte item
  match k.add? counter offset with
  | some address => image.write address byte line
  | none => .error (.addressOutOfRange counter)

/-- Writes the items of a list, one cell each, from the location counter on. -/
def writeItems (t : Symbols) (counter line : Nat) (image : Image) (items : List Text)
    (k : Arithmetic := .words) : Except Error Image :=
  items.zipIdx.foldlM (fun image (item, offset) => writeItem t counter line image item offset k)
    image

/-- The image after a statement. -/
def write (t : Symbols) (e : Encoder) (line : Nat) (s : Statement) (k : Arithmetic := .words) :
    Except Error Image :=
  match s with
  | .directive .org _ => .ok e.image
  | .directive .segment _ => .ok e.image
  | .directive .byte operand => do
    let items ← Operand.items operand
    writeItems t e.counter line e.image items k
  | .instruction op operand => do
    let byte ← t.instructionByte op operand
    e.image.write e.counter byte line

/-- Encodes one more statement: first its bytes, then the move of the location counter. -/
def add (t : Symbols) (e : Encoder) (s : Numbered) (k : Arithmetic := .words) :
    Except Error Encoder := do
  let image ← e.write t s.line s.statement k
  let counter ← s.statement.advance e.counter k
  .ok ⟨counter, image⟩

/-- Encodes statements one after the other. -/
def addAll (t : Symbols) (e : Encoder) (statements : List Numbered) (k : Arithmetic := .words) :
    Except Diagnostic Encoder :=
  statements.foldlM (fun e s => atLine s.line (e.add t s k)) e

/-- Without statements there is nothing to encode. -/
@[simp]
theorem addAll_nil (t : Symbols) (e : Encoder) (k : Arithmetic) : e.addAll t [] k = .ok e := rfl

/-- The first statement is encoded, and then the others. -/
theorem addAll_cons (t : Symbols) (e : Encoder) (s : Numbered) (rest : List Numbered)
    (k : Arithmetic) :
    e.addAll t (s :: rest) k =
      (atLine s.line (e.add t s k) >>= fun e => e.addAll t rest k) := rfl

/-- Two lists of statements are encoded one after the other. -/
theorem addAll_append (t : Symbols) (e : Encoder) (a b : List Numbered) (k : Arithmetic) :
    e.addAll t (a ++ b) k = (e.addAll t a k >>= fun e => e.addAll t b k) := by
  simp [addAll, List.foldlM_append]

end Encoder

/-- Writes the memory image of a program: the second pass. -/
def Program.encode (p : Program) (k : Arithmetic := .words) : Except Diagnostic Image :=
  (Encoder.start.addAll p.symbols p.statements k).map Encoder.image

end SapOne

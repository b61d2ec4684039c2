import SapOne.Text.Numeral

set_option relaxedAutoImplicit false
set_option autoImplicit false

/-!
# Operation codes

The machine has eleven operations. Each has a four-bit code, a mnemonic, and either takes an
operand or none.

## Main definitions

* `SapOne.Opcode` — the operations.
* `SapOne.Opcode.ofMnemonic?`, `SapOne.Opcode.ofCode?` — an operation from its name or code.
* `SapOne.Opcode.ReadError` — why there is no such operation.

## Main results

* `SapOne.Opcode.ofCode?_code`, `SapOne.Opcode.ofCode?_eq_some_iff` — codes determine operations.
* `SapOne.Opcode.ofMnemonic?_eq_some_iff` — names do so up to the case of letters.
-/

namespace SapOne

/-- The operations of the machine. -/
inductive Opcode where
  /-- Do nothing. -/
  | nop
  /-- Load the accumulator from memory. -/
  | lda
  /-- Add a memory cell to the accumulator. -/
  | add
  /-- Subtract a memory cell from the accumulator. -/
  | sub
  /-- Store the accumulator. -/
  | sta
  /-- Load the accumulator with the operand itself. -/
  | ldi
  /-- Jump. -/
  | jmp
  /-- Jump if the carry flag is set. -/
  | jc
  /-- Jump if the zero flag is set. -/
  | jz
  /-- Show the accumulator on the display. -/
  | out
  /-- Halt. -/
  | hlt
deriving DecidableEq

namespace Opcode

/-- All operations, in the order of their codes. -/
def all : List Opcode :=
  [nop, lda, add, sub, sta, ldi, jmp, jc, jz, out, hlt]

/-- The code of an operation, in the low four bits. -/
def code : Opcode → UInt8
  | nop => 0x0
  | lda => 0x1
  | add => 0x2
  | sub => 0x3
  | sta => 0x4
  | ldi => 0x5
  | jmp => 0x6
  | jc => 0x7
  | jz => 0x8
  | out => 0xE
  | hlt => 0xF

/-- The name of an operation, in small letters. -/
def mnemonic : Opcode → Text
  | nop => "nop".toList
  | lda => "lda".toList
  | add => "add".toList
  | sub => "sub".toList
  | sta => "sta".toList
  | ldi => "ldi".toList
  | jmp => "jmp".toList
  | jc => "jc".toList
  | jz => "jz".toList
  | out => "out".toList
  | hlt => "hlt".toList

/-- Whether the low four bits of the instruction carry an operand. -/
def takesOperand : Opcode → Bool
  | nop | out | hlt => false
  | _ => true

/-- The operation with a given name; the case of ASCII letters does not matter. -/
def ofMnemonic? (s : Text) : Option Opcode :=
  all.find? fun op => op.mnemonic = s.map Char.toLower

/-- The operation with a given code, if the code is assigned. -/
def ofCode? (n : UInt8) : Option Opcode :=
  all.find? fun op => op.code = n

/-- Codes have four bits. -/
theorem toNat_code_lt (op : Opcode) : op.code.toNat < 16 := by
  cases op <;> decide

/-- The code of an operation reads as that operation. -/
@[simp]
theorem ofCode?_code (op : Opcode) : ofCode? op.code = some op := by
  cases op <;> rfl

/-- A code reads as the operation that has it, and as no other. -/
theorem ofCode?_eq_some_iff {n : UInt8} {op : Opcode} : ofCode? n = some op ↔ n = op.code := by
  constructor
  · intro h
    have : op.code = n := by simpa using List.find?_some h
    exact this.symm
  · rintro rfl
    exact ofCode?_code op

/-- No two operations share a name. -/
theorem mnemonic_injective {a b : Opcode} (h : a.mnemonic = b.mnemonic) : a = b := by
  revert h
  cases a <;> cases b <;> decide

/-- A text reads as an operation exactly if it spells its name up to the case of letters. -/
theorem ofMnemonic?_eq_some_iff {s : Text} {op : Opcode} :
    ofMnemonic? s = some op ↔ s.map Char.toLower = op.mnemonic := by
  constructor
  · intro h
    have : op.mnemonic = s.map Char.toLower := by simpa using List.find?_some h
    exact this.symm
  · intro h
    unfold ofMnemonic?
    rw [h]
    cases op <;> rfl

/-- Why a text or a number does not denote an operation. -/
inductive ReadError where
  /-- No operation has this name. -/
  | unknownName (text : Text)
  /-- No operation has this code. -/
  | unassignedCode (code : UInt8)
deriving DecidableEq

/-- What the user is told. -/
def ReadError.message : ReadError → String
  | unknownName text => "Undefined Op: " ++ String.ofList text
  | unassignedCode code =>
    "No discriminant in enum `Opcode` matches the value `" ++ toString code ++ "`"

/-- Reads the name of an operation. -/
def ofMnemonic (s : Text) : Except ReadError Opcode :=
  match ofMnemonic? s with
  | some op => .ok op
  | none => .error (.unknownName s)

/-- Reads the code of an operation. -/
def ofCode (n : UInt8) : Except ReadError Opcode :=
  match ofCode? n with
  | some op => .ok op
  | none => .error (.unassignedCode n)

end Opcode

end SapOne

import SapOne.Machine.Opcode
import SapOne.Text.Style

set_option relaxedAutoImplicit false
set_option autoImplicit false

/-!
# Instructions

An instruction is one byte: the code of the operation in the high four bits, and the operand in
the low ones. An operation without operand leaves the low bits zero.

## Main definitions

* `SapOne.Instruction` — an operation with an operand it can have.
* `SapOne.Instruction.make?` — the instruction for an operation and a byte.
* `SapOne.Instruction.toByte`, `SapOne.Instruction.ofByte?` — assembling and disassembling.
* `SapOne.Instruction.spans` — the instruction as a listing shows it.

## Main results

* `SapOne.Instruction.toNat_toByte` — the byte as a number.
* `SapOne.Instruction.ofByte?_toByte` — disassembling undoes assembling.
-/

namespace SapOne

/-- The largest operand of an instruction, and the mask of the bits where it stands. -/
def Instruction.operandMax : UInt8 := 0x0F

/-- An instruction of the machine. -/
@[ext]
structure Instruction where
  /-- The operation. -/
  opcode : Opcode
  /-- The operand. -/
  operand : UInt8
  /-- The operand has four bits. -/
  operand_le : operand ≤ Instruction.operandMax
  /-- Without an operand the low bits are zero. -/
  operand_eq_zero : opcode.takesOperand = false → operand = 0
deriving DecidableEq

namespace Instruction

/-! ## Halves of a byte -/

/-- A byte is at most the largest operand exactly if it has four bits. -/
theorem le_operandMax_iff {b : UInt8} : b ≤ operandMax ↔ b.toNat < 16 := by
  rw [UInt8.le_iff_toNat_le]
  exact Nat.lt_succ_iff.symm

/-- The high half of a byte, as a number. -/
theorem toNat_shiftRight_four (b : UInt8) : (b >>> 4).toNat = b.toNat / 16 := by
  rw [UInt8.toNat_shiftRight, Nat.shiftRight_eq_div_pow]
  rfl

/-- The low half of a byte, as a number. -/
theorem toNat_and_operandMax (b : UInt8) : (b &&& operandMax).toNat = b.toNat % 16 := by
  rw [UInt8.toNat_and]
  exact Nat.and_two_pow_sub_one_eq_mod b.toNat 4

/-- A shift by four bits loses nothing of a byte that has four bits. -/
theorem toNat_shiftLeft_four {b : UInt8} (h : b.toNat < 16) : (b <<< 4).toNat = 16 * b.toNat := by
  -- the remainder is what the shift drops, and four bits leave nothing to drop
  have hshift : (b <<< 4).toNat = b.toNat * 16 % 256 := by
    rw [UInt8.toNat_shiftLeft, Nat.shiftLeft_eq]
    rfl
  omega

/-- Two halves put side by side are a sum, because they have no bit in common. -/
theorem toNat_shiftLeft_four_or {high low : UInt8} (hhigh : high.toNat < 16)
    (hlow : low.toNat < 16) : (high <<< 4 ||| low).toNat = 16 * high.toNat + low.toNat := by
  have hor : 16 * high.toNat ||| low.toNat = 16 * high.toNat + low.toNat :=
    (Nat.two_pow_add_eq_or_of_lt (i := 4) hlow high.toNat).symm
  rw [UInt8.toNat_or, toNat_shiftLeft_four hhigh, hor]

/-! ## Assembling and disassembling -/

/-- The instruction for an operation and a byte. There is none if the byte has more than four
bits; an operation without operand drops the byte. -/
def make? (op : Opcode) (operand : UInt8) : Option Instruction :=
  if hle : operand ≤ operandMax then
    if hop : op.takesOperand then some ⟨op, operand, hle, fun h => by simp [hop] at h⟩
    else some ⟨op, 0, by decide, fun _ => rfl⟩
  else none

/-- The memory cell that holds the instruction. -/
def toByte (i : Instruction) : UInt8 :=
  i.opcode.code <<< 4 ||| i.operand

/-- The instruction that a memory cell holds, if its high bits are an assigned code. -/
def ofByte? (b : UInt8) : Option Instruction :=
  (Opcode.ofCode? (b >>> 4)).bind fun op => make? op (b &&& operandMax)

/-- The operand as a number has four bits. -/
theorem toNat_operand_lt (i : Instruction) : i.operand.toNat < 16 :=
  le_operandMax_iff.1 i.operand_le

/-- The byte as a number: the code counts sixteenfold, and the operand is added. -/
theorem toNat_toByte (i : Instruction) :
    i.toByte.toNat = 16 * i.opcode.code.toNat + i.operand.toNat :=
  toNat_shiftLeft_four_or i.opcode.toNat_code_lt i.toNat_operand_lt

/-- The parts of an instruction make it up again. -/
theorem make?_opcode_operand (i : Instruction) : make? i.opcode i.operand = some i := by
  unfold make?
  rw [dif_pos i.operand_le]
  split
  · rfl
  · next h =>
    have := i.operand_eq_zero (by simpa using h)
    congr 1
    ext <;> simp [this]

/-- With a byte of four bits, an operation that takes an operand makes an instruction. -/
theorem make?_of_le {op : Opcode} {b : UInt8} (hop : op.takesOperand = true)
    (h : b ≤ operandMax) : make? op b = some ⟨op, b, h, fun hnot => by simp [hop] at hnot⟩ := by
  rw [make?, dif_pos h, dif_pos hop]

/-- With a byte of more than four bits, there is no instruction. -/
theorem make?_eq_none_of_not_le (op : Opcode) {b : UInt8} (h : ¬ b ≤ operandMax) :
    make? op b = none := by
  rw [make?, dif_neg h]

/-- Disassembling undoes assembling. -/
theorem ofByte?_toByte (i : Instruction) : ofByte? i.toByte = some i := by
  have hcode := i.opcode.toNat_code_lt
  have hoperand := i.toNat_operand_lt
  have hhigh : i.toByte >>> 4 = i.opcode.code := by
    rw [← UInt8.toNat_inj, toNat_shiftRight_four, toNat_toByte]
    omega
  have hlow : i.toByte &&& operandMax = i.operand := by
    rw [← UInt8.toNat_inj, toNat_and_operandMax, toNat_toByte]
    omega
  rw [ofByte?, hhigh, hlow, Opcode.ofCode?_code, Option.bind_some, make?_opcode_operand]

/-- The instruction as a listing shows it, seven columns wide: the name of the operation in
four columns, then the operand in base sixteen or three blanks. -/
def spans (i : Instruction) : List Span :=
  let name := .colored .red (String.ofList (i.opcode.mnemonic.rightpad 4 ' '))
  if i.opcode.takesOperand then
    [name, .colored .blue ("0x" ++ String.ofList (Numeral.upperHex i.operand.toNat))]
  else [name, .plain "   "]

end Instruction

end SapOne

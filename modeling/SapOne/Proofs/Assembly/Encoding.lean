import SapOne.Assembly.Encoding
import SapOne.Proofs.Assembly.Layout

set_option relaxedAutoImplicit false
set_option autoImplicit false

/-!
# What the second pass does

The functions of the second pass, each in one statement: which byte an instruction or an item
stands for, what one statement does to the image and to the location counter, and where the
location counter stands after a run.

## Main definitions

* `SapOne.Symbols.operandValue` — the value in the low four bits of an instruction.

## Main results

* `SapOne.Instruction.exists_bind_make?_of_lt`, `SapOne.Instruction.bind_make?_eq_none_of_le` — a
  value passes both narrowing steps exactly if it is below sixteen.
* `SapOne.Symbols.instructionByte_of_takesOperand` — an operand is packed if it has four bits.
* `SapOne.Symbols.exists_instruction_of_instructionByte` — what is packed can be unpacked.
* `SapOne.Encoder.add_eq_ok_iff` — one statement writes its bytes and moves by its step.
* `SapOne.Encoder.advanceAll_of_addAll` — the location counter of a run is the fold of the steps.
-/

namespace SapOne

/-! ## Bytes -/

namespace Instruction

/-- A value below sixteen passes both narrowing steps: it is a byte, and the byte is an operand. -/
lemma exists_bind_make?_of_lt {op : Opcode} (hop : op.takesOperand = true) {value : Nat}
    (h : value < 16) :
    ∃ i : Instruction, (Number.toByte? value).bind (make? op) = some i ∧
      i.opcode = op ∧ i.operand.toNat = value := by
  have hvalue : value = (UInt8.ofNat value).toNat :=
    (UInt8.toNat_ofNat_of_lt' (show value < 256 by omega)).symm
  have hle : UInt8.ofNat value ≤ operandMax := by
    rw [le_operandMax_iff, ← hvalue]
    exact h
  refine ⟨⟨op, UInt8.ofNat value, hle, fun hnot => by simp [hop] at hnot⟩, ?_, rfl, hvalue.symm⟩
  rw [Number.toByte?_eq_some_iff.2 hvalue, Option.bind_some, make?_of_le hop hle]

/-- A larger value is stopped by one of the two steps: by the first one if it is not a byte, and
else by the second one. -/
lemma bind_make?_eq_none_of_le (op : Opcode) {value : Nat} (h : 16 ≤ value) :
    (Number.toByte? value).bind (make? op) = none := by
  cases hbyte : Number.toByte? value with
  | none => rfl
  | some byte =>
    obtain rfl := Number.toByte?_eq_some_iff.1 hbyte
    apply make?_eq_none_of_not_le
    rw [le_operandMax_iff]
    exact Nat.not_lt_of_le h

end Instruction

namespace Symbols

/-- An operand that is a name has the address of that name. -/
lemma evaluate_of_symbol (t : Symbols) {text name : Text}
    (h : Operand.parse text = .ok (.symbol name)) : t.evaluate text = t.resolve name := by
  rw [evaluate, h]
  rfl

/-- An instruction with an operand packs it into the low four bits, if it fits there. -/
lemma instructionByte_of_takesOperand (t : Symbols) {op : Opcode} (hop : op.takesOperand = true)
    (operand : Text) :
    t.instructionByte op operand = (t.evaluate operand >>= fun value =>
      if value < 16 then .ok (UInt8.ofNat (16 * op.code.toNat + value))
      else .error (.operandOutOfRange operand value)) := by
  rw [instructionByte, if_pos hop]
  congr 1
  funext value
  by_cases hvalue : value < 16
  · obtain ⟨i, hi, rfl, rfl⟩ := Instruction.exists_bind_make?_of_lt hop hvalue
    rw [hi, if_pos hvalue, ← i.toNat_toByte, UInt8.ofNat_toNat]
  · rw [Instruction.bind_make?_eq_none_of_le op (Nat.le_of_not_lt hvalue), if_neg hvalue]

/-- An instruction without operand is its code in the high four bits. -/
lemma instructionByte_of_not_takesOperand (t : Symbols) {op : Opcode}
    (hop : op.takesOperand = false) (operand : Text) :
    t.instructionByte op operand = .ok (UInt8.ofNat (16 * op.code.toNat)) := by
  rw [instructionByte, hop, ← Instruction.toNat_shiftLeft_four op.toNat_code_lt,
    UInt8.ofNat_toNat]
  rfl

/-- The value of the operand of an instruction. An operation without operand has none, and zero
stands in its place. -/
def operandValue (t : Symbols) (op : Opcode) (operand : Text) : Except Error Nat :=
  if op.takesOperand then t.evaluate operand else .ok 0

/-- The byte of an instruction is decoded as its own operation with the value of its operand. -/
lemma exists_instruction_of_instructionByte {t : Symbols} {op : Opcode} {operand : Text}
    {byte : UInt8} (h : t.instructionByte op operand = .ok byte) :
    ∃ i : Instruction, i.opcode = op ∧ t.operandValue op operand = .ok i.operand.toNat ∧
      Instruction.ofByte? byte = some i := by
  by_cases hop : op.takesOperand = true
  · rw [instructionByte, if_pos hop] at h
    obtain ⟨value, hvalue, h⟩ := Except.bind_eq_ok_iff.1 h
    by_cases hlt : value < 16
    · obtain ⟨i, hi, hiop, rfl⟩ := Instruction.exists_bind_make?_of_lt hop hlt
      rw [hi] at h
      cases h
      exact ⟨i, hiop, by rw [operandValue, if_pos hop, hvalue], i.ofByte?_toByte⟩
    · rw [Instruction.bind_make?_eq_none_of_le op (Nat.le_of_not_lt hlt)] at h
      cases h
  · rw [instructionByte, if_neg hop] at h
    cases h
    let i : Instruction := ⟨op, 0, by decide, fun _ => rfl⟩
    have hbyte : i.toByte = op.code <<< 4 := UInt8.or_zero
    exact ⟨i, rfl, by rw [operandValue, if_neg hop]; rfl, hbyte ▸ i.ofByte?_toByte⟩

/-- An item stands for its value, if that has eight bits. -/
lemma itemByte_eq (t : Symbols) (item : Text) :
    t.itemByte item = (t.evaluate item >>= fun value =>
      if value < 256 then .ok (UInt8.ofNat value) else .error (.byteOutOfRange item value)) := by
  rw [itemByte]
  congr 1
  funext value
  by_cases hvalue : value < 256
  · simp [Number.toByte?, hvalue]
  · simp [Number.toByte?, hvalue]

/-- An item stands for a byte exactly if it denotes the number of that byte. -/
lemma itemByte_eq_ok_iff {t : Symbols} {item : Text} {b : UInt8} :
    t.itemByte item = .ok b ↔ t.evaluate item = .ok b.toNat := by
  rw [itemByte, Except.bind_eq_ok_iff]
  constructor
  · rintro ⟨value, hvalue, h⟩
    split at h
    · next byte hbyte =>
      cases h
      rw [hvalue, Number.toByte?_eq_some_iff.1 hbyte]
    · cases h
  · intro h
    exact ⟨b.toNat, h, by rw [Number.toByte?_eq_some_iff.2 rfl]⟩

end Symbols

/-! ## Statements -/

/-- A write that succeeds is inside the memory. -/
lemma Image.lt_of_write_eq_ok {m n : Image} {address line : Nat} {byte : UInt8}
    (h : m.write address byte line = .ok n) : address < memorySize :=
  (write_eq_ok_iff.1 h).1

/-- A write inside the memory succeeds. -/
lemma Image.exists_write_eq_ok (m : Image) {address : Nat} (h : address < memorySize)
    (byte : UInt8) (line : Nat) : ∃ m', m.write address byte line = .ok m' :=
  ⟨_, m.write_of_lt h byte line⟩

/-- No arithmetic refuses an address up to the end of the memory. -/
lemma Arithmetic.add?_of_le (k : Arithmetic) {a b : Nat} (h : a + b ≤ memorySize) :
    k.add? a b = some (a + b) :=
  k.add?_of_lt (Nat.lt_of_le_of_lt h (by decide))

namespace Encoder

variable {k : Arithmetic}

/-- Writing an item succeeds, with any arithmetic, exactly if its byte can be written at its
address. -/
lemma writeItem_eq_ok_iff {t : Symbols} {counter line offset : Nat} {m n : Image} {item : Text} :
    writeItem t counter line m item offset k = .ok n ↔
      ∃ byte, t.itemByte item = .ok byte ∧ m.write (counter + offset) byte line = .ok n := by
  rw [writeItem, Except.bind_eq_ok_iff]
  refine exists_congr fun byte => and_congr_right fun _ => ?_
  constructor
  · intro h
    split at h
    · next address haddress =>
      rw [← k.eq_add haddress]
      exact h
    · cases h
  · intro h
    have hlt := Image.lt_of_write_eq_ok h
    rw [k.add?_of_le (Nat.le_of_lt hlt)]
    exact h

/-- The byte of an item goes to its own cell, if there is one. -/
lemma writeItem_of_itemByte {t : Symbols} {counter offset : Nat} {item : Text} {byte : UInt8}
    (h : t.itemByte item = .ok byte) (hcell : counter + offset < memorySize) (line : Nat)
    (m : Image) :
    writeItem t counter line m item offset k = m.write (counter + offset) byte line := by
  rw [writeItem, h]
  simp only [k.add?_of_le (Nat.le_of_lt hcell)]
  rfl

/-- Encoding a statement writes its bytes and moves the location counter by its step. -/
lemma add_eq_ok_iff {t : Symbols} {e e' : Encoder} {s : Numbered} :
    e.add t s k = .ok e' ↔ e.write t s.line s.statement k = .ok e'.image ∧
      s.statement.advance e.counter k = .ok e'.counter := by
  rw [add, Except.bind_eq_ok_iff]
  constructor
  · rintro ⟨image, himage, h⟩
    obtain ⟨counter, hcounter, h⟩ := Except.bind_eq_ok_iff.1 h
    cases h
    exact ⟨himage, hcounter⟩
  · rintro ⟨himage, hcounter⟩
    exact ⟨e'.image, himage, Except.bind_eq_ok_iff.2 ⟨e'.counter, hcounter, rfl⟩⟩

/-- Statements are encoded if the first one is, and then the others. -/
lemma addAll_cons_eq_ok_iff {t : Symbols} {e e' : Encoder} {s : Numbered}
    {rest : List Numbered} :
    e.addAll t (s :: rest) k = .ok e' ↔
      ∃ m, e.add t s k = .ok m ∧ m.addAll t rest k = .ok e' := by
  rw [addAll_cons, Except.bind_eq_ok_iff]
  simp only [atLine_eq_ok_iff]

/-- **The location counter of the second pass** is the fold of the steps of the statements. -/
theorem advanceAll_of_addAll {t : Symbols} {e e' : Encoder} {statements : List Numbered}
    (h : e.addAll t statements = .ok e') :
    Numbered.advanceAll e.counter statements = .ok e'.counter := by
  induction statements generalizing e with
  | nil =>
    cases h
    rfl
  | cons s rest ih =>
    obtain ⟨m, hm, hrest⟩ := addAll_cons_eq_ok_iff.1 h
    rw [Numbered.advanceAll_cons, Except.bind_eq_ok_iff]
    exact ⟨m.counter, (add_eq_ok_iff.1 hm).2, ih hrest⟩

/-- A run that gets through has got through every number of first statements. -/
lemma exists_addAll_take {t : Symbols} {e e' : Encoder} {statements : List Numbered}
    (h : e.addAll t statements = .ok e') (k : Nat) :
    ∃ m, e.addAll t (statements.take k) = .ok m := by
  rw [← List.take_append_drop k statements, addAll_append, Except.bind_eq_ok_iff] at h
  obtain ⟨m, hm, -⟩ := h
  exact ⟨m, hm⟩

end Encoder

end SapOne

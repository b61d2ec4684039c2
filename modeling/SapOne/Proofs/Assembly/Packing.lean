import SapOne.Proofs.Assembly.Encoding

set_option relaxedAutoImplicit false
set_option autoImplicit false

/-!
# Values in bytes

A value of a source program is a word, and it has to get into a byte: into all of it, if it is an
item of a list, or into the four bits beside the code of an operation. A value that does not fit is
refused as it is. Nothing is cut off, so that the memory tells the operation and the value again.

The statements below are about what the second pass does with a statement or an item wherever it
comes to it, in any state. They follow from the same statements about the byte alone.

## Main definitions

* `SapOne.Statement.Packs`, `SapOne.Statement.Refused` — the number that a statement puts into its
  cell, and the error that it is refused with.
* `SapOne.Symbols.PacksItem`, `SapOne.Symbols.RefusesItem` — the same for an item of a list.

## Main results

* `SapOne.Statement.packs_instruction_iff`, `SapOne.Symbols.packsItem_iff` — what is put into the
  cell is the byte.
* `SapOne.Symbols.packs_exactly` — values are packed exactly, or refused.
-/

namespace SapOne

/-! ## Statements and items in any place -/

/-- Wherever the second pass comes to the statement, and there is a cell for it, it puts the byte
with the number `n` into that cell. -/
def Statement.Packs (t : Symbols) (s : Statement) (n : Nat) : Prop :=
  ∀ (e : Encoder) (line : Nat), e.counter < memorySize →
    ∃ e', e.add t ⟨line, s⟩ = .ok e' ∧ (e'.image.byteAt e.counter).toNat = n

/-- Wherever the second pass comes to the statement, it stops there with the error. -/
def Statement.Refused (t : Symbols) (s : Statement) (error : Error) : Prop :=
  ∀ (e : Encoder) (line : Nat), e.add t ⟨line, s⟩ = .error error

/-- Wherever an item stands in a list, and there is a cell for it, the second pass puts the byte
with the number `n` into that cell. -/
def Symbols.PacksItem (t : Symbols) (item : Text) (n : Nat) : Prop :=
  ∀ (counter line : Nat) (image : Image) (offset : Nat), counter + offset < memorySize →
    ∃ image', Encoder.writeItem t counter line image item offset = .ok image' ∧
      (image'.byteAt (counter + offset)).toNat = n

/-- Wherever an item stands in a list, the second pass stops there with the error. -/
def Symbols.RefusesItem (t : Symbols) (item : Text) (error : Error) : Prop :=
  ∀ (counter line : Nat) (image : Image) (offset : Nat),
    Encoder.writeItem t counter line image item offset = .error error

/-! ## What is put into a cell is the byte -/

/-- The cell of a write has its byte. -/
lemma Image.byteAt_of_write {m m' : Image} {address line : Nat} {byte : UInt8}
    (h : m.write address byte line = .ok m') : m'.byteAt address = byte := by
  rw [byteAt_write h, if_pos rfl]

namespace Statement

variable {t : Symbols} {op : Opcode} {operand : Text}

/-- An instruction in the memory moves the location counter past its cell. -/
lemma advance_instruction {counter : Nat} (h : counter < memorySize) :
    (instruction op operand).advance counter = .ok (counter + 1) := by
  have hlimit : memorySize < Number.limit := by decide
  have hlt : counter + 1 < Number.limit := by omega
  show Step.apply counter (.advance 1) = _
  simp [Step.apply, hlt]

/-- An instruction puts a number into its cell exactly if its byte has that number. -/
lemma packs_instruction_iff {n : Nat} :
    (instruction op operand).Packs t n ↔
      ∃ byte, t.instructionByte op operand = .ok byte ∧ byte.toNat = n := by
  constructor
  · intro h
    obtain ⟨e, hadd, hn⟩ := h Encoder.start 0 (by decide)
    obtain ⟨byte, hbyte, hwrite⟩ := Except.bind_eq_ok_iff.1 (Encoder.add_eq_ok_iff.1 hadd).1
    rw [Image.byteAt_of_write hwrite] at hn
    exact ⟨byte, hbyte, hn⟩
  · rintro ⟨byte, hbyte, rfl⟩ e line hcell
    obtain ⟨image, hwrite⟩ := e.image.exists_write_eq_ok hcell byte line
    refine ⟨⟨e.counter + 1, image⟩, Encoder.add_eq_ok_iff.2 ⟨?_, advance_instruction hcell⟩, ?_⟩
    · exact Except.bind_eq_ok_iff.2 ⟨byte, hbyte, hwrite⟩
    · rw [Image.byteAt_of_write hwrite]

/-- An instruction is refused exactly if it has no byte, and with the same error. -/
lemma refused_instruction_iff {error : Error} :
    (instruction op operand).Refused t error ↔ t.instructionByte op operand = .error error := by
  constructor
  · intro h
    cases hbyte : t.instructionByte op operand with
    | error e =>
      have hadd : Encoder.start.add t ⟨0, instruction op operand⟩ = .error e := by
        rw [Encoder.add, Encoder.write, hbyte]
        rfl
      rw [h Encoder.start 0] at hadd
      cases hadd
      rfl
    | ok byte =>
      -- in the first cell it would not be refused
      obtain ⟨e, hadd, -⟩ := packs_instruction_iff.2 ⟨byte, hbyte, rfl⟩ Encoder.start 0 (by decide)
      rw [h Encoder.start 0] at hadd
      cases hadd
  · intro hbyte e line
    rw [Encoder.add, Encoder.write, hbyte]
    rfl

end Statement

namespace Symbols

variable {t : Symbols} {item : Text}

/-- An item puts a number into its cell exactly if its byte has that number. -/
lemma packsItem_iff {n : Nat} :
    t.PacksItem item n ↔ ∃ byte, t.itemByte item = .ok byte ∧ byte.toNat = n := by
  constructor
  · intro h
    obtain ⟨m, hitem, hn⟩ := h 0 0 Image.empty 0 (by decide)
    obtain ⟨byte, hbyte, hwrite⟩ := Encoder.writeItem_eq_ok_iff.1 hitem
    rw [Image.byteAt_of_write hwrite] at hn
    exact ⟨byte, hbyte, hn⟩
  · rintro ⟨byte, hbyte, rfl⟩ counter line image offset hcell
    obtain ⟨image', hwrite⟩ := image.exists_write_eq_ok hcell byte line
    refine ⟨image', ?_, by rw [Image.byteAt_of_write hwrite]⟩
    rw [Encoder.writeItem_of_itemByte hbyte hcell, hwrite]

/-- An item is refused exactly if it has no byte, and with the same error. -/
lemma refusesItem_iff {error : Error} :
    t.RefusesItem item error ↔ t.itemByte item = .error error := by
  constructor
  · intro h
    cases hbyte : t.itemByte item with
    | error e =>
      have hitem : Encoder.writeItem t 0 0 Image.empty item 0 = .error e := by
        rw [Encoder.writeItem, hbyte]
        rfl
      rw [h 0 0 Image.empty 0] at hitem
      cases hitem
      rfl
    | ok byte =>
      obtain ⟨m, hitem, -⟩ := packsItem_iff.2 ⟨byte, hbyte, rfl⟩ 0 0 Image.empty 0 (by decide)
      rw [h 0 0 Image.empty 0] at hitem
      cases hitem
  · intro hbyte counter line image offset
    rw [Encoder.writeItem, hbyte]
    rfl

/-! ## Values below a limit -/

/-- A bounded value gives a byte with exactly its number if it is in bounds, and no byte else. -/
lemma exists_byte_ite_iff {p : Prop} [Decidable p] {m n : Nat} {error : Error} (hm : p → m < 256) :
    (∃ byte, (if p then .ok (UInt8.ofNat m) else .error error : Except Error UInt8) = .ok byte ∧
      byte.toNat = n) ↔ p ∧ n = m := by
  by_cases hp : p
  · simp [hp, UInt8.toNat_ofNat_of_lt' (hm hp), eq_comm]
  · simp [hp]

/-- A bounded value is refused exactly if it is out of bounds. -/
lemma ite_eq_error_iff {p : Prop} [Decidable p] {byte : UInt8} {e error : Error} :
    (if p then .ok byte else .error e : Except Error UInt8) = .error error ↔ ¬ p ∧ error = e := by
  by_cases hp : p
  · simp [hp]
  · simp [hp, eq_comm]

variable {op : Opcode} {operand : Text} {v : Nat}

/-- The byte of an instruction whose operand has a value. -/
lemma instructionByte_of_evaluate (hop : op.takesOperand = true)
    (h : t.evaluate operand = .ok v) :
    t.instructionByte op operand = if v < 16 then .ok (UInt8.ofNat (16 * op.code.toNat + v))
      else .error (.operandOutOfRange operand v) := by
  rw [instructionByte_of_takesOperand t hop, h]
  rfl

/-- The byte of an item that has a value. -/
lemma itemByte_of_evaluate (h : t.evaluate item = .ok v) :
    t.itemByte item = if v < 256 then .ok (UInt8.ofNat v) else .error (.byteOutOfRange item v) := by
  rw [itemByte_eq, h]
  rfl

/-- What an instruction puts into its cell is decoded as the instruction again. -/
lemma exists_instruction_of_packs {n : Nat}
    (h : (Statement.instruction op operand).Packs t n) :
    n < 256 ∧ ∃ i : Instruction, Instruction.ofByte? (UInt8.ofNat n) = some i ∧ i.opcode = op ∧
      t.operandValue op operand = .ok i.operand.toNat := by
  obtain ⟨byte, hbyte, rfl⟩ := Statement.packs_instruction_iff.1 h
  obtain ⟨i, hop, hvalue, hdecode⟩ := exists_instruction_of_instructionByte hbyte
  refine ⟨byte.toNat_lt, i, ?_, hop, hvalue⟩
  rw [UInt8.ofNat_toNat, hdecode]

/-- **Values are packed exactly, or refused.** An operation without operand is encoded as sixteen
times its code, whatever stands behind it. With an operand, the value is added if it is at most
fifteen; otherwise the operand is refused with its text and its value, and an operand without a
value is refused with its own error. The byte tells the operation and the value again, so that
instructions with the same byte agree in both. An item is encoded as its value if that is at most
255, and is otherwise refused with its text and its value. -/
theorem packs_exactly (t : Symbols) :
    (∀ (op : Opcode) (operand : Text), op.takesOperand = false →
      ∀ n, (Statement.instruction op operand).Packs t n ↔ n = 16 * op.code.toNat) ∧
    (∀ (op : Opcode) (operand : Text), op.takesOperand = true →
      (∀ v, t.evaluate operand = .ok v →
        (∀ n, (Statement.instruction op operand).Packs t n ↔ v ≤ 15 ∧ n = 16 * op.code.toNat + v) ∧
        ∀ error, (Statement.instruction op operand).Refused t error ↔
          15 < v ∧ error = .operandOutOfRange operand v) ∧
      ∀ e, t.evaluate operand = .error e →
        ∀ error, (Statement.instruction op operand).Refused t error ↔ error = e) ∧
    (∀ (op : Opcode) (operand : Text) (n : Nat), (Statement.instruction op operand).Packs t n →
      n < 256 ∧ ∃ i : Instruction, Instruction.ofByte? (UInt8.ofNat n) = some i ∧ i.opcode = op ∧
        t.operandValue op operand = .ok i.operand.toNat) ∧
    (∀ (t' : Symbols) (op op' : Opcode) (operand operand' : Text) (n : Nat),
      (Statement.instruction op operand).Packs t n →
        (Statement.instruction op' operand').Packs t' n →
          op = op' ∧ t.operandValue op operand = t'.operandValue op' operand') ∧
    ∀ item : Text,
      (∀ v, t.evaluate item = .ok v →
        (∀ n, t.PacksItem item n ↔ v ≤ 255 ∧ n = v) ∧
        ∀ error, t.RefusesItem item error ↔ 255 < v ∧ error = .byteOutOfRange item v) ∧
      ∀ e, t.evaluate item = .error e → ∀ error, t.RefusesItem item error ↔ error = e := by
  refine ⟨?_, ?_, ?_, ?_, ?_⟩
  · intro op operand hop n
    have hcode := op.toNat_code_lt
    have hbyte : (UInt8.ofNat (16 * op.code.toNat)).toNat = 16 * op.code.toNat :=
      UInt8.toNat_ofNat_of_lt' (show 16 * op.code.toNat < 256 by omega)
    rw [Statement.packs_instruction_iff, instructionByte_of_not_takesOperand t hop]
    constructor
    · rintro ⟨byte, h, rfl⟩
      cases h
      exact hbyte
    · rintro rfl
      exact ⟨_, rfl, hbyte⟩
  · intro op operand hop
    have hcode := op.toNat_code_lt
    refine ⟨fun v hv => ⟨fun n => ?_, fun error => ?_⟩, fun e he error => ?_⟩
    · rw [Statement.packs_instruction_iff, instructionByte_of_evaluate hop hv,
        exists_byte_ite_iff (by omega), Nat.lt_succ_iff]
    · rw [Statement.refused_instruction_iff, instructionByte_of_evaluate hop hv, ite_eq_error_iff,
        Nat.not_lt, Nat.succ_le_iff]
    · rw [Statement.refused_instruction_iff, instructionByte_of_takesOperand t hop, he]
      exact ⟨fun h => (Except.error.inj h).symm, fun h => h ▸ rfl⟩
  · intro op operand n h
    exact exists_instruction_of_packs h
  · intro t' op op' operand operand' n h h'
    obtain ⟨-, i, hi, hop, hvalue⟩ := exists_instruction_of_packs h
    obtain ⟨-, i', hi', hop', hvalue'⟩ := exists_instruction_of_packs h'
    obtain rfl : i = i' := Option.some.inj (hi.symm.trans hi')
    exact ⟨hop.symm.trans hop', hvalue.trans hvalue'.symm⟩
  · intro item
    refine ⟨fun v hv => ⟨fun n => ?_, fun error => ?_⟩, fun e he error => ?_⟩
    · rw [packsItem_iff, itemByte_of_evaluate hv, exists_byte_ite_iff (by omega), Nat.lt_succ_iff]
    · rw [refusesItem_iff, itemByte_of_evaluate hv, ite_eq_error_iff, Nat.not_lt, Nat.succ_le_iff]
    · rw [refusesItem_iff, itemByte, he]
      exact ⟨fun h => (Except.error.inj h).symm, fun h => h ▸ rfl⟩

/-- A label in the memory and one behind it, at an address whose low four bits and low eight bits
would fit. -/
theorem packs_exactly_far_label :
    ∃ t : Symbols, t.address? "near".toList = some 14 ∧ t.address? "far".toList = some 259 ∧
      (Statement.instruction .hlt "far".toList).Packs t 0xF0 ∧
      (Statement.instruction .lda "near".toList).Packs t 0x1E ∧
      (Statement.instruction .lda "far".toList).Refused t (.operandOutOfRange "far".toList 259) ∧
      (Statement.instruction .lda "nowhere".toList).Refused t
        (.undefinedLabel "nowhere".toList) ∧
      t.PacksItem "near".toList 14 ∧
      t.RefusesItem "far".toList (.byteOutOfRange "far".toList 259) ∧
      ∃ i : Instruction, Instruction.ofByte? 0x1E = some i ∧ i.opcode = .lda := by
  let t : Symbols := ⟨[⟨"near".toList, 0, 14⟩, ⟨"far".toList, 1, 259⟩]⟩
  have hnear : t.evaluate "near".toList = .ok 14 := by decide
  have hfar : t.evaluate "far".toList = .ok 259 := by decide
  have hnowhere : t.evaluate "nowhere".toList = .error (.undefinedLabel "nowhere".toList) := by
    decide
  obtain ⟨hplain, hoperand, hdecode, -, hitem⟩ := t.packs_exactly
  have hlda : (Statement.instruction .lda "near".toList).Packs t 0x1E :=
    (((hoperand .lda _ rfl).1 14 hnear).1 0x1E).2 ⟨by decide, by decide⟩
  obtain ⟨-, i, hi, hop, -⟩ := hdecode _ _ _ hlda
  refine ⟨t, by decide, by decide, (hplain .hlt _ rfl 0xF0).2 rfl, hlda, ?_, ?_, ?_, ?_, i, hi, hop⟩
  · exact (((hoperand .lda _ rfl).1 259 hfar).2 _).2 ⟨by decide, rfl⟩
  · exact ((hoperand .lda _ rfl).2 _ hnowhere _).2 rfl
  · exact (((hitem _).1 14 hnear).1 14).2 ⟨by decide, rfl⟩
  · exact (((hitem _).1 259 hfar).2 _).2 ⟨by decide, rfl⟩

end Symbols

end SapOne

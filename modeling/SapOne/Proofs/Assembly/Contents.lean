import SapOne.Assembly.Basic
import SapOne.Proofs.Assembly.Encoding
import SapOne.Proofs.Source.Numerals

set_option relaxedAutoImplicit false
set_option autoImplicit false

/-!
# Memory contents as sources

Every content of the memory has a source: a line that sets the location counter, and then one line
for each byte. A byte can be written as a number, and also as the instruction that it is, if there
is one. All these sources assemble to the content that they were written for, at any place where it
fits; where it does not fit, the first byte behind the memory is reported.

## Main definitions

* `SapOne.Source.WritesByte` — the lines that stand for a byte.
* `SapOne.Statement.Puts` — a statement that puts one given byte into the memory.
* `SapOne.Numbered.PutsFrom` — statements on successive lines that put given bytes.

## Main results

* `SapOne.Source.WritesByte.exists_puts` — a line that stands for a byte is read as a statement that
  puts it.
* `SapOne.Layout.addLines_of_writesByte` — a run of the first pass over such lines.
* `SapOne.Encoder.addAll_of_putsFrom`, `SapOne.Encoder.addAll_of_putsFrom_of_lt` — a run of the
  second pass over bytes that fit into the memory, and over bytes that do not.
* `SapOne.assemble_contents` — every content of the memory can be assembled.
-/

namespace SapOne

/-! ## Lines that stand for a byte -/

/-- A line that stands for a byte: the number of the byte as the only item of a list, or the
instruction that the byte is decoded to, if that is encoded as the same byte. Its operand is then
the number of the low four bits, and an operation without operand has none. -/
inductive Source.WritesByte (b : UInt8) : Text → Prop
  | byte {numeral : Text} (h : Numeral.Denotes numeral b.toNat) :
    WritesByte b (Statement.directive .byte numeral).plain
  | instruction {i : Instruction} {numeral : Text} (hi : Instruction.ofByte? b = some i)
    (hb : i.toByte = b) (hop : i.opcode.takesOperand = true)
    (h : Numeral.Denotes numeral (b.toNat % 16)) :
    WritesByte b (Statement.instruction i.opcode numeral).plain
  | mnemonic {i : Instruction} (hi : Instruction.ofByte? b = some i) (hb : i.toByte = b)
    (hop : i.opcode.takesOperand = false) :
    WritesByte b (Statement.instruction i.opcode []).plain

/-! ## Statements that put a byte -/

/-- The only item of a list is written at the location counter. An address past the range of
addresses is outside the memory, too, and reported alike. -/
lemma Encoder.writeItems_singleton (t : Symbols) (counter line : Nat) (m : Image) (item : Text) :
    writeItems t counter line m [item] =
      (t.itemByte item >>= fun byte => m.write counter byte line) := by
  have hfold : writeItems t counter line m [item] = writeItem t counter line m item 0 := by
    simp [writeItems]
  rw [hfold, writeItem]
  congr 1
  funext byte
  by_cases h : counter < Number.limit
  · simp [h]
  · have hout : memorySize ≤ counter := by
      have : memorySize < Number.limit := by decide
      omega
    simp [h, Image.write_eq_error_iff.2 ⟨hout, rfl⟩]

/-- A byte is below the limit of numbers. -/
lemma Number.toNat_lt_limit (b : UInt8) : b.toNat < limit := by
  have hb := b.toNat_lt
  have hlimit : 256 < limit := by decide
  omega

/-- The numeral of a byte, as an item of a list, stands for that byte. -/
lemma Symbols.itemByte_of_denotes (t : Symbols) {numeral : Text} {b : UInt8}
    (h : Numeral.Denotes numeral b.toNat) : t.itemByte numeral = .ok b := by
  rw [itemByte_eq_ok_iff, evaluate, Operand.parse_of_denotes h (Number.toNat_lt_limit b)]
  rfl

/-- A statement puts a byte at the location counter and moves past it, whatever the labels stand
for. -/
structure Statement.Puts (s : Statement) (b : UInt8) : Prop where
  step : s.step = .ok (.advance 1)
  write : ∀ (t : Symbols) (e : Encoder) (line : Nat),
    e.write t line s = e.image.write e.counter b line

namespace Statement

variable {b : UInt8}

/-- The number of a byte, as the only item of a list, puts that byte. -/
lemma puts_byte {numeral : Text} (h : Numeral.Denotes numeral b.toNat) :
    (directive .byte numeral).Puts b := by
  have hitems := Operand.items_of_isToken h.isToken
  constructor
  · rw [step, hitems]
    rfl
  · intro t e line
    show (Operand.items numeral >>= Encoder.writeItems t e.counter line e.image) = _
    rw [hitems]
    show Encoder.writeItems t e.counter line e.image [numeral] = _
    rw [Encoder.writeItems_singleton, t.itemByte_of_denotes h]
    rfl

/-- An instruction puts the byte that its operation and its operand stand for. -/
lemma puts_instruction {op : Opcode} {operand : Text}
    (h : ∀ t : Symbols, t.instructionByte op operand = .ok b) :
    (instruction op operand).Puts b := by
  constructor
  · rfl
  · intro t e line
    show (t.instructionByte op operand >>= fun byte => e.image.write e.counter byte line) = _
    rw [h t]
    rfl

end Statement

/-- **A line that stands for a byte** is read as a statement that puts it. -/
theorem Source.WritesByte.exists_puts {b : UInt8} {raw : Text} (h : WritesByte b raw) :
    ∃ s, Line.parse raw = .ok (some ⟨none, some s⟩) ∧ s.Puts b := by
  cases h with
  | byte h => exact ⟨_, Line.parse_plain (h.isToken.wellFormed .byte), Statement.puts_byte h⟩
  | @instruction i numeral hi hb hop h =>
    refine ⟨_, Line.parse_plain (Or.inr h.isToken), Statement.puts_instruction ?_⟩
    intro t
    have hlow : b.toNat % 16 < 16 := by omega
    have hlimit : b.toNat % 16 < Number.limit := by
      have : 16 < Number.limit := by decide
      omega
    have hsplit : 16 * i.opcode.code.toNat + b.toNat % 16 = b.toNat := by
      have hbyte := i.toNat_toByte
      have := i.toNat_operand_lt
      rw [hb] at hbyte
      omega
    rw [Symbols.instructionByte_of_takesOperand t hop, Symbols.evaluate,
      Operand.parse_of_denotes h hlimit]
    show (if b.toNat % 16 < 16 then _ else _) = _
    rw [if_pos hlow, hsplit, UInt8.ofNat_toNat]
  | @mnemonic i hi hb hop =>
    refine ⟨_, Line.parse_plain (Or.inl rfl), Statement.puts_instruction ?_⟩
    intro t
    have hbyte := i.toNat_toByte
    rw [i.operand_eq_zero hop, hb] at hbyte
    have hcode : 16 * i.opcode.code.toNat = b.toNat := by simpa using hbyte.symm
    rw [Symbols.instructionByte_of_not_takesOperand t hop, hcode, UInt8.ofNat_toNat]

/-! ## Bytes on successive lines -/

/-- Statements on successive lines that put given bytes, from the line `first` on. -/
inductive Numbered.PutsFrom : Nat → List UInt8 → List Numbered → Prop
  | nil (first : Nat) : PutsFrom first [] []
  | cons {first : Nat} {b : UInt8} {bs : List UInt8} {s : Statement} {rest : List Numbered}
    (hs : s.Puts b) (hrest : PutsFrom (first + 1) bs rest) :
    PutsFrom first (b :: bs) (⟨first, s⟩ :: rest)

/-- The first pass moves past a statement that puts a byte. -/
lemma Statement.Puts.advance_eq {s : Statement} {b : UInt8} (h : s.Puts b) {counter : Nat}
    (hcounter : counter + 1 < Number.limit) : s.advance counter = .ok (counter + 1) := by
  rw [Statement.advance, h.step]
  show Step.apply counter (.advance 1) = _
  simp [Step.apply, hcounter]

/-- A line without label and with a given statement is that statement. -/
lemma Layout.addLine_of_parse (l : Layout) (line : Nat) {raw : Text} {s : Statement}
    (h : Line.parse raw = .ok (some ⟨none, some s⟩)) :
    l.addLine line raw = l.addStatement line (some s) := by
  rw [addLine, h]
  rfl

/-- **A run of the first pass** over lines that stand for bytes finds no label, and moves past one
cell for each of them. -/
theorem Layout.addLines_of_writesByte {bs : List UInt8} {lines : List Text}
    (h : List.Forall₂ Source.WritesByte bs lines) {l : Layout} (first : Nat)
    (hend : l.counter + bs.length < Number.limit) :
    ∃ statements, Numbered.PutsFrom first bs statements ∧ l.addLines lines first =
      .ok ⟨⟨l.symbols, l.statements ++ statements⟩, l.counter + bs.length⟩ := by
  induction h generalizing l first with
  | nil => exact ⟨[], .nil first, by simp⟩
  | @cons b raw bs lines hraw _ ih =>
    rw [List.length_cons] at hend
    obtain ⟨s, hparse, hs⟩ := hraw.exists_puts
    have hline : l.addLine first raw =
        .ok ⟨⟨l.symbols, l.statements ++ [⟨first, s⟩]⟩, l.counter + 1⟩ := by
      rw [addLine_of_parse l first hparse, addStatement, hs.advance_eq (by omega)]
      rfl
    obtain ⟨statements, hputs, hrun⟩ :=
      ih (l := ⟨⟨l.symbols, l.statements ++ [⟨first, s⟩]⟩, l.counter + 1⟩) (first + 1)
        (by simp only; omega)
    refine ⟨⟨first, s⟩ :: statements, .cons hs hputs, ?_⟩
    rw [addLines_cons, hline]
    show Layout.addLines _ lines (first + 1) = _
    rw [hrun]
    simp [Nat.add_assoc, Nat.add_comm 1]

/-- A byte that is written in front of a run of cells makes the run longer by one, if the run comes
last and leaves all cells before it alone. -/
lemma Image.cellAt_of_write_first {m m' n : Image} {k : Nat} {b : UInt8} {bs : List UInt8}
    {line : Nat → Nat} (hwrite : m.write k b (line 0) = .ok m')
    (hinside : ∀ i c, bs[i]? = some c → n.cellAt (k + 1 + i) = (c, some (line (i + 1))))
    (houtside : ∀ a, a < k + 1 ∨ k + 1 + bs.length ≤ a → n.cellAt a = m'.cellAt a) :
    (∀ i c, (b :: bs)[i]? = some c → n.cellAt (k + i) = (c, some (line i))) ∧
      ∀ a, a < k ∨ k + (b :: bs).length ≤ a → n.cellAt a = m.cellAt a := by
  have hget := cellAt_write hwrite
  refine ⟨?_, ?_⟩
  · intro i c hc
    cases i with
    | zero =>
      obtain rfl : b = c := by simpa using hc
      rw [houtside _ (by omega), hget, if_pos (by omega)]
    | succ i =>
      rw [← hinside i c (by simpa using hc)]
      congr 1
      omega
  · intro a ha
    rw [List.length_cons] at ha
    rw [houtside a (by omega), hget, if_neg (by omega)]

namespace Encoder

variable {t : Symbols} {first : Nat} {bs : List UInt8} {statements : List Numbered}

/-- The second pass writes the byte, and then moves past it. -/
lemma add_of_puts {s : Statement} {b : UInt8} (h : s.Puts b) {e : Encoder} {line : Nat}
    {m : Image} (hcounter : e.counter < memorySize) (hm : e.image.write e.counter b line = .ok m) :
    e.add t ⟨line, s⟩ = .ok ⟨e.counter + 1, m⟩ := by
  have hlimit : memorySize < Number.limit := by decide
  rw [add_eq_ok_iff]
  exact ⟨by rw [h.write, hm], h.advance_eq (by omega)⟩

/-- **Bytes that fit** into the memory are written one behind the other, each with its own line, and
all other cells stay as they are.

**Proof sketch.** Induction on the bytes. The first one is written at the location counter, where
the others do not come again, and the others are written from the next cell on. -/
theorem addAll_of_putsFrom (h : Numbered.PutsFrom first bs statements) {e : Encoder}
    (hfit : e.counter + bs.length ≤ memorySize) :
    ∃ e', e.addAll t statements = .ok e' ∧
      (∀ i b, bs[i]? = some b → e'.image.cellAt (e.counter + i) = (b, some (first + i))) ∧
      ∀ a, a < e.counter ∨ e.counter + bs.length ≤ a → e'.image.cellAt a = e.image.cellAt a := by
  induction h generalizing e with
  | nil first => exact ⟨e, rfl, by simp, fun a _ => rfl⟩
  | @cons first b bs s rest hs _ ih =>
    rw [List.length_cons] at hfit
    have hcounter : e.counter < memorySize := by omega
    obtain ⟨m, hwrite⟩ := e.image.exists_write_eq_ok hcounter b first
    obtain ⟨e', hrun, hinside, houtside⟩ := ih (e := ⟨e.counter + 1, m⟩) (by simp only; omega)
    refine ⟨e', ?_, Image.cellAt_of_write_first hwrite ?_ houtside⟩
    · rw [addAll_cons_eq_ok_iff]
      exact ⟨_, add_of_puts hs hcounter hwrite, hrun⟩
    · intro i c hc
      rw [hinside i c hc, Nat.add_assoc, Nat.add_comm 1]

/-- **Bytes that do not fit** are rejected on the line of the first one behind the memory. -/
theorem addAll_of_putsFrom_of_lt (h : Numbered.PutsFrom first bs statements) (hne : bs ≠ [])
    {e : Encoder} (hover : memorySize < e.counter + bs.length) :
    e.addAll t statements = .error ⟨first + (memorySize - e.counter),
      .addressOutOfRange (max e.counter memorySize)⟩ := by
  induction h generalizing e with
  | nil first => exact absurd rfl hne
  | @cons first b bs s rest hs _ ih =>
    rw [List.length_cons] at hover
    rw [addAll_cons]
    by_cases hcounter : e.counter < memorySize
    · have hrest : bs ≠ [] := by
        intro hnil
        simp only [hnil, List.length_nil] at hover
        omega
      have hwrite := Image.write_of_lt e.image hcounter b first
      rw [add_of_puts hs hcounter hwrite]
      show addAll t _ rest = _
      rw [ih hrest (by simp only; omega)]
      have hline : first + 1 + (memorySize - (e.counter + 1)) =
          first + (memorySize - e.counter) := by omega
      have hmax : max (e.counter + 1) memorySize = max e.counter memorySize := by omega
      rw [hline, hmax]
    · -- this is the first byte behind the memory, so that its own line is reported
      have hout : memorySize ≤ e.counter := by omega
      have hwrite : e.image.write e.counter b first = .error (.addressOutOfRange e.counter) :=
        Image.write_eq_error_iff.2 ⟨hout, rfl⟩
      have hadd : e.add t ⟨first, s⟩ = .error (.addressOutOfRange e.counter) := by
        rw [add, hs.write, hwrite]
        rfl
      rw [hadd, Nat.max_eq_left hout, Nat.sub_eq_zero_of_le hout]
      rfl

end Encoder

/-! ## Contents of the memory -/

/-- The bytes of an image in which one run of cells is written. -/
lemma Image.bytes_of_cellAt {m : Image} {k : Nat} {line : Nat → Nat} {bs : List UInt8}
    (hfit : k + bs.length ≤ memorySize)
    (hinside : ∀ i b, bs[i]? = some b → m.cellAt (k + i) = (b, some (line i)))
    (houtside : ∀ a, a < k ∨ k + bs.length ≤ a → m.cellAt a = (0, none)) :
    m.bytes = List.replicate k 0 ++ bs ++ List.replicate (memorySize - (k + bs.length)) 0 := by
  apply List.ext_getElem
  · simp only [length_bytes, List.length_append, List.length_replicate]
    omega
  · intro a ha _
    have hbyte : m.bytes[a] = (m.cellAt a).1 :=
      Option.some.inj ((List.getElem?_eq_getElem _).symm.trans
        (m.getElem?_bytes (by simpa using ha)))
    rw [hbyte]
    by_cases hrun : k ≤ a ∧ a < k + bs.length
    · obtain ⟨i, rfl⟩ := Nat.exists_eq_add_of_le hrun.1
      have hi : i < bs.length := by omega
      rw [hinside i bs[i] (List.getElem?_eq_getElem hi)]
      simp [hi]
    · rw [houtside a (by omega)]
      by_cases hlow : a < k
      · simp [hlow]
      · have hhigh : (List.replicate k 0 ++ bs).length ≤ a := by
          simp only [List.length_append, List.length_replicate]
          omega
        rw [List.getElem_append_right hhigh]
        simp

/-- A numeral sets the location counter to the address that it denotes. -/
lemma Statement.advance_org_of_denotes {numeral : Text} {k : Nat} (h : Numeral.Denotes numeral k)
    (hk : k < Number.limit) (counter : Nat) :
    (directive .org numeral).advance counter = .ok k := by
  rw [advance, step, Number.parse_of_denotes h hk]
  rfl

/-- A source that sets the location counter and then goes on with bytes: the first pass finds no
label, and the second one writes the bytes from that address on. -/
lemma assemble_org_cons {k : Nat} {numeral : Text} (hnumeral : Numeral.Denotes numeral k)
    {bs : List UInt8} (hend : k + bs.length < Number.limit) {lines : List Text}
    (hlines : List.Forall₂ Source.WritesByte bs lines) :
    ∃ statements, Numbered.PutsFrom 1 bs statements ∧
      assemble ((Statement.directive .org numeral).plain :: lines) =
        (Encoder.addAll {} ⟨k, Image.empty⟩ statements).map Encoder.image := by
  have hadvance := Statement.advance_org_of_denotes hnumeral (by omega : k < Number.limit)
  have hline : Layout.start.addLine 0 (Statement.directive .org numeral).plain =
      .ok ⟨⟨{}, [⟨0, .directive .org numeral⟩]⟩, k⟩ := by
    rw [Layout.addLine_of_parse _ _ (Line.parse_plain (hnumeral.isToken.wellFormed .org)),
      Layout.addStatement, hadvance]
    rfl
  obtain ⟨statements, hputs, hrun⟩ := Layout.addLines_of_writesByte hlines
    (l := ⟨⟨{}, [⟨0, .directive .org numeral⟩]⟩, k⟩) 1 hend
  have hprogram : Program.ofSource ((Statement.directive .org numeral).plain :: lines) =
      .ok ⟨{}, ⟨0, .directive .org numeral⟩ :: statements⟩ := by
    rw [Program.ofSource, Layout.addLines_cons, hline]
    show Except.map _ (Layout.addLines _ lines 1) = _
    rw [hrun]
    rfl
  have hadd : Encoder.start.add {} ⟨0, .directive .org numeral⟩ = .ok ⟨k, Image.empty⟩ := by
    rw [Encoder.add_eq_ok_iff]
    exact ⟨rfl, hadvance 0⟩
  refine ⟨statements, hputs, ?_⟩
  rw [assemble, Assembly.ofSource, hprogram]
  show Except.map _ ((Encoder.start.addAll {} (_ :: statements)).map Encoder.image >>= _) = _
  rw [Encoder.addAll_cons, hadd]
  show Except.map _ ((Encoder.addAll {} ⟨k, Image.empty⟩ statements).map Encoder.image >>= _) = _
  cases Encoder.addAll {} ⟨k, Image.empty⟩ statements <;> rfl

/-- **Every content of the memory can be assembled**, and placed anywhere it fits. Given are a
numeral of an address `k`, in either base, and a line for each byte of a list, written as a number
in either base or as the instruction that it is. If the bytes fit into the memory from `k` on, they
are assembled to exactly these cells, and all other cells are zero. If they do not fit, the line of
the first byte behind the memory is reported, with the address where it would go. -/
theorem assemble_contents {k : Nat} {numeral : Text} (hnumeral : Numeral.Denotes numeral k)
    {bs : List UInt8} (hne : bs ≠ []) (hend : k + bs.length < Number.limit) {lines : List Text}
    (hlines : List.Forall₂ Source.WritesByte bs lines) :
    (k + bs.length ≤ memorySize →
      ∃ image, assemble ((Statement.directive .org numeral).plain :: lines) = .ok image ∧
        image.bytes =
          List.replicate k 0 ++ bs ++ List.replicate (memorySize - (k + bs.length)) 0) ∧
    (memorySize < k + bs.length →
      ∃ j < bs.length, (∀ i < j, k + i < memorySize) ∧ memorySize ≤ k + j ∧
        assemble ((Statement.directive .org numeral).plain :: lines) =
          .error ⟨j + 1, .addressOutOfRange (max k memorySize)⟩) := by
  obtain ⟨statements, hputs, hassemble⟩ := assemble_org_cons hnumeral hend hlines
  refine ⟨?_, ?_⟩
  · intro hfit
    obtain ⟨e, hrun, hinside, houtside⟩ :=
      Encoder.addAll_of_putsFrom (t := {}) hputs (e := ⟨k, Image.empty⟩) hfit
    refine ⟨e.image, by rw [hassemble, hrun]; rfl, Image.bytes_of_cellAt hfit hinside ?_⟩
    intro a ha
    rw [houtside a ha, Image.cellAt_empty]
  · intro hover
    have hlength := List.length_pos_iff.2 hne
    refine ⟨memorySize - k, by omega, fun i hi => by omega, by omega, ?_⟩
    rw [hassemble, Encoder.addAll_of_putsFrom_of_lt hputs hne hover, Nat.add_comm 1]
    rfl

/-- Two bytes at the end of the memory, both written as instructions, and two bytes of which the
second one is behind it. -/
theorem assemble_contents_at_end :
    (∃ image, assemble [".org $e".toList, "lda $f".toList, "hlt".toList] = .ok image ∧
      image.bytes = List.replicate 14 0 ++ [0x1F, 0xF0]) ∧
    assemble [".org 15".toList, ".byte $90".toList, ".byte 241".toList] =
      .error ⟨2, .addressOutOfRange 16⟩ := by
  refine ⟨?_, ?_⟩
  · have horg : Numeral.Denotes "$e".toList 14 := Numeral.denotes_hex 14
    have hnumeral : Numeral.Denotes "$f".toList 15 := Numeral.denotes_hex 15
    have hlda := Source.WritesByte.instruction (b := 0x1F)
      (i := ⟨.lda, 15, by decide, by decide⟩) rfl rfl rfl hnumeral
    have hhlt := Source.WritesByte.mnemonic (b := 0xF0)
      (i := ⟨.hlt, 0, by decide, by decide⟩) rfl rfl rfl
    exact (assemble_contents horg (by simp) (by decide) (.cons hlda (.cons hhlt .nil))).1
      (by decide)
  · have horg : Numeral.Denotes "15".toList 15 := Numeral.denotes_decimal 15
    have hnumeral : Numeral.Denotes "$90".toList 0x90 := Numeral.denotes_hex 0x90
    have hnumeral' : Numeral.Denotes "241".toList 0xF1 := Numeral.denotes_decimal 241
    have hfirst := Source.WritesByte.byte (b := 0x90) hnumeral
    have hsecond := Source.WritesByte.byte (b := 0xF1) hnumeral'
    obtain ⟨j, hj, -, hout, h⟩ :=
      (assemble_contents horg (by simp) (by decide) (.cons hfirst (.cons hsecond .nil))).2
        (by decide)
    obtain rfl : j = 1 := by
      simp only [memorySize, List.length_cons, List.length_nil] at hj hout
      omega
    exact h

end SapOne

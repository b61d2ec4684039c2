import SapOne.Assembly.Basic
import SapOne.Proofs.Assembly.Encoding

set_option relaxedAutoImplicit false
set_option autoImplicit false

/-!
# The image as the last writes

A program puts values at addresses: an instruction one value, a list of bytes one value for each
item, and the other directives none. The location counter can be set back, so that several
values may go to one address. The image shows the last one of each address, and zero where there
is none.

## Main definitions

* `SapOne.Emission` — a value that a line puts at an address.
* `SapOne.Emission.lastAt` — the last of a list of emissions at an address.
* `SapOne.Numbered.emissions`, `SapOne.Numbered.emissionsAll` — what statements emit.
* `SapOne.Image.Shows` — an image shows the last emissions of a list.

## Main results

* `SapOne.Image.Shows.write` — a write makes an image show one more emission.
* `SapOne.Encoder.shows_of_add`, `SapOne.Encoder.shows_of_addAll` — the second pass makes the
  image show what the statements emit.
* `SapOne.Assembly.image_shows_last_emissions` — the image of a source program, cell by cell.
-/

namespace SapOne

/-! ## Emissions -/

/-- A value that a line puts at an address. -/
@[ext]
structure Emission where
  address : Nat
  value : Nat
  /-- The line, counted from zero. -/
  line : Nat
deriving DecidableEq

/-- The last emission at an address. -/
def Emission.lastAt (emissions : List Emission) (address : Nat) : Option Emission :=
  (emissions.filter (·.address = address)).getLast?

/-- The number of cells that a step moves the location counter past. -/
def Step.cells : Step → Nat
  | stay => 0
  | advance n => n
  | jump _ => 0

/-- The values of a statement, in the order of their addresses. -/
def Statement.values (t : Symbols) : Statement → Except Error (List Nat)
  | directive .org _ => .ok []
  | directive .segment _ => .ok []
  | directive .byte operand => Operand.items operand >>= fun items => items.mapM t.evaluate
  | instruction op operand =>
    if op.takesOperand then (t.evaluate operand).map fun value => [16 * op.code.toNat + value]
    else .ok [16 * op.code.toNat]

/-- A statement that has values has as many as its step has cells. -/
lemma Statement.length_of_values {t : Symbols} {s : Statement} {values : List Nat}
    (h : s.values t = .ok values) {step : Step} (hstep : s.step = .ok step) :
    values.length = step.cells := by
  match s with
  | .directive .org operand =>
    obtain ⟨a, -, rfl⟩ := Except.map_eq_ok_iff.1 hstep
    cases h
    rfl
  | .directive .segment operand =>
    cases h
    cases hstep
    rfl
  | .directive .byte operand =>
    obtain ⟨items, hitems, hvalues⟩ := Except.bind_eq_ok_iff.1 h
    obtain ⟨items', hitems', rfl⟩ := Except.map_eq_ok_iff.1 hstep
    rw [hitems] at hitems'
    cases hitems'
    exact Except.length_of_mapM_eq_ok hvalues
  | .instruction op operand =>
    cases hstep
    rw [Statement.values] at h
    split at h
    · obtain ⟨value, -, rfl⟩ := Except.map_eq_ok_iff.1 h
      rfl
    · cases h
      rfl

/-- The value of an instruction is the number of its byte. -/
lemma Statement.values_of_instructionByte {t : Symbols} {op : Opcode} {operand : Text}
    {byte : UInt8} (h : t.instructionByte op operand = .ok byte) :
    (instruction op operand).values t = .ok [byte.toNat] := by
  have hcode := op.toNat_code_lt
  rw [values]
  by_cases hop : op.takesOperand = true
  · rw [Symbols.instructionByte_of_takesOperand t hop, Except.bind_eq_ok_iff] at h
    obtain ⟨value, hvalue, h⟩ := h
    by_cases hlt : value < 16
    · rw [if_pos hlt] at h
      cases h
      have hsum : 16 * op.code.toNat + value < 256 := by omega
      rw [if_pos hop, hvalue, UInt8.toNat_ofNat_of_lt' hsum]
      rfl
    · rw [if_neg hlt] at h
      cases h
  · rw [Symbols.instructionByte_of_not_takesOperand t (by simpa using hop)] at h
    cases h
    have hsum : 16 * op.code.toNat < 256 := by omega
    rw [if_neg hop, UInt8.toNat_ofNat_of_lt' hsum]

namespace Numbered

/-- What a statement emits: its values, one cell each, from the location counter on. -/
def emissions (t : Symbols) (s : Numbered) (counter : Nat) : Except Error (List Emission) :=
  (s.statement.values t).map fun values =>
    (values.zipIdx counter).map fun (value, address) => ⟨address, value, s.line⟩

/-- What statements emit one after the other, walking with the location counter. -/
def emissionsAll (t : Symbols) (counter : Nat) : List Numbered → Except Error (List Emission)
  | [] => .ok []
  | s :: rest => do
    let first ← s.emissions t counter
    let next ← s.statement.advance counter
    let later ← emissionsAll t next rest
    .ok (first ++ later)

/-- The first statement emits its values, and the others theirs behind its step. -/
lemma emissionsAll_cons_eq_ok_iff {t : Symbols} {counter : Nat} {s : Numbered}
    {rest : List Numbered} {all : List Emission} :
    emissionsAll t counter (s :: rest) = .ok all ↔
      ∃ first next later, s.emissions t counter = .ok first ∧
        s.statement.advance counter = .ok next ∧ emissionsAll t next rest = .ok later ∧
        all = first ++ later := by
  rw [emissionsAll, Except.bind_eq_ok_iff]
  constructor
  · rintro ⟨first, hfirst, h⟩
    obtain ⟨next, hnext, h⟩ := Except.bind_eq_ok_iff.1 h
    obtain ⟨later, hlater, h⟩ := Except.bind_eq_ok_iff.1 h
    cases h
    exact ⟨first, next, later, hfirst, hnext, hlater, rfl⟩
  · rintro ⟨first, next, later, hfirst, hnext, hlater, rfl⟩
    exact ⟨first, hfirst, Except.bind_eq_ok_iff.2
      ⟨next, hnext, Except.bind_eq_ok_iff.2 ⟨later, hlater, rfl⟩⟩⟩

/-- Where statements emit something together, each one emits as many values as its step has
cells. -/
lemma length_emissions_of_mem {t : Symbols} {start : Nat} {statements : List Numbered}
    {all : List Emission} (h : emissionsAll t start statements = .ok all) {s : Numbered}
    (hs : s ∈ statements) (counter : Nat) :
    ∃ own step, s.emissions t counter = .ok own ∧ s.statement.step = .ok step ∧
      own.length = step.cells := by
  induction statements generalizing start all with
  | nil => cases hs
  | cons s' rest ih =>
    obtain ⟨first, next, later, hfirst, hnext, hlater, -⟩ := emissionsAll_cons_eq_ok_iff.1 h
    rcases List.mem_cons.1 hs with rfl | hs
    · obtain ⟨values, hvalues, -⟩ := Except.map_eq_ok_iff.1 hfirst
      obtain ⟨step, hstep, -⟩ := Except.bind_eq_ok_iff.1 hnext
      refine ⟨_, step, Except.map_eq_ok_iff.2 ⟨values, hvalues, rfl⟩, hstep, ?_⟩
      simp [Statement.length_of_values hvalues hstep]
    · exact ih hlater hs

end Numbered

/-! ## Images that show emissions -/

namespace Emission

/-- One more emission is the last one at its own address, and changes nothing elsewhere. -/
lemma lastAt_concat (emissions : List Emission) (e : Emission) (address : Nat) :
    lastAt (emissions ++ [e]) address =
      if e.address = address then some e else lastAt emissions address := by
  by_cases h : e.address = address
  · simp [lastAt, List.filter_append, h]
  · simp [lastAt, List.filter_append, h]

end Emission

namespace Image

/-- An image shows a list of emissions: all of them fit into the memory, and every cell has the
byte and the line of the last one at its address. Byte and line are stored apart, and it is this
that keeps them together. -/
structure Shows (m : Image) (emissions : List Emission) : Prop where
  /-- Every emission goes to a cell and has eight bits. -/
  fits : ∀ e ∈ emissions, e.address < memorySize ∧ e.value < 256
  /-- Every cell has the byte of the last emission at its address, or zero. -/
  byteAt_eq : ∀ address, m.byteAt address =
    (Emission.lastAt emissions address).elim 0 fun e => UInt8.ofNat e.value
  /-- Every cell has the line of the last emission at its address. -/
  lineAt_eq : ∀ address, m.lineAt address = (Emission.lastAt emissions address).map Emission.line

/-- A new image shows no emissions. -/
lemma shows_empty : empty.Shows [] where
  fits := by simp
  byteAt_eq address := congrArg Prod.fst (cellAt_empty address)
  lineAt_eq address := congrArg Prod.snd (cellAt_empty address)

/-- **A write makes an image show one more emission.** -/
theorem Shows.write {m n : Image} {emissions : List Emission} {address line : Nat}
    {byte : UInt8} (h : m.Shows emissions) (hwrite : m.write address byte line = .ok n) :
    n.Shows (emissions ++ [⟨address, byte.toNat, line⟩]) := by
  refine ⟨?_, ?_, ?_⟩
  · intro e he
    rcases List.mem_append.1 he with he | he
    · exact h.fits e he
    · obtain rfl := List.mem_singleton.1 he
      exact ⟨lt_of_write_eq_ok hwrite, byte.toNat_lt⟩
  -- byte and line are two stores, and both are seen at the address of the new emission only
  · intro x
    rw [byteAt_write hwrite, Emission.lastAt_concat]
    by_cases hx : x = address
    · rw [if_pos hx, if_pos hx.symm, Option.elim_some, UInt8.ofNat_toNat]
    · rw [if_neg hx, if_neg (Ne.symm hx), h.byteAt_eq]
  · intro x
    rw [lineAt_write hwrite, Emission.lastAt_concat]
    by_cases hx : x = address
    · rw [if_pos hx, if_pos hx.symm, Option.map_some]
    · rw [if_neg hx, if_neg (Ne.symm hx), h.lineAt_eq]

end Image

/-! ## The second pass shows what is emitted -/

namespace Encoder

variable {t : Symbols}

/-- Writing items shows their values, one cell after the other.

**Proof sketch.** Induction on the items, with any number of items before them: the first item
is written at that offset and shown by `Image.Shows.write`, and the others follow it. -/
lemma shows_of_writeItems {counter line : Nat} {items : List Text} (offset : Nat) {m n : Image}
    {emissions : List Emission} (hm : m.Shows emissions)
    (h : (items.zipIdx offset).foldlM
      (fun image (item, offset) => writeItem t counter line image item offset) m = .ok n) :
    ∃ values, items.mapM t.evaluate = .ok values ∧
      n.Shows (emissions ++ (values.zipIdx (counter + offset)).map
        fun (value, address) => ⟨address, value, line⟩) := by
  induction items generalizing offset m emissions with
  | nil =>
    cases h
    exact ⟨[], rfl, by simpa using hm⟩
  | cons item items ih =>
    rw [List.zipIdx_cons, List.foldlM_cons, Except.bind_eq_ok_iff] at h
    obtain ⟨m', hfirst, hrest⟩ := h
    obtain ⟨byte, hbyte, hwrite⟩ := writeItem_eq_ok_iff.1 hfirst
    obtain ⟨values, hvalues, hn⟩ := ih (offset + 1) (hm.write hwrite) hrest
    refine ⟨byte.toNat :: values, ?_, ?_⟩
    · exact Except.mapM_cons_eq_ok_iff.2
        ⟨byte.toNat, values, Symbols.itemByte_eq_ok_iff.1 hbyte, hvalues, rfl⟩
    · simpa [List.zipIdx_cons, Nat.add_assoc] using hn

/-- **One statement** makes the image show what it emits. -/
theorem shows_of_add {e e' : Encoder} {s : Numbered} {emissions : List Emission}
    (he : e.image.Shows emissions) (h : e.add t s = .ok e') :
    ∃ own, s.emissions t e.counter = .ok own ∧ e'.image.Shows (emissions ++ own) := by
  obtain ⟨hwrite, -⟩ := add_eq_ok_iff.1 h
  obtain ⟨line, statement⟩ := s
  simp only [Numbered.emissions, Except.map_eq_ok_iff]
  match statement with
  | .directive .org operand =>
    have hsame : e.image = e'.image := by simpa [write] using hwrite
    exact ⟨_, ⟨[], rfl, rfl⟩, by simpa [← hsame] using he⟩
  | .directive .segment operand =>
    have hsame : e.image = e'.image := by simpa [write] using hwrite
    exact ⟨_, ⟨[], rfl, rfl⟩, by simpa [← hsame] using he⟩
  | .directive .byte operand =>
    obtain ⟨items, hitems, hwrite⟩ := Except.bind_eq_ok_iff.1 hwrite
    obtain ⟨values, hvalues, hshows⟩ := shows_of_writeItems 0 he hwrite
    exact ⟨_, ⟨values, Except.bind_eq_ok_iff.2 ⟨items, hitems, hvalues⟩, rfl⟩, hshows⟩
  | .instruction op operand =>
    obtain ⟨byte, hbyte, hwrite⟩ := Except.bind_eq_ok_iff.1 hwrite
    exact ⟨_, ⟨[byte.toNat], Statement.values_of_instructionByte hbyte, rfl⟩, he.write hwrite⟩

/-- **A run of the second pass** makes the image show what the statements emit, walking with the
location counter. -/
theorem shows_of_addAll {e e' : Encoder} {statements : List Numbered}
    {emissions : List Emission} (he : e.image.Shows emissions)
    (h : e.addAll t statements = .ok e') :
    ∃ own, Numbered.emissionsAll t e.counter statements = .ok own ∧
      e'.image.Shows (emissions ++ own) := by
  induction statements generalizing e emissions with
  | nil =>
    cases h
    exact ⟨[], rfl, by simpa using he⟩
  | cons s rest ih =>
    obtain ⟨m, hm, hrest⟩ := addAll_cons_eq_ok_iff.1 h
    obtain ⟨first, hfirst, hshows⟩ := shows_of_add he hm
    obtain ⟨later, hlater, hshows⟩ := ih hshows hrest
    refine ⟨first ++ later, ?_, by simpa using hshows⟩
    exact Numbered.emissionsAll_cons_eq_ok_iff.2
      ⟨first, m.counter, later, hfirst, (add_eq_ok_iff.1 hm).2, hlater, rfl⟩

end Encoder

/-! ## The image of a source program -/

namespace Image

/-- A cell of an image that shows emissions has the byte and the line of the last one. -/
lemma Shows.cell_of_lastAt {m : Image} {emissions : List Emission} (h : m.Shows emissions)
    {address : Nat} {e : Emission} (he : Emission.lastAt emissions address = some e) :
    (m.byteAt address).toNat = e.value ∧ m.lineAt address = some e.line := by
  have hmem : e ∈ emissions := List.mem_of_mem_filter (List.mem_of_getLast? he)
  rw [h.byteAt_eq, h.lineAt_eq, he, Option.elim_some, Option.map_some,
    UInt8.toNat_ofNat_of_lt' (h.fits e hmem).2]
  exact ⟨rfl, rfl⟩

/-- A cell to which no emission goes is zero and has no line. -/
lemma Shows.cell_of_lastAt_eq_none {m : Image} {emissions : List Emission}
    (h : m.Shows emissions) {address : Nat} (hnone : Emission.lastAt emissions address = none) :
    m.byteAt address = 0 ∧ m.lineAt address = none := by
  rw [h.byteAt_eq, h.lineAt_eq, hnone]
  exact ⟨rfl, rfl⟩

end Image

namespace Assembly

/-- A source assembles if the first pass reads it and the second one encodes what it has read. -/
lemma ofSource_eq_ok_iff {source : List Text} {a : Assembly} :
    ofSource source = .ok a ↔
      Program.ofSource source = .ok a.toProgram ∧ a.toProgram.encode = .ok a.image := by
  rw [ofSource, Except.bind_eq_ok_iff]
  constructor
  · rintro ⟨p, hp, h⟩
    obtain ⟨image, himage, h⟩ := Except.bind_eq_ok_iff.1 h
    cases h
    exact ⟨hp, himage⟩
  · rintro ⟨hp, himage⟩
    exact ⟨a.toProgram, hp, Except.bind_eq_ok_iff.2 ⟨a.image, himage, rfl⟩⟩

/-- **The image is exactly what the last writers say.** Every source program that assembles
emits a list of values, walking its statements with the location counter. Each statement emits
as many values as its step has cells, and every value goes to a cell of the memory. The cell at
an address has the value and the line of the last emission there; if there is none, it is zero
and has no line. -/
theorem image_shows_last_emissions {source : List Text} {a : Assembly}
    (h : ofSource source = .ok a) :
    ∃ emissions, Numbered.emissionsAll a.symbols 0 a.statements = .ok emissions ∧
      (∀ s ∈ a.statements, ∀ counter, ∃ own step, s.emissions a.symbols counter = .ok own ∧
        s.statement.step = .ok step ∧ own.length = step.cells) ∧
      (∀ e ∈ emissions, e.address < memorySize) ∧
      ∀ address < memorySize,
        (∀ e, Emission.lastAt emissions address = some e →
          a.image.bytes[address]?.map UInt8.toNat = some e.value ∧
            a.image.lineAt address = some e.line) ∧
        ((∀ e ∈ emissions, e.address ≠ address) →
          a.image.bytes[address]? = some 0 ∧ a.image.lineAt address = none) := by
  obtain ⟨-, himage⟩ := ofSource_eq_ok_iff.1 h
  obtain ⟨final, hrun, hfinal⟩ := Except.map_eq_ok_iff.1 himage
  obtain ⟨emissions, hemissions, hshows⟩ := Encoder.shows_of_addAll Image.shows_empty hrun
  rw [hfinal, List.nil_append] at hshows
  refine ⟨emissions, hemissions, ?_, fun e he => (hshows.fits e he).1, ?_⟩
  · intro s hs counter
    exact Numbered.length_emissions_of_mem hemissions hs counter
  · intro address haddress
    rw [Image.getElem?_bytes _ haddress]
    refine ⟨?_, ?_⟩
    · intro e he
      obtain ⟨hbyte, hline⟩ := hshows.cell_of_lastAt he
      exact ⟨by rw [Option.map_some, hbyte], hline⟩
    · intro hnone
      have hlast : Emission.lastAt emissions address = none := by
        rw [Emission.lastAt, List.getLast?_eq_none_iff, List.filter_eq_nil_iff]
        simpa using hnone
      obtain ⟨hbyte, hline⟩ := hshows.cell_of_lastAt_eq_none hlast
      exact ⟨by rw [hbyte], hline⟩

/-- A source program that overwrites its first cell: the image has the later value there. -/
theorem image_shows_overwritten_cell :
    ∃ a emissions, ofSource ["ldi 1".toList, "x: .byte x, 2".toList, ".org 0".toList,
        "hlt 7".toList] = .ok a ∧
      Numbered.emissionsAll a.symbols 0 a.statements = .ok emissions ∧
      emissions = [⟨0, 0x51, 0⟩, ⟨1, 1, 1⟩, ⟨2, 2, 1⟩, ⟨0, 0xF0, 3⟩] ∧
      a.image.bytes[0]?.map UInt8.toNat = some 0xF0 ∧ a.image.lineAt 0 = some 3 := by
  have h : ofSource ["ldi 1".toList, "x: .byte x, 2".toList, ".org 0".toList,
      "hlt 7".toList] =
      .ok ⟨⟨⟨[⟨"x".toList, 1, 1⟩]⟩,
          [⟨0, .instruction .ldi "1".toList⟩, ⟨1, .directive .byte "x, 2".toList⟩,
            ⟨2, .directive .org "0".toList⟩, ⟨3, .instruction .hlt "7".toList⟩]⟩,
        ⟨#v[0xF0, 1, 2, 0, 0, 0, 0, 0, 0, 0, 0, 0, 0, 0, 0, 0],
          #v[some 3, some 1, some 1, none, none, none, none, none, none, none, none, none, none,
            none, none, none]⟩⟩ := by
    decide +kernel
  obtain ⟨emissions, hemissions, -, -, hcells⟩ := image_shows_last_emissions h
  have hlist : emissions = [⟨0, 0x51, 0⟩, ⟨1, 1, 1⟩, ⟨2, 2, 1⟩, ⟨0, 0xF0, 3⟩] := by
    refine Except.ok.inj (hemissions.symm.trans ?_)
    decide +kernel
  obtain ⟨hbyte, hline⟩ := (hcells 0 (by decide)).1 ⟨0, 0xF0, 3⟩ (by rw [hlist]; decide)
  exact ⟨_, emissions, h, hemissions, hlist, hbyte, hline⟩

end Assembly

end SapOne

import SapOne.Error

set_option relaxedAutoImplicit false
set_option autoImplicit false

/-!
# Memory images

The machine has sixteen memory cells. An image has, for each cell, the byte that was last written
there, and apart from it the line of the source that wrote it. A cell that was never written is
zero and has no line. A write makes two stores, one of the byte and one of the line; that both
always come from the same write is not a property of the type but of the writes.

## Main definitions

* `SapOne.Image` — the memory after some writes, `SapOne.Image.empty` before any.
* `SapOne.Image.storeByte`, `SapOne.Image.storeLine` — the two stores of a write.
* `SapOne.Image.write` — writes a cell, or reports an address outside the memory.
* `SapOne.Image.byteAt`, `SapOne.Image.lineAt` — what a cell holds and which line wrote it;
  `SapOne.Image.cellAt` — both.
* `SapOne.Image.toHex` — the image as the output file has it.

## Main results

* `SapOne.Image.byteAt_write`, `SapOne.Image.lineAt_write` — a write is seen at its own address and
  nowhere else, with its byte and with its line.
* `SapOne.Image.write_eq_error_iff` — a write fails exactly outside the memory.
-/

namespace SapOne

/-- The number of memory cells. -/
abbrev memorySize : Nat := 16

/-- The memory of the machine after some writes. -/
@[ext]
structure Image where
  /-- The byte of each cell. -/
  cells : Vector UInt8 memorySize
  /-- The line that wrote each cell, counted from zero, if there is one. -/
  origins : Vector (Option Nat) memorySize
deriving DecidableEq

namespace Image

/-- The image that nothing was written to. -/
def empty : Image := ⟨Vector.replicate memorySize 0, Vector.replicate memorySize none⟩

/-- The byte at an address, zero outside the memory. -/
def byteAt (m : Image) (address : Nat) : UInt8 :=
  m.cells[address]?.getD 0

/-- The line that wrote the byte at an address. -/
def lineAt (m : Image) (address : Nat) : Option Nat :=
  m.origins[address]?.join

/-- What an image has at an address: the byte, and the line that wrote it. -/
def cellAt (m : Image) (address : Nat) : UInt8 × Option Nat :=
  (m.byteAt address, m.lineAt address)

/-- Stores the byte of a cell, and leaves its line as it is. -/
def storeByte (m : Image) (address : Nat) (byte : UInt8) (h : address < memorySize) : Image :=
  { m with cells := m.cells.set address byte h }

/-- Stores the line of a cell, and leaves its byte as it is. -/
def storeLine (m : Image) (address line : Nat) (h : address < memorySize) : Image :=
  { m with origins := m.origins.set address (some line) h }

/-- Writes one cell, replacing what was there: first the byte, then the line. -/
def write (m : Image) (address : Nat) (byte : UInt8) (line : Nat) : Except Error Image :=
  if h : address < memorySize then .ok ((m.storeByte address byte h).storeLine address line h)
  else .error (.addressOutOfRange address)

/-- The bytes of all cells, in the order of addresses. -/
def bytes (m : Image) : List UInt8 :=
  m.cells.toList

/-- Two digits of base sixteen. -/
def hexByte (b : UInt8) : Text :=
  (Numeral.hex b.toNat).leftpad 2 '0'

/-- The image as the output file has it: two digits for each cell, and a space between two
cells. -/
def toHex (m : Image) : Text :=
  [' '].intercalate (m.bytes.map hexByte)

/-- In a new image every cell is zero and has no line. -/
@[simp]
theorem cellAt_empty (a : Nat) : empty.cellAt a = (0, none) := by
  by_cases h : a < memorySize
  · simp [empty, cellAt, byteAt, lineAt, h]
  · simp [empty, cellAt, byteAt, lineAt, h]

/-- There is no line outside the memory. -/
theorem lineAt_eq_none_of_le (m : Image) {a : Nat} (h : memorySize ≤ a) : m.lineAt a = none := by
  simp [lineAt, Vector.getElem?_eq_none h]

/-! ## The two stores -/

/-- A byte that is stored is seen at its own address and nowhere else. -/
theorem byteAt_storeByte (m : Image) {a : Nat} (h : a < memorySize) (b : UInt8) (x : Nat) :
    (m.storeByte a b h).byteAt x = if x = a then b else m.byteAt x := by
  by_cases hx : x = a
  · subst hx
    simp [storeByte, byteAt]
  · have : a ≠ x := fun e => hx e.symm
    simp [storeByte, byteAt, hx, Vector.getElem?_set_ne, this]

/-- Storing a byte leaves all lines as they are. -/
theorem lineAt_storeByte (m : Image) {a : Nat} (h : a < memorySize) (b : UInt8) (x : Nat) :
    (m.storeByte a b h).lineAt x = m.lineAt x := rfl

/-- A line that is stored is seen at its own address and nowhere else. -/
theorem lineAt_storeLine (m : Image) {a : Nat} (h : a < memorySize) (l x : Nat) :
    (m.storeLine a l h).lineAt x = if x = a then some l else m.lineAt x := by
  by_cases hx : x = a
  · subst hx
    simp [storeLine, lineAt]
  · have : a ≠ x := fun e => hx e.symm
    simp [storeLine, lineAt, hx, Vector.getElem?_set_ne, this]

/-- Storing a line leaves all bytes as they are. -/
theorem byteAt_storeLine (m : Image) {a : Nat} (h : a < memorySize) (l x : Nat) :
    (m.storeLine a l h).byteAt x = m.byteAt x := rfl

/-! ## Writes -/

/-- A write fails exactly outside the memory. -/
theorem write_eq_error_iff {m : Image} {a : Nat} {b : UInt8} {l : Nat} {e : Error} :
    m.write a b l = .error e ↔ memorySize ≤ a ∧ e = .addressOutOfRange a := by
  unfold write
  split
  · next h => simp; omega
  · next h => simp [eq_comm]; omega

/-- A write inside the memory makes both stores. -/
theorem write_of_lt (m : Image) {a : Nat} (h : a < memorySize) (b : UInt8) (l : Nat) :
    m.write a b l = .ok ((m.storeByte a b h).storeLine a l h) := by
  simp [write, h]

/-- A write that succeeds is inside the memory, and has made both stores. -/
theorem write_eq_ok_iff {m n : Image} {a : Nat} {b : UInt8} {l : Nat} :
    m.write a b l = .ok n ↔
      ∃ h : a < memorySize, n = (m.storeByte a b h).storeLine a l h := by
  unfold write
  split
  · next h => simp [h, eq_comm]
  · next h => simp [h]

/-- The byte of a write is seen at its own address and nowhere else. -/
theorem byteAt_write {m n : Image} {a : Nat} {b : UInt8} {l : Nat} (h : m.write a b l = .ok n)
    (x : Nat) : n.byteAt x = if x = a then b else m.byteAt x := by
  obtain ⟨ha, rfl⟩ := write_eq_ok_iff.1 h
  rw [byteAt_storeLine, byteAt_storeByte]

/-- The line of a write is seen at its own address and nowhere else. -/
theorem lineAt_write {m n : Image} {a : Nat} {b : UInt8} {l : Nat} (h : m.write a b l = .ok n)
    (x : Nat) : n.lineAt x = if x = a then some l else m.lineAt x := by
  obtain ⟨ha, rfl⟩ := write_eq_ok_iff.1 h
  rw [lineAt_storeLine, lineAt_storeByte]

/-- A write is seen at its own address and nowhere else. -/
theorem cellAt_write {m n : Image} {a : Nat} {b : UInt8} {l : Nat} (h : m.write a b l = .ok n)
    (x : Nat) : n.cellAt x = if x = a then (b, some l) else m.cellAt x := by
  rw [cellAt, byteAt_write h, lineAt_write h]
  split <;> rfl

/-- Images that agree on every cell are equal. -/
theorem ext_cellAt {m n : Image} (h : ∀ a < memorySize, m.cellAt a = n.cellAt a) : m = n := by
  ext a ha : 2
  · have := congrArg Prod.fst (h a ha)
    simpa [cellAt, byteAt, Vector.getElem?_eq_getElem ha] using this
  · have := congrArg Prod.snd (h a ha)
    simpa [cellAt, lineAt, Vector.getElem?_eq_getElem ha] using this

/-! ## The bytes of an image -/

/-- There is a byte for each cell. -/
@[simp]
theorem length_bytes (m : Image) : m.bytes.length = memorySize := by
  simp [bytes]

/-- The bytes are those of the cells. -/
theorem getElem?_bytes (m : Image) {a : Nat} (h : a < memorySize) :
    m.bytes[a]? = some (m.byteAt a) := by
  simp [bytes, byteAt, h]

/-- Images that agree on the byte of every cell have the same bytes. -/
theorem bytes_congr {m n : Image} (h : ∀ a, m.byteAt a = n.byteAt a) : m.bytes = n.bytes := by
  apply List.ext_getElem?
  intro a
  by_cases ha : a < memorySize
  · rw [getElem?_bytes m ha, getElem?_bytes n ha, h]
  · rw [List.getElem?_eq_none (by simpa using ha), List.getElem?_eq_none (by simpa using ha)]

end Image

end SapOne

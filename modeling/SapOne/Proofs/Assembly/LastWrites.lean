import SapOne.Proofs.Assembly.Emission

set_option relaxedAutoImplicit false
set_option autoImplicit false

/-!
# Last writes

An image is written to in any order and at any address: writes to new cells, writes over older ones
and writes outside the memory may follow each other. Whatever happened, the image is a function of
the writes that succeeded so far: each cell has the byte and the line of the last one at its
address, both from the same write, and a write that was refused has left no trace.

## Main definitions

* `SapOne.Image.Write`, `SapOne.Image.perform` — a write, and what an image does with it.
* `SapOne.Image.performAll`, `SapOne.Image.after` — writes one after the other, and a new image
  after them.
* `SapOne.Image.successes` — those of the writes that succeed.

## Main results

* `SapOne.Image.perform_cases` — what one write can do.
* `SapOne.Image.Shows.performAll` — writes one after the other make an image show those that
  succeed.
* `SapOne.Image.keeps_last_writes` — what a new image has in its cells after any writes.
-/

namespace SapOne

/-- The last emission at an address, with what comes before and behind it. -/
lemma Emission.lastAt_append_cons (before : List Emission) {e : Emission} {later : List Emission}
    (h : ∀ x ∈ later, x.address ≠ e.address) :
    lastAt (before ++ e :: later) e.address = some e := by
  have hlater : later.filter (·.address = e.address) = [] := by
    simpa [List.filter_eq_nil_iff] using h
  simp [lastAt, List.filter_append, hlater]

namespace Image

/-! ## Writes -/

/-- A write that an image is asked for. -/
@[ext]
structure Write where
  /-- The address, which may be outside the memory. -/
  address : Nat
  /-- The byte. -/
  byte : UInt8
  /-- The line, counted from zero. -/
  line : Nat
deriving DecidableEq

/-- What a write that succeeds puts at its address. -/
def Write.emission (w : Write) : Emission := ⟨w.address, w.byte.toNat, w.line⟩

/-- The answer to a write, and the image after it. -/
def perform (m : Image) (w : Write) : Except Error Unit × Image :=
  match m.write w.address w.byte w.line with
  | .ok n => (.ok (), n)
  | .error e => (.error e, m)

/-- An image after writes one after the other. -/
def performAll (m : Image) (writes : List Write) : Image :=
  writes.foldl (fun m w => (m.perform w).2) m

/-- A new image after writes one after the other. -/
def after (writes : List Write) : Image :=
  empty.performAll writes

/-- Those of writes one after the other that succeed. -/
def successes (m : Image) : List Write → List Write
  | [] => []
  | w :: rest =>
    match m.perform w with
    | (.ok (), n) => w :: successes n rest
    | (.error _, n) => successes n rest

/-! ## One write and many -/

variable {m : Image} {emissions : List Emission}

/-- **What one write can do**: inside the memory it is done, and outside it is refused and changes
nothing. -/
lemma perform_cases (m : Image) (w : Write) :
    (w.address < memorySize ∧
      ∃ n, m.write w.address w.byte w.line = .ok n ∧ m.perform w = (.ok (), n)) ∨
    (memorySize ≤ w.address ∧ m.perform w = (.error (.addressOutOfRange w.address), m)) := by
  unfold perform
  cases hwrite : m.write w.address w.byte w.line with
  | ok n => exact Or.inl ⟨lt_of_write_eq_ok hwrite, n, rfl, rfl⟩
  | error e =>
    obtain ⟨hle, rfl⟩ := write_eq_error_iff.1 hwrite
    exact Or.inr ⟨hle, rfl⟩

/-- The first write is performed, and then the others. -/
lemma performAll_cons (m : Image) (w : Write) (rest : List Write) :
    m.performAll (w :: rest) = (m.perform w).2.performAll rest := rfl

/-- **Writes one after the other** make an image show those that succeed. -/
theorem Shows.performAll (h : m.Shows emissions) (writes : List Write) :
    (m.performAll writes).Shows (emissions ++ (successes m writes).map Write.emission) := by
  induction writes generalizing m emissions with
  | nil => simpa [Image.performAll, successes] using h
  | cons w rest ih =>
    rw [performAll_cons, successes]
    rcases perform_cases m w with ⟨-, n, hwrite, hperform⟩ | ⟨-, hperform⟩
    · rw [hperform]
      simpa [Write.emission] using ih (h.write hwrite)
    · rw [hperform]
      exact ih h

/-- A new image shows the writes that succeed, after any writes. -/
lemma shows_after (writes : List Write) :
    (after writes).Shows ((successes empty writes).map Write.emission) := by
  simpa [after] using shows_empty.performAll writes

/-! ## Cells -/

/-- The last write at an address is in the cell, as a whole. -/
lemma Shows.cell_of_last {before later : List Write} {w : Write}
    (h : m.Shows ((before ++ w :: later).map Write.emission))
    (hlater : ∀ v ∈ later, v.address ≠ w.address) :
    w.address < memorySize ∧ m.bytes[w.address]? = some w.byte ∧
      m.lineAt w.address = some w.line := by
  have hmem : w.emission ∈ (before ++ w :: later).map Write.emission :=
    List.mem_map_of_mem (by simp)
  have hlt : w.address < memorySize := (h.fits _ hmem).1
  have hlast : Emission.lastAt ((before ++ w :: later).map Write.emission) w.address =
      some w.emission := by
    rw [List.map_append, List.map_cons]
    apply Emission.lastAt_append_cons (e := w.emission)
    intro x hx
    obtain ⟨v, hv, rfl⟩ := List.mem_map.1 hx
    exact hlater v hv
  obtain ⟨hbyte, hline⟩ := h.cell_of_lastAt hlast
  refine ⟨hlt, ?_, hline⟩
  rw [getElem?_bytes m hlt, UInt8.toNat_inj.1 hbyte]

/-- A cell that no write has reached is as it was in a new image. -/
lemma Shows.cell_of_forall_ne {writes : List Write} (h : m.Shows (writes.map Write.emission))
    {a : Nat} (ha : a < memorySize) (hnone : ∀ w ∈ writes, w.address ≠ a) :
    m.bytes[a]? = some 0 ∧ m.lineAt a = none := by
  have hlast : Emission.lastAt (writes.map Write.emission) a = none := by
    simpa [Emission.lastAt, List.filter_eq_nil_iff, Write.emission] using hnone
  obtain ⟨hbyte, hline⟩ := h.cell_of_lastAt_eq_none hlast
  exact ⟨by rw [getElem?_bytes m ha, hbyte], hline⟩

/-- A cell that shows no line shows no emission either, and so has never been written. -/
lemma Shows.lastAt_eq_none_of_lineAt (h : m.Shows emissions) {a : Nat} (hnone : m.lineAt a = none) :
    Emission.lastAt emissions a = none := by
  rw [h.lineAt_eq] at hnone
  exact Option.map_eq_none_iff.1 hnone

/-- **No byte without its line**: through all writes, the byte and the line of a cell agree on
whether the cell was written. -/
lemma Shows.getElem?_bytes_of_lineAt (h : m.Shows emissions) {a : Nat} (ha : a < memorySize)
    (hnone : m.lineAt a = none) : m.bytes[a]? = some 0 := by
  have hlast := h.lastAt_eq_none_of_lineAt hnone
  rw [getElem?_bytes m ha, (h.cell_of_lastAt_eq_none hlast).1]

/-- Of an image that was not made by writes this is not true: a byte can be stored without a
line. -/
example : ∃ m : Image, m.lineAt 3 = none ∧ m.byteAt 3 = 0x1F :=
  ⟨empty.storeByte 3 0x1F (by decide), by decide, by decide⟩

/-- **An image keeps last writes, through any run.** Take a new image, any writes one after the
other, and one write more. It succeeds exactly inside the memory; outside it is refused with its
address and leaves the image as it is. A cell that was written with success has the byte and the
line of the last such write, and any other cell is zero and has no line. So a cell without a line is
zero, while a zero that was written has its line. There is no line outside the memory. -/
theorem keeps_last_writes (writes : List Write) :
    (∀ w : Write,
      (((after writes).perform w).1 = .ok () ↔ w.address < memorySize) ∧
      (memorySize ≤ w.address →
        (after writes).perform w = (.error (.addressOutOfRange w.address), after writes))) ∧
    (∀ before w later, successes empty writes = before ++ w :: later →
      (∀ v ∈ later, v.address ≠ w.address) →
      w.address < memorySize ∧ (after writes).bytes[w.address]? = some w.byte ∧
        (after writes).lineAt w.address = some w.line) ∧
    (∀ a < memorySize, (∀ w ∈ successes empty writes, w.address ≠ a) →
      (after writes).bytes[a]? = some 0 ∧ (after writes).lineAt a = none) ∧
    (∀ a < memorySize, (after writes).lineAt a = none → (after writes).bytes[a]? = some 0) ∧
    ∀ a, memorySize ≤ a → (after writes).lineAt a = none := by
  have hshows := shows_after writes
  generalize after writes = m at hshows
  generalize successes empty writes = done at hshows
  refine ⟨?_, ?_, ?_, ?_, ?_⟩
  · intro w
    rcases perform_cases m w with ⟨hlt, n, -, hperform⟩ | ⟨hle, hperform⟩
    · rw [hperform]
      exact ⟨by simp [hlt], fun hle => absurd hle (Nat.not_le.2 hlt)⟩
    · rw [hperform]
      exact ⟨by simp [hle], fun _ => rfl⟩
  · rintro before w later rfl hlater
    exact hshows.cell_of_last hlater
  · intro a ha hnone
    exact hshows.cell_of_forall_ne ha hnone
  · intro a ha hnone
    exact hshows.getElem?_bytes_of_lineAt ha hnone
  · intro a ha
    exact m.lineAt_eq_none_of_le ha

/-- A cell that is written over with a zero, and writes right behind the memory and as far from it
as an address can be. -/
theorem keeps_last_writes_of_zero :
    ∃ writes : List Write,
      writes = [⟨3, 0x1F, 0⟩, ⟨15, 0xAB, 1⟩, ⟨16, 7, 2⟩, ⟨3, 0, 3⟩,
        ⟨0xFFFFFFFFFFFFFFFF, 9, 4⟩] ∧
      (after writes).bytes[3]? = some 0 ∧ (after writes).lineAt 3 = some 3 ∧
      (after writes).bytes[4]? = some 0 ∧ (after writes).lineAt 4 = none ∧
      (after writes).lineAt 16 = none ∧
      (after writes).perform ⟨0xFFFFFFFFFFFFFFFF, 1, 5⟩ =
        (.error (.addressOutOfRange 0xFFFFFFFFFFFFFFFF), after writes) := by
  refine ⟨_, rfl, ?_⟩
  generalize hwrites : ([⟨3, 0x1F, 0⟩, ⟨15, 0xAB, 1⟩, ⟨16, 7, 2⟩, ⟨3, 0, 3⟩,
    ⟨0xFFFFFFFFFFFFFFFF, 9, 4⟩] : List Write) = writes
  have hsuccesses : successes empty writes =
      [⟨3, 0x1F, 0⟩, ⟨15, 0xAB, 1⟩, ⟨3, 0, 3⟩] := by
    rw [← hwrites]
    decide
  obtain ⟨hone, hlast, hnone, -, houtside⟩ := keeps_last_writes writes
  rw [hsuccesses] at hlast hnone
  obtain ⟨-, hbyte, hline⟩ := hlast [⟨3, 0x1F, 0⟩, ⟨15, 0xAB, 1⟩] ⟨3, 0, 3⟩ [] rfl (by simp)
  obtain ⟨hzero, hempty⟩ := hnone 4 (by decide) (by decide)
  exact ⟨hbyte, hline, hzero, hempty, houtside 16 (by decide), (hone _).2 (by decide)⟩

end Image

end SapOne

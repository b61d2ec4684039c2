import SapOne.Proofs.Assembly.Contents

set_option relaxedAutoImplicit false
set_option autoImplicit false

/-!
# The output reads back

The output of the assembler is a row of sixteen groups of two digits, one for each cell. A dollar
sign in front of a group makes it a numeral, and the numerals with commas between them make a list
of bytes. The source that consists of this list alone is assembled to the memory that was written
out.

## Main results

* `SapOne.Image.hexByte_eq`, `SapOne.Image.denotes_hexByte` — the two digits of a byte, and that
  they denote it.
* `SapOne.Image.split_toHex` — the groups of the output are those of the bytes.
* `SapOne.Encoder.writeItems_of_itemByte` — a run over items that stand for bytes.
* `SapOne.assemble_byteLine`, `SapOne.assemble_numerals` — a list that fills the memory is assembled
  to its bytes.
* `SapOne.Image.toHex_reads_back` — the output reads back as the memory.
-/

namespace SapOne

open Grammar

/-! ## Groups of digits -/

namespace Image

/-- The two digits of a byte are those of its upper and of its lower half. -/
lemma hexByte_eq (b : UInt8) :
    hexByte b = [Nat.digitChar (b.toNat / 16), Nat.digitChar (b.toNat % 16)] := by
  have hb := b.toNat_lt
  rw [hexByte, Numeral.hex, Nat.toDigits_eq_if (by decide)]
  split
  · next hsmall => simp [List.leftpad, Nat.div_eq_of_lt hsmall, Nat.mod_eq_of_lt hsmall]
  · have hhigh : b.toNat / 16 < 16 := by omega
    rw [Nat.toDigits_of_lt_base hhigh]
    rfl

/-- The group of a byte has two digits. -/
lemma length_hexByte (b : UInt8) : (hexByte b).length = 2 := by
  rw [hexByte_eq]
  rfl

/-- **A group is the numeral of its byte.** -/
lemma denotes_hexByte (b : UInt8) : Numeral.Denotes ('$' :: hexByte b) b.toNat := by
  have hb := b.toNat_lt
  have hhigh : b.toNat / 16 < 16 := by omega
  have hlow : b.toNat % 16 < 16 := by omega
  have hdigits : ∀ c ∈ hexByte b, Numeral.isHexDigit c = true := by
    rw [hexByte_eq]
    simp [Numeral.isHexDigit_digitChar hhigh, Numeral.isHexDigit_digitChar hlow]
  have hvalue : Numeral.value 16 (hexByte b) = b.toNat := by
    rw [hexByte_eq]
    simp only [Numeral.value, List.foldl_cons, List.foldl_nil, Numeral.digitValue_digitChar hhigh,
      Numeral.digitValue_digitChar hlow]
    omega
  have hdenotes := Numeral.Denotes.hex (by simp [hexByte_eq]) hdigits
  rwa [hvalue] at hdenotes

/-- A group has the digits of base sixteen, in small letters. -/
lemma mem_digits_of_mem_hexByte {b : UInt8} {c : Char} (h : c ∈ hexByte b) :
    c ∈ "0123456789abcdef".toList := by
  have hdigit : ∀ d < 16, Nat.digitChar d ∈ "0123456789abcdef".toList := by decide
  have hb := b.toNat_lt
  rw [hexByte_eq, List.mem_cons, List.mem_singleton] at h
  rcases h with rfl | rfl
  · exact hdigit _ (by omega)
  · exact hdigit _ (by omega)

/-- Bytes with the same group are the same, because the group denotes both. -/
lemma hexByte_injective : Function.Injective hexByte := by
  intro a b h
  have ha := Numeral.read?_eq_some_iff.2 (denotes_hexByte a)
  rw [h, Numeral.read?_eq_some_iff.2 (denotes_hexByte b)] at ha
  exact UInt8.toNat_inj.1 (Option.some.inj ha).symm

/-- An image has bytes. -/
lemma bytes_ne_nil (m : Image) : m.bytes ≠ [] := by
  intro h
  have hlength := m.length_bytes
  rw [h] at hlength
  cases hlength

/-- **The groups of the output are those of the bytes.** -/
lemma split_toHex (m : Image) : Text.split ' ' m.toHex = m.bytes.map hexByte := by
  refine Text.split_intercalate (by simpa using m.bytes_ne_nil) ?_
  intro g hg hspace
  obtain ⟨b, -, rfl⟩ := List.mem_map.1 hg
  exact absurd (mem_digits_of_mem_hexByte hspace) (by decide)

/-- The output has sixteen groups of two digits, and fifteen spaces between them. -/
lemma length_toHex (m : Image) : m.toHex.length = 47 := by
  have hgroups : ∀ group ∈ m.bytes.map hexByte, group.length = 2 := by
    intro group hgroup
    obtain ⟨b, -, rfl⟩ := List.mem_map.1 hgroup
    exact length_hexByte b
  have hsum := Text.length_intercalate ' ' (by simpa using m.bytes_ne_nil) hgroups
  rw [List.length_map, length_bytes] at hsum
  have hall : m.toHex.length + 1 = 48 := hsum
  omega

/-- The output is a single line. -/
lemma lineFeed_not_mem_toHex (m : Image) : '\n' ∉ m.toHex := by
  intro hmem
  rcases Text.eq_or_mem_of_mem_intercalate hmem with hspace | ⟨group, hgroup, hc⟩
  · cases hspace
  · obtain ⟨b, -, rfl⟩ := List.mem_map.1 hgroup
    exact absurd (mem_digits_of_mem_hexByte hc) (by decide)

/-- Only the same bytes have the same output. -/
lemma bytes_eq_of_toHex_eq {m n : Image} (h : n.toHex = m.toHex) : n.bytes = m.bytes := by
  have hgroups : n.bytes.map hexByte = m.bytes.map hexByte := by
    rw [← split_toHex, ← split_toHex, h]
  exact List.map_injective_iff.2 hexByte_injective hgroups

end Image

/-! ## A list that fills the memory -/

namespace Encoder

variable {t : Symbols} {items : List Text} {bs : List UInt8}

/-- **Items that stand for bytes** are written one behind the other, and all other cells stay as
they are.

**Proof sketch.** Induction on the items, with any number of items before them. The first one is
written to a cell to which the others do not come again. -/
theorem writeItems_of_itemByte (h : List.Forall₂ (fun item b => t.itemByte item = .ok b) items bs)
    {counter : Nat} (line offset : Nat) (hfit : counter + offset + bs.length ≤ memorySize)
    (m : Image) :
    ∃ n, (items.zipIdx offset).foldlM
        (fun image (item, offset) => writeItem t counter line image item offset) m = .ok n ∧
      (∀ i b, bs[i]? = some b → n.cellAt (counter + offset + i) = (b, some line)) ∧
      ∀ a, a < counter + offset ∨ counter + offset + bs.length ≤ a → n.cellAt a = m.cellAt a := by
  induction h generalizing offset m with
  | nil => exact ⟨m, rfl, by simp, fun a _ => rfl⟩
  | @cons item b items bs hitem _ ih =>
    rw [List.length_cons] at hfit
    have hcell : counter + offset < memorySize := by omega
    obtain ⟨m', hwrite⟩ := m.exists_write_eq_ok hcell b line
    obtain ⟨n, hrun, hinside, houtside⟩ := ih (offset + 1) (by omega) m'
    refine ⟨n, ?_, Image.cellAt_of_write_first hwrite hinside houtside⟩
    rw [List.zipIdx_cons, List.foldlM_cons, Except.bind_eq_ok_iff]
    exact ⟨m', (writeItem_of_itemByte hitem hcell line m).trans hwrite, hrun⟩

end Encoder

/-- A list that fills the memory is assembled to its bytes. -/
theorem assemble_byteLine {body : Text} (hcomment : Line.commentSign ∉ body) (hline : '\n' ∉ body)
    {items : List Text} (hitems : Operand.items body = .ok items) {bs : List UInt8}
    (hbytes : List.Forall₂ (fun item b => Symbols.itemByte {} item = .ok b) items bs)
    (hfull : bs.length = memorySize) :
    ∃ image, assemble [".byte ".toList ++ body] = .ok image ∧ image.bytes = bs := by
  have hparse : Line.parse (".byte ".toList ++ body) =
      .ok (some ⟨none, some (.directive .byte (Text.trim body))⟩) :=
    Line.parse_directive .byte hcomment hline
  have htrim : Operand.items (Text.trim body) = .ok items := by rw [Operand.items_trim, hitems]
  have hadvance : (Statement.directive .byte (Text.trim body)).advance 0 = .ok memorySize := by
    rw [Statement.advance, Statement.step, htrim]
    show Step.apply 0 (.advance items.length) = _
    rw [hbytes.length_eq, hfull]
    rfl
  have hprogram : Program.ofSource [".byte ".toList ++ body] =
      .ok ⟨{}, [⟨0, .directive .byte (Text.trim body)⟩]⟩ := by
    rw [Program.ofSource, Layout.addLines_cons, Layout.addLine_of_parse _ _ hparse,
      Layout.addStatement]
    show Except.map _ (atLine 0 ((Statement.directive .byte (Text.trim body)).advance 0 >>= _) >>=
      _) = _
    rw [hadvance]
    rfl
  obtain ⟨image, hrun, hinside, houtside⟩ :=
    Encoder.writeItems_of_itemByte hbytes 0 0 (by omega : 0 + 0 + bs.length ≤ _) Image.empty
  have hencode : Program.encode ⟨{}, [⟨0, .directive .byte (Text.trim body)⟩]⟩ = .ok image := by
    refine Except.map_eq_ok_iff.2 ⟨⟨memorySize, image⟩, ?_, rfl⟩
    refine Encoder.addAll_cons_eq_ok_iff.2 ⟨⟨memorySize, image⟩, ?_, rfl⟩
    refine Encoder.add_eq_ok_iff.2 ⟨?_, hadvance⟩
    exact Except.bind_eq_ok_iff.2 ⟨items, htrim, hrun⟩
  refine ⟨image, ?_, ?_⟩
  · rw [assemble, Assembly.ofSource, hprogram]
    show Except.map _ (Program.encode _ >>= _) = _
    rw [hencode]
    rfl
  · have hcells := Image.bytes_of_cellAt (k := 0) (by omega) hinside
      fun a ha => (houtside a ha).trans (Image.cellAt_empty a)
    simpa [hfull] using hcells

/-- **Numerals of bytes that fill the memory** are assembled to these bytes, with any blanks around
the commas that do not end the line. -/
theorem assemble_numerals {bs : List UInt8} {pieces : List Text}
    (h : List.Forall₂ (fun b piece => ∃ numeral, Numeral.Denotes numeral b.toNat ∧
      IsTrim piece numeral ∧ '\n' ∉ piece) bs pieces) (hfull : bs.length = memorySize) :
    ∃ image, assemble [".byte ".toList ++ [','].intercalate pieces] = .ok image ∧
      image.bytes = bs := by
  obtain ⟨hpiece, hbytes⟩ : (∀ piece ∈ pieces, ∃ numeral, IsToken numeral ∧
      IsTrim piece numeral ∧ '\n' ∉ piece) ∧
      List.Forall₂ (fun piece b => Symbols.itemByte {} (Text.trim piece) = .ok b) pieces bs := by
    rw [← List.forall₂_and_left]
    refine h.flip.imp ?_
    rintro piece b ⟨numeral, hdenotes, htrim, hline⟩
    refine ⟨⟨numeral, hdenotes.isToken, htrim, hline⟩, ?_⟩
    rw [trim_eq_iff.2 htrim]
    exact Symbols.itemByte_of_denotes {} hdenotes
  have hne : pieces ≠ [] := by
    rintro rfl
    cases h
    cases hfull
  have hnot : ∀ c, Text.isBlank c = false → c ≠ Numeral.hexSign → c.isAlphanum = false →
      ∀ piece ∈ pieces, c ∉ piece := by
    intro c hblank hsign halphanum piece hmem
    obtain ⟨numeral, htoken, htrim, -⟩ := hpiece piece hmem
    apply htrim.not_mem hblank
    intro hc
    rcases htoken.isAlphanum_of_mem hc with hc | hc
    · exact hsign hc
    · rw [hc] at halphanum
      cases halphanum
  have hitems : Operand.items ([','].intercalate pieces) = .ok (pieces.map Text.trim) := by
    apply Operand.items_intercalate hne (hnot ',' (by decide) (by decide) (by decide))
    intro piece hmem
    obtain ⟨numeral, htoken, htrim, -⟩ := hpiece piece hmem
    rw [trim_eq_iff.2 htrim]
    exact htoken.ne_nil
  refine assemble_byteLine ?_ ?_ hitems ?_ hfull
  · intro hmem
    rcases Text.eq_or_mem_of_mem_intercalate hmem with hcomma | ⟨piece, hp, hc⟩
    · cases hcomma
    · exact hnot Line.commentSign (by decide) (by decide) (by decide) piece hp hc
  · intro hmem
    rcases Text.eq_or_mem_of_mem_intercalate hmem with hcomma | ⟨piece, hp, hc⟩
    · cases hcomma
    · obtain ⟨-, -, -, hline⟩ := hpiece piece hp
      exact hline hc
  · exact List.forall₂_map_left_iff.2 hbytes

namespace Image

/-- **The output reads back as the memory.** It has sixteen groups of two digits in small letters,
with one space between two groups and nothing else. Only images with the same bytes have the same
output. A dollar sign in front of a group makes it a numeral that is read as the byte of its cell,
and a list of all these numerals, with any blanks around its commas that do not end the line, is
assembled to the same bytes. -/
theorem toHex_reads_back (m : Image) :
    (Text.split ' ' m.toHex).length = 16 ∧
    (∀ group ∈ Text.split ' ' m.toHex, group.length = 2 ∧
      ∀ c ∈ group, c ∈ "0123456789abcdef".toList) ∧
    m.toHex.length = 47 ∧ '\n' ∉ m.toHex ∧
    (∀ n : Image, n.toHex = m.toHex → n.bytes = m.bytes) ∧
    List.Forall₂ (fun group b => Number.parse ('$' :: group) = .ok b.toNat)
      (Text.split ' ' m.toHex) m.bytes ∧
    ∀ pieces, List.Forall₂ (fun group piece => IsTrim piece ('$' :: group) ∧ '\n' ∉ piece)
        (Text.split ' ' m.toHex) pieces →
      ∃ image, assemble [".byte ".toList ++ [','].intercalate pieces] = .ok image ∧
        image.bytes = m.bytes := by
  rw [split_toHex]
  refine ⟨by simp, ?_, m.length_toHex, m.lineFeed_not_mem_toHex, fun n => bytes_eq_of_toHex_eq, ?_,
    ?_⟩
  · intro group hgroup
    obtain ⟨b, -, rfl⟩ := List.mem_map.1 hgroup
    exact ⟨length_hexByte b, fun c hc => mem_digits_of_mem_hexByte hc⟩
  · rw [List.forall₂_map_left_iff, List.forall₂_same]
    intro b _
    exact Number.parse_of_denotes (denotes_hexByte b) (Number.toNat_lt_limit b)
  · intro pieces hpieces
    rw [List.forall₂_map_left_iff] at hpieces
    refine assemble_numerals (hpieces.imp ?_) m.length_bytes
    rintro b piece ⟨htrim, hline⟩
    exact ⟨_, denotes_hexByte b, htrim, hline⟩

/-- Two images with the same bytes from different lines, and a list of these bytes with blanks of
several kinds around its commas. -/
theorem toHex_reads_back_spread_out :
    let image (first last : Nat) : Image :=
      ⟨((Vector.replicate memorySize 0).set 0 0x0F).set 15 0xA0,
        ((Vector.replicate memorySize none).set 0 (some first)).set 15 (some last)⟩
    (image 2 5).toHex = "0f 00 00 00 00 00 00 00 00 00 00 00 00 00 00 a0".toList ∧
    (image 2 5).bytes = (image 0 0).bytes ∧
    ∃ m, assemble [(".byte $0f\t, $00, $00, $00, $00, $00, $00, $00, $00, $00, $00, $00, $00" ++
      ", $00, $00,\u00a0\r$a0").toList] = .ok m ∧ m.bytes = (image 0 0).bytes := by
  intro image
  obtain ⟨-, -, -, -, hbytes, -, hsource⟩ := toHex_reads_back (image 0 0)
  let pieces : List Text :=
    "$0f\t".toList :: List.replicate 14 " $00".toList ++ ["\u00a0\r$a0".toList]
  have hpieces : List.Forall₂ (fun group piece => IsTrim piece ('$' :: group) ∧ '\n' ∉ piece)
      (Text.split ' ' (image 0 0).toHex) pieces := by
    simp only [← trim_eq_iff]
    decide +kernel
  have hline : (".byte $0f\t, $00, $00, $00, $00, $00, $00, $00, $00, $00, $00, $00, $00" ++
      ", $00, $00,\u00a0\r$a0").toList = ".byte ".toList ++ [','].intercalate pieces := by
    decide +kernel
  rw [hline]
  exact ⟨by decide +kernel, hbytes (image 2 5) (by decide +kernel), hsource pieces hpieces⟩

end Image

end SapOne

import SapOne.Proofs.Assembly.Emission

set_option relaxedAutoImplicit false
set_option autoImplicit false

/-!
# Addresses without limit

Addresses are words of 64 bits, and both passes check that the location counter does not leave
their range. The arithmetic of addresses is a parameter of the passes, and this module compares
runs of the assembler with different ones. Whatever an arithmetic refuses, a program that assembles
never asks for it: a statement that takes up cells also writes them, so that a location counter
beyond the memory is an error of the second pass if it is not one of the first.

## Main results

* `SapOne.Encoder.add_of_add`, `SapOne.Encoder.addAll_of_addAll` — the second pass does not depend
  on the arithmetic.
* `SapOne.Layout.addLine_of_addAll`, `SapOne.Layout.addLines_of_addAll` — neither does the first
  one, if the second one gets through what it has read.
* `SapOne.Layout.addLines_unbounded` — the location counter is never wrong.
* `SapOne.assemble_eq_ok_iff_unbounded` — the limit never decides whether a program is accepted.
-/

namespace SapOne

/-! ## Steps -/

/-- With any arithmetic, a statement that takes up cells of the memory only moves the location
counter to the same place. -/
lemma Statement.advance_congr (k k' : Arithmetic) {counter : Nat} {s : Statement}
    (h : ∀ n, s.step = .ok (.advance n) → counter + n ≤ memorySize) :
    s.advance counter k = s.advance counter k' := by
  unfold advance
  cases hstep : s.step with
  | error e => rfl
  | ok step =>
    cases step with
    | stay => rfl
    | jump a => rfl
    | advance n =>
      have hle := h n hstep
      show Step.apply counter (.advance n) k = Step.apply counter (.advance n) k'
      rw [Step.apply, Step.apply, k.add?_of_le hle, k'.add?_of_le hle]

/-- The location counter is never wrong: where a statement leaves it with any arithmetic, there it
leaves it without limit, too. -/
lemma Statement.advance_unbounded {k : Arithmetic} {counter next : Nat} {s : Statement}
    (h : s.advance counter k = .ok next) : s.advance counter .unbounded = .ok next := by
  obtain ⟨step, hstep, h⟩ := Except.bind_eq_ok_iff.1 h
  refine Except.bind_eq_ok_iff.2 ⟨step, hstep, ?_⟩
  cases step with
  | stay => exact h
  | jump a => exact h
  | advance n =>
    rw [Step.apply] at h
    split at h
    · next a ha =>
      cases h
      rw [k.eq_add ha]
      rfl
    · cases h

/-! ## The second pass -/

/-- A list of items that can be read has an item. -/
lemma Operand.items_ne_nil {operand : Text} {items : List Text}
    (h : Operand.items operand = .ok items) : items ≠ [] := by
  unfold Operand.items at h
  split at h
  · cases h
  · dsimp only at h
    split at h
    · cases h
    · cases h
      simp [Text.split_ne_nil]

namespace Encoder

variable {k : Arithmetic} {t : Symbols}

/-- Items that can be written end within the memory, and can be written with any other
arithmetic. -/
lemma writeItems_of_writeItems (k' : Arithmetic) {counter line : Nat} {items : List Text}
    (offset : Nat) {m n : Image}
    (h : (items.zipIdx offset).foldlM
      (fun image (item, offset) => writeItem t counter line image item offset k) m = .ok n) :
    (items.zipIdx offset).foldlM
        (fun image (item, offset) => writeItem t counter line image item offset k') m = .ok n ∧
      (items ≠ [] → counter + offset + items.length ≤ memorySize) := by
  induction items generalizing offset m with
  | nil => exact ⟨h, fun hnil => absurd rfl hnil⟩
  | cons item items ih =>
    simp only [List.zipIdx_cons, List.foldlM_cons, Except.bind_eq_ok_iff] at h ⊢
    obtain ⟨m', hfirst, hrest⟩ := h
    obtain ⟨byte, hbyte, hwrite⟩ := writeItem_eq_ok_iff.1 hfirst
    have hlt := Image.lt_of_write_eq_ok hwrite
    obtain ⟨hrest, hend⟩ := ih (offset + 1) hrest
    refine ⟨⟨m', writeItem_eq_ok_iff.2 ⟨byte, hbyte, hwrite⟩, hrest⟩, fun _ => ?_⟩
    cases items with
    | nil => exact hlt
    | cons next later =>
      have hle := hend (List.cons_ne_nil next later)
      rw [List.length_cons]
      omega

/-- A statement that can be written can be written with any other arithmetic, and the cells that
its step takes up are cells of the memory. -/
lemma write_of_write (k' : Arithmetic) {e : Encoder} {line : Nat} {s : Statement} {m : Image}
    (h : e.write t line s k = .ok m) :
    e.write t line s k' = .ok m ∧
      ∀ n, s.step = .ok (.advance n) → e.counter + n ≤ memorySize := by
  match s with
  | .directive .org operand =>
    refine ⟨h, fun n hstep => ?_⟩
    obtain ⟨address, -, hstep⟩ := Except.map_eq_ok_iff.1 hstep
    cases hstep
  | .directive .segment operand =>
    refine ⟨h, fun n hstep => ?_⟩
    cases hstep
  | .directive .byte operand =>
    obtain ⟨items, hitems, h⟩ := Except.bind_eq_ok_iff.1 h
    obtain ⟨hwrite, hend⟩ := writeItems_of_writeItems k' 0 h
    refine ⟨Except.bind_eq_ok_iff.2 ⟨items, hitems, hwrite⟩, fun n hstep => ?_⟩
    obtain ⟨items', hitems', hstep⟩ := Except.map_eq_ok_iff.1 hstep
    rw [hitems] at hitems'
    cases hitems'
    cases hstep
    -- every list has an item, so that the location counter itself is an address of the memory
    exact hend (Operand.items_ne_nil hitems)
  | .instruction op operand =>
    obtain ⟨byte, -, hwrite⟩ := Except.bind_eq_ok_iff.1 h
    refine ⟨h, fun n hstep => ?_⟩
    cases hstep
    exact Image.lt_of_write_eq_ok hwrite

/-- **A statement of the second pass** does not depend on the arithmetic. -/
theorem add_of_add (k' : Arithmetic) {e e' : Encoder} {s : Numbered}
    (h : e.add t s k = .ok e') : e.add t s k' = .ok e' := by
  obtain ⟨hwrite, hcounter⟩ := add_eq_ok_iff.1 h
  obtain ⟨hwrite, hfits⟩ := write_of_write k' hwrite
  exact add_eq_ok_iff.2 ⟨hwrite, (Statement.advance_congr k' k hfits).trans hcounter⟩

/-- **A run of the second pass** does not depend on the arithmetic. -/
theorem addAll_of_addAll (k' : Arithmetic) {e e' : Encoder} {statements : List Numbered}
    (h : e.addAll t statements k = .ok e') : e.addAll t statements k' = .ok e' := by
  induction statements generalizing e with
  | nil => exact h
  | cons s rest ih =>
    obtain ⟨m, hm, hrest⟩ := addAll_cons_eq_ok_iff.1 h
    exact addAll_cons_eq_ok_iff.2 ⟨m, add_of_add k' hm, ih hrest⟩

end Encoder

/-! ## The first pass -/

namespace Layout

variable {k : Arithmetic}

/-- Lines are read if the first one is, and then the others. -/
lemma addLines_cons_eq_ok_iff {l l' : Layout} {raw : Text} {source : List Text} {first : Nat} :
    l.addLines (raw :: source) first k = .ok l' ↔
      ∃ m, l.addLine first raw k = .ok m ∧ m.addLines source (first + 1) k = .ok l' := by
  rw [addLines, List.zipIdx_cons, List.foldlM_cons, Except.bind_eq_ok_iff]
  simp only [atLine_eq_ok_iff, addLines]

/-- What reading a line does to the statements and to the location counter. Another arithmetic
reads the same if it moves the location counter to the same place. -/
lemma addLine_cases (k' : Arithmetic) {l l' : Layout} {line : Nat} {raw : Text}
    (h : l.addLine line raw k = .ok l') :
    (l'.statements = l.statements ∧ l'.counter = l.counter ∧ l.addLine line raw k' = .ok l') ∨
      ∃ s : Statement, l'.statements = l.statements ++ [⟨line, s⟩] ∧
        s.advance l.counter k = .ok l'.counter ∧
        (s.advance l.counter k' = .ok l'.counter → l.addLine line raw k' = .ok l') := by
  rw [addLine_eq] at h
  obtain ⟨content, hcontent, h⟩ := Except.bind_eq_ok_iff.1 h
  obtain ⟨m, hlabel, h⟩ := Except.bind_eq_ok_iff.1 h
  obtain ⟨hstatements, hcounter, -⟩ := addLabel_eq_ok hlabel
  have hother : l.addLine line raw k' = m.addStatement line (Source.statement? raw) k' := by
    rw [addLine_eq, hcontent, hlabel]
    rfl
  rw [hother, ← hstatements, ← hcounter]
  cases hs : Source.statement? raw with
  | none =>
    rw [hs] at h
    cases h
    exact Or.inl ⟨rfl, rfl, rfl⟩
  | some s =>
    rw [hs] at h
    obtain ⟨counter, hadvance, h⟩ := Except.bind_eq_ok_iff.1 h
    cases h
    exact Or.inr ⟨s, rfl, hadvance, fun h => Except.bind_eq_ok_iff.2 ⟨counter, h, rfl⟩⟩

/-- **A line of the first pass** reads the same without limit. -/
theorem addLine_unbounded {l l' : Layout} {line : Nat} {raw : Text}
    (h : l.addLine line raw k = .ok l') : l.addLine line raw .unbounded = .ok l' := by
  rcases addLine_cases .unbounded h with ⟨-, -, hsame⟩ | ⟨s, -, hadvance, hsame⟩
  · exact hsame
  · exact hsame (Statement.advance_unbounded hadvance)

/-- **A run of the first pass** reads the same without limit. -/
theorem addLines_unbounded {l l' : Layout} {source : List Text} {first : Nat}
    (h : l.addLines source first k = .ok l') :
    l.addLines source first .unbounded = .ok l' := by
  induction source generalizing l first with
  | nil => exact h
  | cons raw source ih =>
    obtain ⟨m, hm, hrest⟩ := addLines_cons_eq_ok_iff.1 h
    exact addLines_cons_eq_ok_iff.2 ⟨m, addLine_unbounded hm, ih hrest⟩

/-- **A line of the first pass** reads the same with any other arithmetic, if the second pass gets
through what it has read. Behind the line both passes are at the same place again. -/
theorem addLine_of_addAll (k' : Arithmetic) {l l' : Layout} {line : Nat} {raw : Text}
    (h : l.addLine line raw k = .ok l') :
    ∃ own, l'.statements = l.statements ++ own ∧
      ∀ {t : Symbols} {e e' : Encoder} {later : List Numbered}, e.counter = l.counter →
        e.addAll t (own ++ later) k = .ok e' → l.addLine line raw k' = .ok l' ∧
          ∃ f : Encoder, f.counter = l'.counter ∧ f.addAll t later k = .ok e' := by
  rcases addLine_cases k' h with
    ⟨hstatements, hcounter, hsame⟩ | ⟨s, hstatements, hadvance, hsame⟩
  · refine ⟨[], by rw [hstatements, List.append_nil], ?_⟩
    intro t e e' later he hall
    exact ⟨hsame, e, he.trans hcounter.symm, hall⟩
  · refine ⟨[⟨line, s⟩], hstatements, ?_⟩
    intro t e e' later he hall
    -- the second pass makes the same move, and it makes it with the other arithmetic, too
    obtain ⟨f, hf, hall⟩ := Encoder.addAll_cons_eq_ok_iff.1 hall
    have hfcounter := (Encoder.add_eq_ok_iff.1 hf).2
    have hfcounter' := (Encoder.add_eq_ok_iff.1 (Encoder.add_of_add k' hf)).2
    rw [he] at hfcounter hfcounter'
    have hsum : f.counter = l'.counter := Except.ok.inj (hfcounter.symm.trans hadvance)
    rw [hsum] at hfcounter'
    exact ⟨hsame hfcounter', f, hsum, hall⟩

/-- **A run of the first pass** reads the same with any other arithmetic, if the second pass gets
through what it has read. -/
theorem addLines_of_addAll (k' : Arithmetic) {l l' : Layout} {source : List Text}
    {first : Nat} (h : l.addLines source first k = .ok l') :
    ∃ own, l'.statements = l.statements ++ own ∧
      ∀ {t : Symbols} {e e' : Encoder}, e.counter = l.counter → e.addAll t own k = .ok e' →
        l.addLines source first k' = .ok l' := by
  induction source generalizing l first with
  | nil =>
    cases h
    exact ⟨[], (List.append_nil _).symm, fun _ _ => rfl⟩
  | cons raw source ih =>
    obtain ⟨m, hm, hrest⟩ := addLines_cons_eq_ok_iff.1 h
    obtain ⟨own, hown, hline⟩ := addLine_of_addAll k' hm
    obtain ⟨later, hlater, hlines⟩ := ih hrest
    refine ⟨own ++ later, by rw [hlater, hown, List.append_assoc], ?_⟩
    intro t e e' he hall
    obtain ⟨hm', f, hf, hall⟩ := hline he hall
    exact addLines_cons_eq_ok_iff.2 ⟨m, hm', hlines hf hall⟩

end Layout

/-! ## Both passes -/

/-- What a run of the assembler gives does not depend on the arithmetic. -/
theorem Assembly.ofSource_of_ofSource {k : Arithmetic} (k' : Arithmetic) {source : List Text}
    {a : Assembly} (h : ofSource source k = .ok a) : ofSource source k' = .ok a := by
  obtain ⟨p, hp, h⟩ := Except.bind_eq_ok_iff.1 h
  obtain ⟨image, himage, h⟩ := Except.bind_eq_ok_iff.1 h
  obtain ⟨l, hl, rfl⟩ := Except.map_eq_ok_iff.1 hp
  obtain ⟨e, he, rfl⟩ := Except.map_eq_ok_iff.1 himage
  obtain ⟨own, hown, hfirst⟩ := Layout.addLines_of_addAll k' hl
  have hown : l.statements = own := hown
  have hsecond := Encoder.addAll_of_addAll k' he
  rw [hown] at he
  have hl' := hfirst (e := Encoder.start) rfl he
  refine Except.bind_eq_ok_iff.2 ⟨l.toProgram, Except.map_eq_ok_iff.2 ⟨l, hl', rfl⟩, ?_⟩
  exact Except.bind_eq_ok_iff.2 ⟨e.image, Except.map_eq_ok_iff.2 ⟨e, hsecond, rfl⟩, h⟩

/-- An image that is assembled with one arithmetic is assembled with any other. -/
lemma assemble_of_assemble {k : Arithmetic} (k' : Arithmetic) {source : List Text}
    {image : Image} (h : assemble source k = .ok image) : assemble source k' = .ok image := by
  obtain ⟨a, ha, himage⟩ := Except.map_eq_ok_iff.1 h
  exact Except.map_eq_ok_iff.2 ⟨a, Assembly.ofSource_of_ofSource k' ha, himage⟩

/-- **The limit of addresses never decides whether a program is accepted.** A source program
assembles exactly if it does so with a location counter that knows no limit, and then to the same
image. The first pass never takes the location counter, or a label, to a place that is not the true
one, and whatever it refuses is refused without limit, too. -/
theorem assemble_eq_ok_iff_unbounded (source : List Text) :
    (∀ image, assemble source = .ok image ↔ assemble source .unbounded = .ok image) ∧
      (∀ l, Layout.start.addLines source 0 = .ok l →
        Layout.start.addLines source 0 .unbounded = .ok l) ∧
      ∀ d, Program.ofSource source = .error d →
        ∃ d', assemble source .unbounded = .error d' := by
  have hiff : ∀ image, assemble source = .ok image ↔
      assemble source .unbounded = .ok image := by
    intro image
    exact ⟨assemble_of_assemble .unbounded, assemble_of_assemble .words⟩
  refine ⟨hiff, fun l hl => ?_, fun d hd => ?_⟩
  · exact Layout.addLines_unbounded hl
  · cases himage : assemble source .unbounded with
    | error d' => exact ⟨d', rfl⟩
    | ok image =>
      have hassemble := (hiff image).2 himage
      rw [assemble, Assembly.ofSource, hd] at hassemble
      cases hassemble

/-- At the end of the address space the checked location counter stops and the other one goes on,
but only to an error of the second pass. -/
theorem assemble_unbounded_at_last_address :
    Program.ofSource [".org $ffffffffffffffff".toList, "nop".toList] =
        .error ⟨1, .addressOutOfRange 18446744073709551615⟩ ∧
      (Layout.start.addLines [".org $ffffffffffffffff".toList, "nop".toList] 0 .unbounded).map
        Layout.counter = .ok 18446744073709551616 ∧
      ∃ d, assemble [".org $ffffffffffffffff".toList, "nop".toList] .unbounded = .error d := by
  have h : Program.ofSource [".org $ffffffffffffffff".toList, "nop".toList] =
      .error ⟨1, .addressOutOfRange 18446744073709551615⟩ := by
    decide +kernel
  exact ⟨h, by decide +kernel, (assemble_eq_ok_iff_unbounded _).2.2 _ h⟩

end SapOne

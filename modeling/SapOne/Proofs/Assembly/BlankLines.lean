import Mathlib.Data.List.Sort
import SapOne.Proofs.Assembly.Blocks
import SapOne.Proofs.Source.Grammar

set_option relaxedAutoImplicit false
set_option autoImplicit false

/-!
# Blank lines

Lines without any code can be put anywhere into a source. The only thing they change is the
numbers of the lines behind them: wherever the result of the assembler mentions a line, it mentions
the same line by its new number, and nothing else is different.

## Main definitions

* `SapOne.Source.InsertsBlanks` — a source and the same source with blank lines put in, with the
  map of old line numbers to new ones.
* `SapOne.Assembly.renumber`, `SapOne.Diagnostic.renumber` — the same result with other line
  numbers.
* `SapOne.Source.contentLines` — the lines of a source that are not blank, with their numbers.

## Main results

* `SapOne.Layout.addLines_eq_addNumbered` — the first pass only sees lines that are not blank.
* `SapOne.Source.InsertsBlanks.contentLines_eq` — these lines are the same, by their new numbers.
* `SapOne.Renumbering.rel_addLines` — the first pass respects the new numbers.
* `SapOne.Assembly.ofSource_insert_blanks` — blank lines only shift line numbers.
-/

namespace SapOne

/-! ## Other line numbers -/

section Renumber

variable (σ : Nat → Nat)

/-- The same error with another number for the line it mentions, if it mentions one. -/
def Error.renumber : Error → Error
  | .redefinedLabel name first => .redefinedLabel name (σ first)
  | e => e

/-- The same diagnostic on the new number of its line. -/
def Diagnostic.renumber (d : Diagnostic) : Diagnostic :=
  ⟨σ d.line, d.error.renumber σ⟩

/-- The same label on the new number of its line. -/
def Symbol.renumber (s : Symbol) : Symbol :=
  { s with line := σ s.line }

/-- The same statement on the new number of its line. -/
def Numbered.renumber (s : Numbered) : Numbered :=
  { s with line := σ s.line }

/-- The same bytes from other lines. -/
def Image.renumber (m : Image) : Image :=
  { m with origins := m.origins.map (Option.map σ) }

/-- The same result with other line numbers, throughout its labels, statements and cells. -/
def Assembly.renumber (a : Assembly) : Assembly where
  symbols := ⟨a.symbols.toList.map (Symbol.renumber σ)⟩
  statements := a.statements.map (Numbered.renumber σ)
  image := a.image.renumber σ

end Renumber

namespace Image

variable {σ : Nat → Nat}

/-- Every cell has its byte, and the new number of its line. -/
lemma cellAt_renumber (m : Image) (address : Nat) :
    (m.renumber σ).cellAt address = (m.byteAt address, (m.lineAt address).map σ) := by
  have hline : (m.renumber σ).lineAt address = (m.lineAt address).map σ := by
    simp only [lineAt, renumber, Vector.getElem?_map]
    cases m.origins[address]? <;> rfl
  rw [cellAt, hline]
  rfl

/-- Line numbers do not matter for the bytes. -/
lemma bytes_renumber (m : Image) : (m.renumber σ).bytes = m.bytes := rfl

/-- A new image has no line that could get another number. -/
lemma renumber_empty : empty.renumber σ = empty := by
  apply ext_cellAt
  intro address _
  have hempty := cellAt_empty address
  rw [cellAt, Prod.mk.injEq] at hempty
  rw [cellAt_renumber, cellAt, hempty.1, hempty.2]
  rfl

/-- A write under another line number is the same write, renumbered. -/
lemma write_renumber {m n : Image} {address line : Nat} {byte : UInt8}
    (h : m.write address byte line = .ok n) :
    (m.renumber σ).write address byte (σ line) = .ok (n.renumber σ) := by
  have hlt := lt_of_write_eq_ok h
  have hwrite := write_of_lt (m.renumber σ) hlt byte (σ line)
  rw [hwrite]
  congr 1
  apply ext_cellAt
  intro x _
  rw [cellAt_write hwrite, cellAt_renumber, cellAt_renumber, byteAt_write h, lineAt_write h]
  split <;> rfl

end Image

/-! ## Errors that mention no line -/

section Errors

variable {σ : Nat → Nat}

/-- The errors of numerals mention no line. -/
lemma Number.renumber_of_parse {o : Text} {e : Error} (h : Number.parse o = .error e) :
    e = e.renumber σ := by
  rw [Number.parse] at h
  split at h
  · cases h
    rfl
  · split at h
    · split at h <;> cases h
      rfl
    · cases h
      rfl

/-- The errors of operands mention no line. -/
lemma Operand.renumber_of_parse {o : Text} {e : Error} (h : Operand.parse o = .error e) :
    e = e.renumber σ := by
  rw [Operand.parse] at h
  split at h
  · cases h
    rfl
  · next c t _ =>
    split at h
    · cases hnumber : Number.parse (c :: t) with
      | ok n => rw [hnumber] at h; cases h
      | error e' =>
        rw [hnumber] at h
        cases h
        exact Number.renumber_of_parse hnumber
    · split at h <;> cases h
      rfl

/-- The errors of lists mention no line. -/
lemma Operand.renumber_of_items {o : Text} {e : Error} (h : Operand.items o = .error e) :
    e = e.renumber σ := by
  unfold Operand.items at h
  split at h
  · cases h
    rfl
  · dsimp only at h
    split at h <;> cases h
    rfl

/-- The grammar of a line has three errors, and none of them mentions a line. -/
lemma Line.renumber_of_parse {raw : Text} {e : Error} (h : Line.parse raw = .error e) :
    e = e.renumber σ := by
  cases Grammar.parse_eq_iff.1 h with
  | error _ _ _ hrest => cases hrest <;> rfl

end Errors

/-! ## Lines with content -/

namespace Source

/-- The lines of a source that are not blank, with their numbers. -/
def contentLines (source : List Text) : List (Text × Nat) :=
  source.zipIdx.filter fun x => Line.clean x.1 ≠ []

/-- A line has content if something is left of it without its comment and the blanks around it. -/
lemma mem_contentLines_iff {source : List Text} {raw : Text} {line : Nat} :
    (raw, line) ∈ contentLines source ↔ source[line]? = some raw ∧ Line.clean raw ≠ [] := by
  simp [contentLines, List.mem_zipIdx_iff_getElem?]

/-- Every line with content is behind those before it. -/
lemma pairwise_contentLines (source : List Text) :
    (contentLines source).Pairwise fun x y => x.2 < y.2 := by
  refine List.Pairwise.filter _ ?_
  rw [← List.pairwise_map (f := Prod.snd), List.zipIdx_map_snd]
  exact List.pairwise_lt_range'

/-- A line of which nothing is left says nothing. -/
lemma parse_of_clean_eq_nil {raw : Text} (h : Line.clean raw = []) : Line.parse raw = .ok none := by
  rw [Grammar.parse_eq, h]
  rfl

/-- A statement stands on a line that is not blank. -/
lemma statements_eq_filterMap (source : List Text) :
    statements source = (contentLines source).filterMap fun x =>
      (statement? x.1).map (Numbered.mk x.2) := by
  rw [contentLines, List.filterMap_filter, statements]
  congr 1
  funext x
  by_cases hclean : Line.clean x.1 = []
  · simp [hclean, statement?, content?_of_parse (parse_of_clean_eq_nil hclean)]
  · simp [hclean]

/-- A source, and the same source with blank lines put in. The number of each line of the first
one goes to the number that the line has in the second one. -/
structure InsertsBlanks (σ : Nat → Nat) (source source' : List Text) : Prop where
  /-- The order of the lines stays the same. -/
  lt : ∀ i j, i < j → j < source.length → σ i < σ j
  /-- The lines themselves stay the same. -/
  kept : ∀ i < source.length, source'[σ i]? = source[i]?
  /-- All other lines are blank. -/
  blank : ∀ j raw, source'[j]? = some raw → (∀ i < source.length, σ i ≠ j) → Line.clean raw = []

variable {σ : Nat → Nat} {source source' : List Text}

/-- **The lines with content** are the same, by their new numbers.

**Proof sketch.** Both lists are in the order of their numbers, so that it is enough to compare
their members. A line with content among the new ones is no blank line that was put in, and so it
is one of the old ones. -/
lemma InsertsBlanks.contentLines_eq (h : InsertsBlanks σ source source') :
    contentLines source' = (contentLines source).map fun x => (x.1, σ x.2) := by
  have hanti : Std.Antisymm fun x y : Text × Nat => x.2 < y.2 :=
    ⟨fun x y hxy hyx => absurd hxy (Nat.lt_asymm hyx)⟩
  have hirrefl : Std.Irrefl fun x y : Text × Nat => x.2 < y.2 := ⟨fun x => Nat.lt_irrefl x.2⟩
  have hsorted : ((contentLines source).map fun x => (x.1, σ x.2)).Pairwise
      fun x y => x.2 < y.2 := by
    rw [List.pairwise_map]
    refine (pairwise_contentLines source).imp_of_mem ?_
    rintro ⟨raw, i⟩ ⟨raw', j⟩ - hj hij
    obtain ⟨hget, -⟩ := mem_contentLines_iff.1 hj
    exact h.lt i j hij (List.getElem?_eq_some_iff.1 hget).1
  refine (pairwise_contentLines source').eq_of_mem_iff hsorted ?_
  rintro ⟨raw, j⟩
  simp only [List.mem_map, Prod.exists, Prod.mk.injEq]
  constructor
  · intro hmem
    obtain ⟨hget, hclean⟩ := mem_contentLines_iff.1 hmem
    by_cases hold : ∃ i < source.length, σ i = j
    · obtain ⟨i, hi, rfl⟩ := hold
      exact ⟨raw, i, mem_contentLines_iff.2 ⟨(h.kept i hi).symm.trans hget, hclean⟩, rfl, rfl⟩
    · -- a line that was put in is blank, and so has no content
      exact absurd (h.blank j raw hget fun i hi hij => hold ⟨i, hi, hij⟩) hclean
  · rintro ⟨_, i, hmem, rfl, rfl⟩
    obtain ⟨hget, hclean⟩ := mem_contentLines_iff.1 hmem
    have hi := (List.getElem?_eq_some_iff.1 hget).1
    exact mem_contentLines_iff.2 ⟨(h.kept i hi).trans hget, hclean⟩

/-- Blank lines give new numbers to the lines of the statements, and change nothing else. -/
lemma InsertsBlanks.statements_eq (h : InsertsBlanks σ source source') :
    statements source' = (statements source).map (Numbered.renumber σ) := by
  rw [statements_eq_filterMap, h.contentLines_eq, List.filterMap_map, statements_eq_filterMap,
    List.map_filterMap]
  congr 1
  funext x
  simp only [Function.comp_apply, Option.map_map]
  rfl

end Source

/-- Blank lines leave the first pass where it is. -/
lemma Layout.addLine_of_blank {raw : Text} (h : Line.clean raw = []) (l : Layout) (line : Nat) :
    l.addLine line raw = .ok l := by
  rw [addLine, Source.parse_of_clean_eq_nil h]
  rfl

/-- **The first pass only sees lines with content.** -/
lemma Layout.addLines_eq_addNumbered (l : Layout) (source : List Text) :
    l.addLines source 0 = l.addNumbered (Source.contentLines source) := by
  show l.addNumbered source.zipIdx = _
  unfold Source.contentLines
  generalize source.zipIdx = lines
  induction lines generalizing l with
  | nil => rfl
  | cons x lines ih =>
    by_cases hclean : Line.clean x.1 = []
    · rw [List.filter_cons_of_neg (by simpa using hclean), ← ih, addNumbered_cons,
        addLine_of_blank hclean]
      rfl
    · rw [List.filter_cons_of_pos (by simpa using hclean), addNumbered_cons, addNumbered_cons]
      congr 1
      funext m
      exact ih m

/-! ## The two runs -/

/-- A renumbering as a correspondence of runs: only lines are different. -/
def Renumbering (σ : Nat → Nat) : Correspondence where
  name := Eq
  line i i' := i' = σ i
  operand := Eq
  error e e' := e' = e.renumber σ
  image m m' := m' = m.renumber σ
  name_eq_iff := @Eq.congr Text
  redefinedLabel := by
    rintro n _ i _ rfl rfl
    rfl
  undefinedLabel := by
    rintro n _ rfl
    rfl
  addressOutOfRange := by
    rintro a _ rfl
    rfl
  operandOutOfRange := by
    rintro o _ rfl value
    rfl
  byteOutOfRange := by
    rintro o _ rfl value
    rfl
  parse := by
    rintro o _ rfl
    cases h : Operand.parse o with
    | error e => exact .error (Operand.renumber_of_parse h)
    | ok p =>
      cases p with
      | literal value => exact .ok (.literal value)
      | symbol n => exact .ok (.symbol rfl)
  write := by
    rintro m _ i _ rfl rfl address byte
    cases h : m.write address byte i with
    | ok n =>
      rw [Image.write_renumber h]
      exact .ok rfl
    | error e =>
      obtain ⟨hle, rfl⟩ := Image.write_eq_error_iff.1 h
      rw [Image.write_eq_error_iff.2 ⟨hle, rfl⟩]
      exact .error rfl

namespace Renumbering

variable {σ : Nat → Nat} {source source' : List Text}

/-- A statement corresponds to itself, because no line number stands in it. -/
lemma sameStatement_self (s : Statement) : (Renumbering σ).SameStatement s s := by
  match s with
  | .directive .org o =>
    refine .org ?_
    cases h : Number.parse o with
    | error e => exact .error (Number.renumber_of_parse h)
    | ok value => exact .ok rfl
  | .directive .segment o => exact .segment o o
  | .directive .byte o =>
    refine .byte ?_
    cases h : Operand.items o with
    | error e => exact .error (Operand.renumber_of_items h)
    | ok items => exact .ok (List.forall₂_same.2 fun _ _ => rfl)
  | .instruction op o => exact .instruction fun _ => rfl

/-- The same text is read alike, whatever its number. -/
lemma sameText_self (raw : Text) : (Renumbering σ).SameText raw raw := by
  unfold Correspondence.SameText
  cases h : Line.parse raw with
  | error e => exact .error (Line.renumber_of_parse h)
  | ok content =>
    refine .ok ?_
    cases content with
    | none => exact .none
    | some line =>
      refine .some ⟨?_, ?_⟩
      · cases line.label with
        | none => exact .none
        | some name => exact .some rfl
      · cases line.statement with
        | none => exact .none
        | some s => exact .some (sameStatement_self s)

/-- **The first pass** respects the new numbers. -/
theorem rel_addLines (h : Source.InsertsBlanks σ source source') :
    Except.Rel (Renumbering σ).SameDiagnostic (Renumbering σ).SameLayout
      (Layout.start.addLines source 0) (Layout.start.addLines source' 0) := by
  rw [Layout.addLines_eq_addNumbered, Layout.addLines_eq_addNumbered, h.contentLines_eq]
  refine Correspondence.rel_addNumbered ?_ Correspondence.sameLayout_start
  rw [List.forall₂_map_right_iff]
  exact List.forall₂_same.2 fun x _ => ⟨rfl, sameText_self x.1⟩

/-- Corresponding tables are the same but for the line numbers. -/
lemma symbols_eq_of_sameSymbols {t t' : Symbols} (h : (Renumbering σ).SameSymbols t t') :
    t'.toList = t.toList.map (Symbol.renumber σ) := by
  have hmap : List.Forall₂ (· = ·) (t.toList.map (Symbol.renumber σ)) t'.toList := by
    rw [List.forall₂_map_left_iff]
    refine List.Forall₂.imp ?_ h
    intro s s' hs
    exact Symbol.ext hs.name hs.line.symm hs.address
  rw [List.forall₂_eq_eq_eq] at hmap
  exact hmap.symm

end Renumbering

namespace Assembly

variable {σ : Nat → Nat} {source source' : List Text}

/-- Where both sources assemble, the labels and the image respect the new numbers by the
correspondence of runs. The statements do because they can be read off the sources. -/
lemma eq_renumber_of_sameAssembly (h : Source.InsertsBlanks σ source source') {a a' : Assembly}
    (ha : ofSource source = .ok a) (ha' : ofSource source' = .ok a')
    (hsame : (Renumbering σ).SameAssembly a a') : a' = a.renumber σ := by
  refine Assembly.ext ?_ ?_ hsame.image
  · exact Symbols.ext (Renumbering.symbols_eq_of_sameSymbols hsame.symbols)
  · rw [statements_eq ha', h.statements_eq, ← statements_eq ha]
    rfl

/-- **Blank lines only shift line numbers.** Put any number of blank lines anywhere into a source.
If the old source assembles, so does the new one, to the same labels, statements and bytes, with
every line number replaced by the new number of that line. If the old source is rejected, so is the
new one, on the same line with the same error, in which the line of a first definition has its new
number, too. -/
theorem ofSource_insert_blanks (h : Source.InsertsBlanks σ source source') :
    (∀ a, ofSource source = .ok a →
      ofSource source' = .ok (a.renumber σ) ∧ (a.renumber σ).image.bytes = a.image.bytes) ∧
    ∀ d, ofSource source = .error d → ofSource source' = .error (d.renumber σ) := by
  have hrel := Correspondence.rel_ofSource_of_rel_addLines (k := Renumbering σ)
    Image.renumber_empty.symm (Renumbering.rel_addLines h)
  constructor
  · intro a ha
    rw [ha] at hrel
    generalize ha' : ofSource source' = run at hrel
    cases hrel with
    | ok hsame =>
      rw [eq_renumber_of_sameAssembly h ha ha' hsame]
      exact ⟨rfl, Image.bytes_renumber a.image⟩
  · intro d hd
    rw [hd] at hrel
    generalize ofSource source' = run at hrel ⊢
    cases hrel with
    | error hsame =>
      congr 1
      exact Diagnostic.ext hsame.line hsame.error

/-- Blank lines of several kinds before, between and behind two lines: the lines of cells change
their numbers, and so do both lines in the report of a second definition. -/
theorem ofSource_insert_blanks_around :
    (∃ a, ofSource ["x: jmp y".toList, "y: .byte x, 7".toList] = .ok a ∧
      ofSource ["; head".toList, "x: jmp y".toList, [], "y: .byte x, 7".toList,
        " \t;".toList] = .ok (a.renumber (2 * · + 1)) ∧
      a.image.lineAt 2 = some 1 ∧ (a.renumber (2 * · + 1)).image.lineAt 2 = some 3) ∧
    ofSource ["; head".toList, "x: nop".toList, [], "x: hlt".toList, " \t;".toList] =
      .error ⟨3, .redefinedLabel "x".toList 1⟩ := by
  have hinserts : ∀ p q : Text, Source.InsertsBlanks (2 * · + 1) [p, q]
      ["; head".toList, p, [], q, " \t;".toList] := by
    intro p q
    refine ⟨?_, ?_, ?_⟩
    · intro i j hij _
      omega
    · intro i hi
      match i with
      | 0 | 1 => rfl
    · intro j raw hget hnew
      match j with
      | 0 | 2 | 4 =>
        cases hget
        decide
      | 1 => exact absurd rfl (hnew 0 (by simp))
      | 3 => exact absurd rfl (hnew 1 (by simp))
  have hok : ofSource ["x: jmp y".toList, "y: .byte x, 7".toList] =
      .ok ⟨⟨⟨[⟨"x".toList, 0, 0⟩, ⟨"y".toList, 1, 1⟩]⟩,
          [⟨0, .instruction .jmp "y".toList⟩, ⟨1, .directive .byte "x, 7".toList⟩]⟩,
        ⟨#v[0x61, 0, 7, 0, 0, 0, 0, 0, 0, 0, 0, 0, 0, 0, 0, 0],
          #v[some 0, some 1, some 1, none, none, none, none, none, none, none, none, none, none,
            none, none, none]⟩⟩ := by
    decide +kernel
  have herror : ofSource ["x: nop".toList, "x: hlt".toList] =
      .error ⟨1, .redefinedLabel "x".toList 0⟩ := by
    decide +kernel
  refine ⟨⟨_, hok, ?_, by decide +kernel, by decide +kernel⟩, ?_⟩
  · exact ((ofSource_insert_blanks (hinserts _ _)).1 _ hok).1
  · exact (ofSource_insert_blanks (hinserts _ _)).2 _ herror

end Assembly

end SapOne

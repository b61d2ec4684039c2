import SapOne.Proofs.Assembly.Concatenation
import SapOne.Proofs.Assembly.Relevance
import SapOne.Proofs.Assembly.Renaming
import SapOne.Proofs.Source.Numerals

set_option relaxedAutoImplicit false
set_option autoImplicit false

/-!
# What a reference can mean

Labels and references are read by different rules: a label is a run of letters, and a name in an
operand may have digits as well. The two meet in the table of labels. What stands there was read as
a label, so that a name with a digit in it is never found, although nothing is wrong with its text.

The operand of an instruction has passed the rule for operands when the second pass looks at it. It
may still be missing, no number or too large, but it is never malformed; only the items of a list,
which no rule has looked at before, can be that.

## Main definitions

* `SapOne.Statement.HasMalformedItem` — a list of bytes with an item of no known shape.

## Main results

* `SapOne.Operand.eq_notANumber_of_parse` — a token is never malformed.
* `SapOne.Layout.Describes.mem_names_iff` — the table has the labels of the source.
* `SapOne.Program.exists_malformed_item` — what is malformed in the second pass is an item.
* `SapOne.Program.references_settled_by_shape` — what a reference can mean is settled by its shape.
-/

namespace SapOne

open Grammar

/-! ## Operands of instructions -/

/-- A text that is not blank is a number, or is complained about as none. -/
lemma Number.eq_notANumber_of_parse {s : Text} (hne : Text.trim s ≠ []) {e : Error}
    (h : parse s = .error e) : e = .notANumber (Text.trim s) := by
  have hnone : ∀ v < limit, ¬ Numeral.Denotes (Text.trim s) v := by
    intro v hlt hdenotes
    rw [parse_eq_ok_iff.2 ⟨hdenotes, hlt⟩] at h
    cases h
  rw [parse_eq_notANumber_iff.2 ⟨hne, hnone⟩] at h
  exact (Except.error.inj h).symm

namespace Operand

variable {s : Text}

/-- **A token is never malformed.** It is read as a number or as a name, unless it begins like a
number and is none. -/
lemma eq_notANumber_of_parse (hs : IsToken s) {e : Error} (h : parse s = .error e) :
    e = .notANumber s := by
  have htrim := hs.trim_eq_self
  obtain ⟨c, t, rfl⟩ := List.exists_cons_of_ne_nil hs.ne_nil
  simp only [parse, htrim] at h
  by_cases hnumber : (c.isDigit || decide (c = Numeral.hexSign)) = true
  · rw [if_pos hnumber] at h
    have he := Number.eq_notANumber_of_parse (by simp [htrim]) (Except.map_eq_error_iff.1 h)
    rwa [htrim] at he
  · have hsign : c ≠ Numeral.hexSign := by
      intro hc
      simp [hc] at hnumber
    have hall := isToken_iff.2 hs
    rw [Line.isToken, if_neg hsign] at hall
    rw [if_neg hnumber, if_pos hall] at h
    cases h

/-- An operand of an instruction is missing only if it is empty. -/
lemma parse_eq_missingArgument_iff (hs : s = [] ∨ IsToken s) :
    parse s = .error .missingArgument ↔ s = [] := by
  constructor
  · intro h
    rcases hs with rfl | htoken
    · rfl
    · cases eq_notANumber_of_parse htoken h
  · intro h
    rw [h]
    rfl

/-- An operand of an instruction is never malformed, because it is a token or empty. -/
lemma parse_ne_malformed (hs : s = [] ∨ IsToken s) (text : Text) :
    parse s ≠ .error (.malformed text) := by
  intro h
  rcases hs with rfl | htoken
  · cases h
  · cases eq_notANumber_of_parse htoken h

end Operand

/-! ## Lines that have been read -/

namespace Source

variable {source : List Text} {raw : Text}

/-- What can be read from a line is well-formed. -/
lemma wellFormed_of_content? {line : Line} (h : content? raw = some line) : line.WellFormed := by
  cases hparse : Line.parse raw with
  | error e =>
    rw [content?, hparse] at h
    cases h
  | ok content =>
    rw [content?, hparse] at h
    subst h
    exact (Line.exists_render_of_parse hparse).1

/-- A label is a word. -/
lemma isWord_of_label? {name : Text} (h : label? raw = some name) : IsWord name := by
  obtain ⟨line, hline, hname⟩ := Option.bind_eq_some_iff.1 h
  exact (wellFormed_of_content? hline).label name hname

/-- The statements of a source are well-formed. -/
lemma wellFormed_of_mem_statements {s : Numbered} (h : s ∈ statements source) :
    s.statement.WellFormed := by
  obtain ⟨⟨raw, i⟩, -, hs⟩ := List.mem_filterMap.1 h
  obtain ⟨statement, hstatement, rfl⟩ := Option.map_eq_some_iff.1 hs
  obtain ⟨line, hline, hstatement⟩ := Option.bind_eq_some_iff.1 hstatement
  exact (wellFormed_of_content? hline).statement statement hstatement

end Source

/-! ## Names in the table -/

/-- **The table has the labels of the source**, wherever their lines are. -/
lemma Layout.Describes.mem_names_iff {l : Layout} {source : List Text} (h : l.Describes source)
    {name : Text} : name ∈ l.symbols.toList.map Symbol.name ↔
      ∃ raw ∈ source, Source.label? raw = some name := by
  rw [h.map_name, List.mem_map]
  constructor
  · intro hmem
    obtain ⟨⟨line, name⟩, hmem, rfl⟩ := hmem
    obtain ⟨raw, hraw, hlabel⟩ := Source.mem_labels_iff.1 hmem
    exact ⟨raw, List.mem_of_getElem? hraw, hlabel⟩
  · intro hsource
    obtain ⟨raw, hraw, hlabel⟩ := hsource
    obtain ⟨line, hline⟩ := List.mem_iff_getElem?.1 hraw
    exact ⟨(line, name), Source.mem_labels_iff.2 ⟨raw, hline, hlabel⟩, rfl⟩

namespace Symbols

variable {t : Symbols} {name : Text}

/-- A name has an address exactly if it is bound. -/
lemma exists_resolve_iff :
    (∃ address, t.resolve name = .ok address) ↔ name ∈ t.toList.map Symbol.name := by
  rw [← not_iff_not, ← find?_eq_none_iff, resolve, address?]
  cases t.find? name <;> simp

/-- A name that is not bound is reported as undefined. -/
lemma resolve_of_not_mem (h : name ∉ t.toList.map Symbol.name) :
    t.resolve name = .error (.undefinedLabel name) := by
  rw [resolve, address?, find?_eq_none_iff.2 h]
  rfl

end Symbols

/-! ## Malformed items -/

/-- A list of bytes has an item of no known shape, which is quoted as a given text. -/
inductive Statement.HasMalformedItem : Statement → Text → Prop
  | item {operand item text : Text} {items : List Text} (hitems : Operand.items operand = .ok items)
    (hitem : item ∈ items) (h : Operand.parse item = .error (.malformed text)) :
    HasMalformedItem (.directive .byte operand) text

namespace Source

variable {source : List Text} {text : Text}

/-- Looking up a name finds nothing malformed. -/
lemma parse_of_value {operand : Text} (h : value source operand = .error (.malformed text)) :
    Operand.parse operand = .error (.malformed text) := by
  rw [value] at h
  cases hparse : Operand.parse operand with
  | error e => simpa [hparse] using h
  | ok o =>
    cases o with
    | literal value => simp [hparse] at h
    | symbol name =>
      cases haddress : address? source name with
      | none => simp [hparse, haddress] at h
      | some address => simp [hparse, haddress] at h

/-- A check of a value finds a text malformed only if the operand is. -/
lemma parse_of_valueCheck {limit : Nat} {tooLarge : Text → Nat → Error} {operand : Text}
    (hlarge : ∀ value, tooLarge operand value ≠ .malformed text)
    (h : valueCheck source limit tooLarge operand = some (.malformed text)) :
    Operand.parse operand = .error (.malformed text) := by
  rw [valueCheck] at h
  cases hvalue : value source operand with
  | error e =>
    rw [hvalue] at h
    cases h
    exact parse_of_value hvalue
  | ok value =>
    simp only [hvalue] at h
    split at h
    · exact absurd (Option.some.inj h) (hlarge value)
    · cases h

/-- The check of a cell complains about an address, and never about a text. -/
lemma cellCheck_ne_malformed (address : Nat) : cellCheck address ≠ some (.malformed text) := by
  unfold cellCheck
  split <;> simp

/-- Of the checks of a statement that has been read, only those of items find anything malformed. -/
lemma hasMalformedItem_of_mem_statementChecks {s : Statement} (hs : s.WellFormed) {counter : Nat}
    (h : some (.malformed text) ∈ statementChecks source counter s) : s.HasMalformedItem text := by
  match s with
  | .directive .org operand => cases h
  | .directive .segment operand => cases h
  | .directive .byte operand =>
    rw [statementChecks] at h
    cases hitems : Operand.items operand with
    | error e => simp [hitems] at h
    | ok items =>
      simp only [hitems, List.mem_flatMap, List.mem_cons, List.not_mem_nil, or_false] at h
      obtain ⟨⟨item, address⟩, hmem, hvalue | hcell⟩ := h
      · refine .item hitems (List.fst_mem_of_mem_zipIdx hmem) (parse_of_valueCheck ?_ hvalue.symm)
        simp
      · exact absurd hcell.symm (cellCheck_ne_malformed address)
  | .instruction op operand =>
    simp only [statementChecks, List.mem_cons, List.not_mem_nil, or_false] at h
    rcases h with hvalue | hcell
    · split at hvalue
      · -- an operand that the line was read with is a token, and no token is malformed
        have hparse := parse_of_valueCheck (by simp) hvalue.symm
        exact absurd hparse (Operand.parse_ne_malformed hs text)
      · cases hvalue
    · exact absurd hcell.symm (cellCheck_ne_malformed counter)

end Source

namespace Program

variable {source : List Text} {p : Program}

/-- **What is malformed in the second pass is an item** of a list on the reported line. -/
theorem exists_malformed_item (h : ofSource source = .ok p) {line : Nat} {text : Text}
    (herror : p.encode = .error ⟨line, .malformed text⟩) :
    ∃ s ∈ Source.statements source, s.line = line ∧ s.statement.HasMalformedItem text := by
  have hfirst : firstFailure (Source.secondPassChecks source) = some ⟨line, .malformed text⟩ := by
    rw [← decidedBy_encode h, herror]
    rfl
  obtain ⟨c, hc, hsome⟩ := List.exists_of_findSome?_eq_some hfirst
  obtain ⟨s, hs, before, hcheck⟩ := exists_mem_of_mem_inOrder hc
  obtain ⟨own, hown, hblamed⟩ := List.mem_map.1 hcheck
  obtain rfl : c = some ⟨line, .malformed text⟩ := hsome
  obtain ⟨e, rfl, hd⟩ := Option.map_eq_some_iff.1 hblamed
  cases hd
  have hread := Source.wellFormed_of_mem_statements hs
  exact ⟨s, hs, rfl, Source.hasMalformedItem_of_mem_statementChecks hread hown⟩

/-- A program that refers to a name which is no label is not assembled. -/
lemma exists_error_of_referTo (h : ofSource source = .ok p) {name : Text}
    (hrefer : Numbered.ReferTo p.statements name)
    (hname : name ∉ p.symbols.toList.map Symbol.name) :
    ∃ d, Assembly.ofSource source = .error d := by
  cases hassembly : Assembly.ofSource source with
  | error d => exact ⟨d, rfl⟩
  | ok a =>
    obtain ⟨hprogram, himage⟩ := Assembly.ofSource_eq_ok_iff.1 hassembly
    rw [h] at hprogram
    cases hprogram
    obtain ⟨address, haddress⟩ := exists_address_of_encode himage hrefer
    rw [Symbols.address?, Symbols.find?_eq_none_iff.2 hname] at haddress
    cases haddress

/-- **What a reference can mean is settled by its shape.** Let a source be read by the first pass.
Then every name in its table is a run of letters. The operand of an instruction is missing exactly
if it is empty, and is never malformed; what the second pass finds malformed is an item of a list,
on the line that it reports. Whatever operand is read as a name has a value exactly if some line of
the source, above or below, has that name for its label, letter by letter. So a name with a digit
in it stands for nothing, and a source that refers to one is not assembled. -/
theorem references_settled_by_shape (h : ofSource source = .ok p) :
    (∀ s ∈ p.symbols.toList, IsWord s.name) ∧
    (∀ line op operand, ⟨line, .instruction op operand⟩ ∈ p.statements →
      (Operand.parse operand = .error .missingArgument ↔ operand = []) ∧
        ∀ text, Operand.parse operand ≠ .error (.malformed text)) ∧
    (∀ line text, p.encode = .error ⟨line, .malformed text⟩ →
      ∃ s ∈ p.statements, s.line = line ∧ s.statement.HasMalformedItem text) ∧
    (∀ text name, Operand.parse text = .ok (.symbol name) →
      ((∃ address, p.symbols.evaluate text = .ok address) ↔
        ∃ raw ∈ source, Source.label? raw = some name)) ∧
    ∀ name, (∃ c ∈ name, c.isDigit = true) →
      p.symbols.resolve name = .error (.undefinedLabel name) ∧
        (Numbered.ReferTo p.statements name → ∃ d, Assembly.ofSource source = .error d) := by
  obtain ⟨l, hl, rfl⟩ := Except.map_eq_ok_iff.1 h
  have hdesc := Layout.describes_of_addLines hl
  have hword : ∀ name ∈ l.symbols.toList.map Symbol.name, IsWord name := by
    intro name hname
    obtain ⟨raw, -, hlabel⟩ := hdesc.mem_names_iff.1 hname
    exact Source.isWord_of_label? hlabel
  refine ⟨?_, ?_, ?_, ?_, ?_⟩
  · intro s hs
    exact hword s.name (List.mem_map_of_mem hs)
  · intro line op operand hs
    rw [hdesc.statements_eq] at hs
    have hoperand : operand = [] ∨ IsToken operand := Source.wellFormed_of_mem_statements hs
    exact ⟨Operand.parse_eq_missingArgument_iff hoperand, Operand.parse_ne_malformed hoperand⟩
  · intro line text herror
    rw [hdesc.statements_eq]
    exact exists_malformed_item h herror
  · intro text name hparse
    rw [Symbols.evaluate_of_symbol _ hparse, Symbols.exists_resolve_iff, hdesc.mem_names_iff]
  · intro name hdigit
    obtain ⟨c, hc, hdigit⟩ := hdigit
    have hname : name ∉ l.symbols.toList.map Symbol.name := by
      intro hmem
      have halpha := (hword name hmem).2 c hc
      rw [Operand.isDigit_of_isAlpha halpha] at hdigit
      cases hdigit
    exact ⟨Symbols.resolve_of_not_mem hname, fun hrefer => exists_error_of_referTo h hrefer hname⟩

/-- A reference to a label below, one to the same label in capitals, one with a digit, and an item
of no known shape. -/
theorem references_settled_by_shape_in_four_lines :
    ∃ source p, source = ["x: lda y".toList, ".byte 1, a-b".toList, "y: hlt".toList,
        "jmp x1".toList] ∧ ofSource source = .ok p ∧
      (∀ s ∈ p.symbols.toList, IsWord s.name) ∧
      p.symbols.toList.map Symbol.name = ["x".toList, "y".toList] ∧
      (∀ text, Operand.parse "x1".toList ≠ .error (.malformed text)) ∧
      p.encode = .error ⟨1, .malformed "a-b".toList⟩ ∧
      (∃ s ∈ p.statements, s.line = 1 ∧ s.statement.HasMalformedItem "a-b".toList) ∧
      (∃ address, p.symbols.evaluate "y".toList = .ok address) ∧
      (¬ ∃ address, p.symbols.evaluate "Y".toList = .ok address) ∧
      p.symbols.resolve "x1".toList = .error (.undefinedLabel "x1".toList) ∧
      ∃ d, Assembly.ofSource source = .error d := by
  have hsource : ofSource ["x: lda y".toList, ".byte 1, a-b".toList, "y: hlt".toList,
      "jmp x1".toList] = .ok ⟨⟨[⟨"x".toList, 0, 0⟩, ⟨"y".toList, 2, 3⟩]⟩,
        [⟨0, .instruction .lda "y".toList⟩, ⟨1, .directive .byte "1, a-b".toList⟩,
          ⟨2, .instruction .hlt []⟩, ⟨3, .instruction .jmp "x1".toList⟩]⟩ := by
    decide +kernel
  obtain ⟨hwords, hoperands, hmalformed, hnames, hdigits⟩ := references_settled_by_shape hsource
  obtain ⟨hresolve, hfails⟩ := hdigits "x1".toList ⟨'1', by decide, by decide⟩
  refine ⟨_, _, rfl, hsource, hwords, rfl, ?_, ?_, ?_, ?_, ?_, hresolve, ?_⟩
  · exact (hoperands 3 .jmp "x1".toList (by decide)).2
  · decide +kernel
  · exact hmalformed 1 "a-b".toList (by decide +kernel)
  · exact (hnames "y".toList "y".toList rfl).2 ⟨"y: hlt".toList, by decide, rfl⟩
  · rw [hnames "Y".toList "Y".toList rfl]
    decide +kernel
  · exact hfails ⟨_, List.mem_of_getElem? (i := 3) rfl, .instruction rfl rfl⟩

end Program

end SapOne

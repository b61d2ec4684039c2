import SapOne.Proofs.Assembly.Checks
import SapOne.Proofs.Assembly.Emission

set_option relaxedAutoImplicit false
set_option autoImplicit false

/-!
# Sources one behind the other

What the assembler finds in two sources, one behind the other, is what it finds in each of them,
with the lines of the second one counted on. This module says so for the statements, the labels
and the emissions of a source, and says when the first pass goes through at all.

## Main definitions

* `SapOne.Numbered.shift`, `SapOne.Emission.shift` — the same statement or emission on a later
  line.

## Main results

* `SapOne.Source.statements_append`, `SapOne.Source.labels_append` — what stands in two sources.
* `SapOne.Layout.exists_addLine_iff`, `SapOne.Layout.exists_addLines_iff` — the first pass goes
  through exactly if all lines can be read, no label occurs twice and the location counter stays
  in range.
* `SapOne.Numbered.emissionsAll_append_eq_ok_iff` — the emissions of statements one behind the
  other.
* `SapOne.Emission.lastAt_append` — the last emission at an address in two lists.
-/

namespace SapOne

/-! ## Statements and labels -/

/-- The same statement, some lines further down. -/
def Numbered.shift (n : Nat) (s : Numbered) : Numbered :=
  { s with line := s.line + n }

/-- A shifted statement stands on a later line. -/
@[simp]
lemma Numbered.shift_line (n : Nat) (s : Numbered) : (s.shift n).line = s.line + n := rfl

/-- A shifted statement is the same statement. -/
@[simp]
lemma Numbered.shift_statement (n : Nat) (s : Numbered) :
    (s.shift n).statement = s.statement := rfl

namespace Source

/-- The statements of two sources one behind the other, with those of the second one on later lines.
-/
lemma statements_append (a b : List Text) :
    statements (a ++ b) = statements a ++ (statements b).map (Numbered.shift a.length) := by
  induction b using List.reverseRecOn with
  | nil => simp
  | append_singleton b raw ih =>
    rw [← List.append_assoc, statements_concat, ih, statements_concat, List.map_append,
      List.append_assoc]
    congr 2
    cases statement? raw with
    | none => rfl
    | some s => simp [Numbered.shift, Nat.add_comm]

/-- The labels of two sources one behind the other, with those of the second one on later lines. -/
lemma labels_append (a b : List Text) :
    labels (a ++ b) = labels a ++ (labels b).map fun label => (label.1 + a.length, label.2) := by
  induction b using List.reverseRecOn with
  | nil => simp [labels]
  | append_singleton b raw ih =>
    rw [← List.append_assoc, labels_concat, ih, labels_concat, List.map_append,
      List.append_assoc]
    congr 2
    cases label? raw with
    | none => rfl
    | some name => simp [Nat.add_comm]

/-- A name is defined on its line in the first source, or else on its line in the second one. -/
lemma labelLine?_append (a b : List Text) (name : Text) :
    labelLine? (a ++ b) name =
      (labelLine? a name).or ((labelLine? b name).map (· + a.length)) := by
  unfold labelLine?
  rw [labels_append, List.find?_append, List.find?_map, Option.map_or, Option.map_map,
    Option.map_map]
  rfl

/-- A label is defined on a line of the source. -/
lemma lt_of_labelLine?_eq_some {source : List Text} {name : Text} {line : Nat}
    (h : labelLine? source name = some line) : line < source.length := by
  obtain ⟨label, hlabel, rfl⟩ := Option.map_eq_some_iff.1 h
  obtain ⟨raw, hraw, -⟩ := mem_labels_iff.1 (List.mem_of_find?_eq_some hlabel)
  exact (List.getElem?_eq_some_iff.1 hraw).1

end Source

namespace Numbered

/-- Where statements stand does not matter for the location counter. -/
lemma advanceAll_map_shift (n counter : Nat) (statements : List Numbered) :
    advanceAll counter (statements.map (shift n)) = advanceAll counter statements := by
  simp [advanceAll, List.foldlM_map]

/-- Shifted statements lead on from where those before them have led to. -/
lemma locate_append_map_shift (before statements : List Numbered) (n : Nat) :
    locate (before ++ statements.map (shift n)) =
      statements.foldl (fun counter s => s.statement.next counter) (locate before) := by
  simp [locate, List.foldl_map]

end Numbered

/-! ## When the first pass goes through -/

namespace Layout

/-- The names of the table are the labels of the source, in the same order. -/
lemma Describes.map_name {l : Layout} {source : List Text} (h : l.Describes source) :
    l.symbols.toList.map Symbol.name = (Source.labels source).map Prod.snd := by
  have hsymbols := h.symbols_eq
  generalize Source.labels source = labels at hsymbols ⊢
  generalize l.symbols.toList = symbols at hsymbols ⊢
  induction hsymbols with
  | nil => rfl
  | cons hs _ ih => rw [List.map_cons, List.map_cons, ih, hs.name_eq]

/-- A line is read exactly if its text can be read, its label is new and its statement leaves the
location counter in range. -/
lemma exists_addLine_iff {l : Layout} {line : Nat} {raw : Text} :
    (∃ m, l.addLine line raw = .ok m) ↔ (∃ content, Line.parse raw = .ok content) ∧
      (∀ name ∈ Source.label? raw, name ∉ l.symbols.toList.map Symbol.name) ∧
      ∃ counter, Numbered.advanceAll l.counter
        ((Source.statement? raw).map (Numbered.mk line)).toList = .ok counter := by
  simp only [addLine_eq, Except.bind_eq_ok_iff]
  constructor
  · rintro ⟨m, content, hcontent, m', hlabel, hstatement⟩
    obtain ⟨-, hcounter, -, hnew⟩ := addLabel_eq_ok hlabel
    have hadvance := (addStatement_eq_ok hstatement).2.2
    rw [hcounter] at hadvance
    exact ⟨⟨content, hcontent⟩, hnew, m.counter, hadvance⟩
  · rintro ⟨⟨content, hcontent⟩, hnew, counter, hcounter⟩
    have hlabel : ∃ m, l.addLabel line (Source.label? raw) = .ok m := by
      cases hname : Source.label? raw with
      | none => exact ⟨l, rfl⟩
      | some name =>
        have hfind := Symbols.find?_eq_none_iff.2 (hnew name hname)
        rw [addLabel, Symbols.define, hfind]
        exact ⟨_, rfl⟩
    obtain ⟨m, hm⟩ := hlabel
    have hstatement : ∃ m', m.addStatement line (Source.statement? raw) = .ok m' := by
      rw [← (addLabel_eq_ok hm).2.1] at hcounter
      cases hs : Source.statement? raw with
      | none => exact ⟨m, rfl⟩
      | some s =>
        rw [hs] at hcounter
        obtain ⟨next, hnext, -⟩ := Except.bind_eq_ok_iff.1 hcounter
        exact ⟨_, Except.bind_eq_ok_iff.2 ⟨next, hnext, rfl⟩⟩
    obtain ⟨m', hm'⟩ := hstatement
    exact ⟨m', content, hcontent, m, hm, hm'⟩

/-- **The first pass goes through** exactly if all lines can be read, no label occurs twice, and
no statement moves the location counter out of range. -/
theorem exists_addLines_iff {source : List Text} :
    (∃ l, start.addLines source 0 = .ok l) ↔
      (∀ raw ∈ source, ∃ content, Line.parse raw = .ok content) ∧
      ((Source.labels source).map Prod.snd).Nodup ∧
      ∃ counter, Numbered.advanceAll 0 (Source.statements source) = .ok counter := by
  induction source using List.reverseRecOn with
  | nil => simp [Source.labels]
  | append_singleton source raw ih =>
    -- both sides split into what holds of the lines before and what the last line adds
    have hlast : (∃ l, start.addLines (source ++ [raw]) 0 = .ok l) ↔
        ∃ l, start.addLines source 0 = .ok l ∧ ∃ m, l.addLine source.length raw = .ok m := by
      simp only [addLines_append, addLines_cons, addLines_nil, Except.bind_eq_ok_iff,
        atLine_eq_ok_iff, Nat.zero_add]
      constructor
      · rintro ⟨m, l, hl, m', hm', -⟩
        exact ⟨l, hl, m', hm'⟩
      · rintro ⟨l, hl, m, hm⟩
        exact ⟨m, l, hl, m, hm, rfl⟩
    rw [hlast, Source.statements_concat, Source.labels_concat, Numbered.advanceAll_append]
    constructor
    · rintro ⟨l, hl, hline⟩
      obtain ⟨hread, hnodup, -⟩ := ih.1 ⟨l, hl⟩
      have hdesc := describes_of_addLines hl
      obtain ⟨hcontent, hnew, counter, hcounter⟩ := exists_addLine_iff.1 hline
      rw [hdesc.map_name] at hnew
      refine ⟨?_, ?_, counter, Except.bind_eq_ok_iff.2 ⟨_, hdesc.counter_eq, hcounter⟩⟩
      · simpa [or_imp, forall_and] using ⟨hread, hcontent⟩
      · cases hname : Source.label? raw with
        | none => simpa using hnodup
        | some name =>
          rw [List.map_append, List.nodup_append]
          refine ⟨hnodup, by simp, ?_⟩
          rintro x hx y hy rfl
          have hxname : x = name := by simpa using hy
          exact hnew name hname (hxname ▸ hx)
    · rintro ⟨hread, hnodup, counter, hcounter⟩
      obtain ⟨middle, hmiddle, hcounter⟩ := Except.bind_eq_ok_iff.1 hcounter
      rw [List.map_append, List.nodup_append] at hnodup
      obtain ⟨l, hl⟩ := ih.2 ⟨fun r hr => hread r (List.mem_append_left _ hr), hnodup.1,
        middle, hmiddle⟩
      have hdesc := describes_of_addLines hl
      have hsame : middle = l.counter := Except.ok.inj (hmiddle.symm.trans hdesc.counter_eq)
      rw [hsame] at hcounter
      refine ⟨l, hl, exists_addLine_iff.2 ⟨hread raw (by simp), ?_, counter, hcounter⟩⟩
      intro name hname hmem
      rw [hdesc.map_name] at hmem
      rw [Option.mem_def.1 hname] at hnodup
      exact hnodup.2.2 name hmem name (by simp) rfl

end Layout

/-! ## Emissions -/

/-- The same emission, from a line further down. -/
def Emission.shift (n : Nat) (e : Emission) : Emission :=
  { e with line := e.line + n }

namespace Numbered

variable {t : Symbols}

/-- Statements that stand further down emit the same from further down. -/
lemma emissionsAll_map_shift (n counter : Nat) (statements : List Numbered) :
    emissionsAll t counter (statements.map (shift n)) =
      (emissionsAll t counter statements).map (List.map (Emission.shift n)) := by
  induction statements generalizing counter with
  | nil => rfl
  | cons s rest ih =>
    have hfirst : (s.shift n).emissions t counter =
        (s.emissions t counter).map (List.map (Emission.shift n)) := by
      unfold emissions
      rw [shift_statement]
      cases s.statement.values t with
      | error e => rfl
      | ok values => simp [Except.map, Function.comp_def, Emission.shift]
    simp only [List.map_cons, emissionsAll, hfirst, shift_statement, ih]
    cases s.emissions t counter with
    | error e => rfl
    | ok first =>
      cases s.statement.advance counter with
      | error e => rfl
      | ok next =>
        cases hlater : emissionsAll t next rest with
        | error e => simp [Except.map, bind, Except.bind, hlater]
        | ok later => simp [Except.map, bind, Except.bind, hlater]

/-- The emissions of statements one behind the other: the second ones go on where the first ones
have left the location counter. -/
lemma emissionsAll_append_eq_ok_iff {counter : Nat} {a b : List Numbered}
    {all : List Emission} :
    emissionsAll t counter (a ++ b) = .ok all ↔
      ∃ first next later, emissionsAll t counter a = .ok first ∧
        advanceAll counter a = .ok next ∧ emissionsAll t next b = .ok later ∧
        all = first ++ later := by
  induction a generalizing counter all with
  | nil => simp [emissionsAll]
  | cons s a ih =>
    simp only [List.cons_append, emissionsAll_cons_eq_ok_iff, ih, advanceAll_cons,
      Except.bind_eq_ok_iff]
    constructor
    · rintro ⟨first, next, _, hfirst, hnext, ⟨more, last, later, hmore, hlast, hlater, rfl⟩, rfl⟩
      exact ⟨first ++ more, last, later, ⟨first, next, more, hfirst, hnext, hmore, rfl⟩,
        ⟨next, hnext, hlast⟩, hlater, by simp⟩
    · rintro ⟨_, last, later, ⟨first, next, more, hfirst, hnext, hmore, rfl⟩,
        ⟨next', hnext', hlast⟩, hlater, rfl⟩
      rw [hnext] at hnext'
      cases hnext'
      exact ⟨first, next, more ++ later, hfirst, hnext,
        ⟨more, last, later, hmore, hlast, hlater, rfl⟩, by simp⟩

/-- Every emission comes from the line of a statement. -/
lemma exists_line_of_mem_emissionsAll {counter : Nat} {statements : List Numbered}
    {all : List Emission} (h : emissionsAll t counter statements = .ok all) {e : Emission}
    (he : e ∈ all) : ∃ s ∈ statements, e.line = s.line := by
  induction statements generalizing counter all with
  | nil =>
    cases h
    cases he
  | cons s rest ih =>
    obtain ⟨first, next, later, hfirst, -, hlater, rfl⟩ := emissionsAll_cons_eq_ok_iff.1 h
    rcases List.mem_append.1 he with he | he
    · obtain ⟨values, -, rfl⟩ := Except.map_eq_ok_iff.1 hfirst
      obtain ⟨value, -, rfl⟩ := List.mem_map.1 he
      exact ⟨s, List.mem_cons_self, rfl⟩
    · obtain ⟨s', hs', hline⟩ := ih hlater he
      exact ⟨s', List.mem_cons_of_mem s hs', hline⟩

/-- Emissions depend on the table only through the values of operands. -/
lemma emissionsAll_congr {t' : Symbols} (ht : ∀ text, t.evaluate text = t'.evaluate text)
    (counter : Nat) (statements : List Numbered) :
    emissionsAll t counter statements = emissionsAll t' counter statements := by
  have hsame : t.evaluate = t'.evaluate := funext ht
  have hvalues : ∀ s : Statement, s.values t = s.values t' := by
    intro s
    match s with
    | .directive .org operand => rfl
    | .directive .segment operand => rfl
    | .directive .byte operand => rw [Statement.values, Statement.values, hsame]
    | .instruction op operand => rw [Statement.values, Statement.values, hsame]
  induction statements generalizing counter with
  | nil => rfl
  | cons s rest ih => simp only [emissionsAll, emissions, hvalues, ih]

end Numbered

namespace Emission

/-- The last emission in two lists is the last one in the second list, if there is any. -/
lemma lastAt_append (a b : List Emission) (address : Nat) :
    lastAt (a ++ b) address = (lastAt b address).or (lastAt a address) := by
  rw [lastAt, List.filter_append, List.getLast?_append, lastAt, lastAt]

/-- The last of shifted emissions is the last one, shifted. -/
lemma lastAt_map_shift (n : Nat) (emissions : List Emission) (address : Nat) :
    lastAt (emissions.map (shift n)) address = (lastAt emissions address).map (shift n) := by
  rw [lastAt, List.filter_map, List.getLast?_map, lastAt]
  rfl

/-- The last emission at an address is one of the emissions, and goes to that address. -/
lemma mem_of_lastAt_eq_some {emissions : List Emission} {address : Nat} {e : Emission}
    (h : lastAt emissions address = some e) : e ∈ emissions ∧ e.address = address := by
  have hmem := List.mem_of_getLast? h
  exact ⟨List.mem_of_mem_filter hmem, by simpa using (List.mem_filter.1 hmem).2⟩

end Emission

end SapOne

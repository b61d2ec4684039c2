import Mathlib.Data.List.Forall2
import Mathlib.Data.List.Induction
import SapOne.Assembly.Program
import SapOne.Proofs.Outcome

set_option relaxedAutoImplicit false
set_option autoImplicit false

/-!
# What the first pass finds

The first pass runs through the lines of a source with a state: the labels and statements found
so far and the location counter. This module says what that state is in terms of the source
alone. Labels and statements are read off the lines one by one, and the location counter is the
fold of the statements' steps.

## Main definitions

* `SapOne.Source.statements`, `SapOne.Source.labels` — what stands on the lines of a source.
* `SapOne.Numbered.advanceAll` — the location counter as a fold over statements.
* `SapOne.Layout.Describes` — the state of the first pass that belongs to a source.

## Main results

* `SapOne.Layout.addLine_eq` — reading a line is reading its text, its label and its statement.
* `SapOne.Layout.Describes.addLine` — one more line keeps the state in agreement with the source.
* `SapOne.Layout.describes_of_addLines` — the state of the first pass describes what it has read.
* `SapOne.Source.statements_take` — the statements of the first lines are those before a line.
-/

namespace SapOne

/-! ## Lines of a source -/

namespace Source

/-- The content of a line that can be read and is not blank. -/
def content? (raw : Text) : Option Line :=
  match Line.parse raw with
  | .ok content => content
  | .error _ => none

/-- The label of a line. -/
def label? (raw : Text) : Option Text :=
  (content? raw).bind Line.label

/-- The statement on a line. -/
def statement? (raw : Text) : Option Statement :=
  (content? raw).bind Line.statement

/-- The statements of a source with their lines, in the order of the lines. -/
def statements (source : List Text) : List Numbered :=
  source.zipIdx.filterMap fun (raw, line) => (statement? raw).map (Numbered.mk line)

/-- The labels of a source with their lines, in the order of the lines. -/
def labels (source : List Text) : List (Nat × Text) :=
  source.zipIdx.filterMap fun (raw, line) => (label? raw).map (Prod.mk line)

/-- Without lines there are no statements. -/
@[simp]
lemma statements_nil : statements [] = [] := rfl

/-- The statement of a last line comes last. -/
lemma statements_concat (source : List Text) (raw : Text) :
    statements (source ++ [raw]) =
      statements source ++ ((statement? raw).map (Numbered.mk source.length)).toList := by
  rw [statements, List.zipIdx_append, List.filterMap_append]
  cases h : statement? raw <;> simp [statements, h]

/-- The label of a last line comes last. -/
lemma labels_concat (source : List Text) (raw : Text) :
    labels (source ++ [raw]) =
      labels source ++ ((label? raw).map (Prod.mk source.length)).toList := by
  rw [labels, List.zipIdx_append, List.filterMap_append]
  cases h : label? raw <;> simp [labels, h]

/-- The labels of a source are those that stand on its lines. -/
lemma mem_labels_iff {source : List Text} {line : Nat} {name : Text} :
    (line, name) ∈ labels source ↔ ∃ raw, source[line]? = some raw ∧ label? raw = some name := by
  simp only [labels, List.mem_filterMap, Prod.exists, Option.map_eq_some_iff, Prod.mk.injEq]
  constructor
  · rintro ⟨raw, i, hmem, x, hx, rfl, rfl⟩
    exact ⟨raw, by simpa using List.mem_zipIdx_iff_getElem?.1 hmem, hx⟩
  · rintro ⟨raw, hraw, hname⟩
    exact ⟨raw, line, List.mem_zipIdx_iff_getElem?.2 hraw, name, hname, rfl, rfl⟩

/-- A statement stands on a line of the source. -/
lemma line_lt_of_mem_statements {source : List Text} {s : Numbered}
    (h : s ∈ statements source) : s.line < source.length := by
  simp only [statements, List.mem_filterMap, Prod.exists, Option.map_eq_some_iff] at h
  obtain ⟨raw, line, hmem, st, -, rfl⟩ := h
  have := List.mem_zipIdx_iff_getElem?.1 hmem
  exact (List.getElem?_eq_some_iff.1 this).1

/-- Every statement stands on a later line than those before it. -/
lemma pairwise_line_statements (source : List Text) :
    (statements source).Pairwise (fun a b => a.line < b.line) := by
  induction source using List.reverseRecOn with
  | nil => exact List.Pairwise.nil
  | append_singleton source raw ih =>
    rw [statements_concat, List.pairwise_append]
    refine ⟨ih, ?_, ?_⟩
    · cases statement? raw <;> simp
    · intro a ha b hb
      have ha' := line_lt_of_mem_statements ha
      cases hs : statement? raw with
      | none => simp [hs] at hb
      | some s =>
        rw [hs] at hb
        simp only [Option.map_some, Option.toList_some, List.mem_singleton] at hb
        rw [hb]
        exact ha'

/-- The statements of the first `n` lines are the statements before line `n`.

**Proof sketch.** Induction on the source from its end. If line `n` is not beyond the lines
before the last one, the last line is cut off on one side and filtered out on the other.
Otherwise both sides keep everything. -/
lemma statements_take (source : List Text) (n : Nat) :
    statements (source.take n) = (statements source).filter (·.line < n) := by
  induction source using List.reverseRecOn with
  | nil => simp
  | append_singleton source raw ih =>
    rw [statements_concat, List.filter_append]
    by_cases hn : n ≤ source.length
    · have hlast : ((statement? raw).map (Numbered.mk source.length)).toList.filter
          (·.line < n) = [] := by
        cases statement? raw with
        | none => rfl
        | some s => simp; omega
      rw [List.take_append_of_le_length hn, ih, hlast, List.append_nil]
    · have hall : (source ++ [raw]).take n = source ++ [raw] :=
        List.take_of_length_le (by simp; omega)
      have hearlier : (statements source).filter (·.line < n) = statements source := by
        rw [List.filter_eq_self]
        intro s hs
        have := line_lt_of_mem_statements hs
        simp; omega
      have hlast : ((statement? raw).map (Numbered.mk source.length)).toList.filter
          (·.line < n) = ((statement? raw).map (Numbered.mk source.length)).toList := by
        cases statement? raw with
        | none => rfl
        | some s => simp; omega
      rw [hall, statements_concat, hearlier, hlast]

end Source

/-! ## The location counter as a fold -/

namespace Numbered

/-- Where the location counter stands after statements one after the other. -/
def advanceAll (counter : Nat) (statements : List Numbered) : Except Error Nat :=
  statements.foldlM (fun counter s => s.statement.advance counter) counter

/-- Without statements the location counter stays. -/
@[simp]
lemma advanceAll_nil (counter : Nat) : advanceAll counter [] = .ok counter := rfl

/-- The first statement moves the location counter, and then the others. -/
lemma advanceAll_cons (counter : Nat) (s : Numbered) (rest : List Numbered) :
    advanceAll counter (s :: rest) =
      (s.statement.advance counter >>= fun counter => advanceAll counter rest) := rfl

/-- Two lists of statements move the location counter one after the other. -/
lemma advanceAll_append (counter : Nat) (a b : List Numbered) :
    advanceAll counter (a ++ b) =
      (advanceAll counter a >>= fun counter => advanceAll counter b) := by
  simp [advanceAll, List.foldlM_append]

/-- A location counter that gets through all statements gets through any number of first ones. -/
lemma exists_advanceAll_take {counter final : Nat} {statements : List Numbered}
    (h : advanceAll counter statements = .ok final) (k : Nat) :
    ∃ c, advanceAll counter (statements.take k) = .ok c := by
  rw [← List.take_append_drop k statements, advanceAll_append, Except.bind_eq_ok_iff] at h
  obtain ⟨c, hc, -⟩ := h
  exact ⟨c, hc⟩

end Numbered

/-! ## Reading one line -/

namespace Symbols

/-- A name is not found exactly if no label has it. -/
lemma find?_eq_none_iff {t : Symbols} {name : Text} :
    t.find? name = none ↔ name ∉ t.toList.map Symbol.name := by
  simp only [find?, List.find?_eq_none, decide_eq_true_eq, List.mem_map, not_exists, not_and]

/-- A definition that succeeds has a new name, and appends it. -/
lemma define_eq_ok_iff {t u : Symbols} {name : Text} {line address : Nat} :
    t.define name line address = .ok u ↔
      t.find? name = none ∧ u.toList = t.toList ++ [⟨name, line, address⟩] := by
  unfold define
  cases h : t.find? name with
  | some first => simp
  | none => simp [Symbols.ext_iff, eq_comm]

/-- In a table without repetitions every label is found under its name. -/
lemma find?_of_mem {t : Symbols} (h : (t.toList.map Symbol.name).Nodup) {s : Symbol}
    (hs : s ∈ t.toList) : t.find? s.name = some s := by
  obtain ⟨before, after, hsplit⟩ := List.append_of_mem hs
  rw [hsplit, List.map_append, List.map_cons, List.nodup_append] at h
  have hbefore : before.find? (·.name = s.name) = none := by
    rw [List.find?_eq_none]
    intro x hx hname
    exact h.2.2 x.name (List.mem_map_of_mem hx) s.name List.mem_cons_self (by simpa using hname)
  rw [find?, hsplit, List.find?_append, hbefore]
  simp

/-- A table that goes on where another one ends has all labels of that one. -/
lemma find?_of_isPrefix {t t' : Symbols} (h : t.toList <+: t'.toList) {name : Text} {s : Symbol}
    (hs : t.find? name = some s) : t'.find? name = some s := by
  obtain ⟨more, hmore⟩ := h
  unfold find? at hs ⊢
  rw [← hmore, List.find?_append, hs]
  rfl

/-- In a table without repetitions a name stands for the address of its label. -/
lemma resolve_of_mem {t : Symbols} (h : (t.toList.map Symbol.name).Nodup) {s : Symbol}
    (hs : s ∈ t.toList) : t.resolve s.name = .ok s.address := by
  rw [resolve, address?, find?_of_mem h hs]
  rfl

end Symbols

namespace Layout

/-- **Reading a line** is reading its text, binding its label and appending its statement. A
blank line has neither, and is no exception. -/
lemma addLine_eq (l : Layout) (line : Nat) (raw : Text) (k : Arithmetic) :
    l.addLine line raw k =
      (Line.parse raw >>= fun _ => l.addLabel line (Source.label? raw) >>= fun m =>
        m.addStatement line (Source.statement? raw) k) := by
  unfold addLine Source.label? Source.statement? Source.content?
  cases Line.parse raw with
  | error e => rfl
  | ok content => cases content <;> rfl

/-- Binding a label appends it to the table with the present location counter. -/
lemma addLabel_eq_ok {l m : Layout} {line : Nat} {label : Option Text}
    (h : l.addLabel line label = .ok m) :
    m.statements = l.statements ∧ m.counter = l.counter ∧
      m.symbols.toList = l.symbols.toList ++
        (label.map fun name => ⟨name, line, l.counter⟩).toList ∧
      ∀ name ∈ label, name ∉ l.symbols.toList.map Symbol.name := by
  cases label with
  | none =>
    cases h
    simp
  | some name =>
    obtain ⟨symbols, hdefine, hm⟩ := Except.bind_eq_ok_iff.1 h
    cases hm
    obtain ⟨hnew, hlist⟩ := Symbols.define_eq_ok_iff.1 hdefine
    refine ⟨rfl, rfl, hlist, ?_⟩
    intro x hx
    cases hx
    exact Symbols.find?_eq_none_iff.1 hnew

/-- Appending a statement moves the location counter and leaves the table alone. -/
lemma addStatement_eq_ok {m l : Layout} {line : Nat} {statement : Option Statement}
    (h : m.addStatement line statement = .ok l) :
    l.symbols = m.symbols ∧
      l.statements = m.statements ++ (statement.map (Numbered.mk line)).toList ∧
      Numbered.advanceAll m.counter (statement.map (Numbered.mk line)).toList =
        .ok l.counter := by
  cases statement with
  | none =>
    cases h
    simp
  | some s =>
    obtain ⟨counter, hcounter, hl⟩ := Except.bind_eq_ok_iff.1 h
    cases hl
    refine ⟨rfl, rfl, ?_⟩
    show (s.advance m.counter >>= fun c => Numbered.advanceAll c []) = .ok counter
    rw [hcounter]
    rfl

/-! ## The state of the first pass -/

/-- A label of a source is bound as it should be: under its name, with its line, and to the
location counter behind the lines before its own. -/
structure BoundAs (source : List Text) (label : Nat × Text) (s : Symbol) : Prop where
  name_eq : s.name = label.2
  line_eq : s.line = label.1
  address_eq :
    Numbered.advanceAll 0 (Source.statements (source.take label.1)) = .ok s.address

/-- The state of the first pass that belongs to a source. -/
structure Describes (l : Layout) (source : List Text) : Prop where
  /-- The statements are those of the source. -/
  statements_eq : l.statements = Source.statements source
  /-- The location counter is the fold of their steps. -/
  counter_eq : Numbered.advanceAll 0 (Source.statements source) = .ok l.counter
  /-- The labels are those of the source, each bound as it should be. -/
  symbols_eq : List.Forall₂ (BoundAs source) (Source.labels source) l.symbols.toList
  /-- No name is bound twice. -/
  nodup : (l.symbols.toList.map Symbol.name).Nodup

/-- Before the first line, the state describes the empty source. -/
lemma describes_start : start.Describes [] where
  statements_eq := rfl
  counter_eq := rfl
  symbols_eq := List.Forall₂.nil
  nodup := List.nodup_nil

/-- A label stays bound as it should be when lines follow, because its address depends only on
the lines before its own. -/
lemma BoundAs.concat {source : List Text} {label : Nat × Text} {s : Symbol}
    (h : BoundAs source label s) (hlabel : label ∈ Source.labels source) (raw : Text) :
    BoundAs (source ++ [raw]) label s where
  name_eq := h.name_eq
  line_eq := h.line_eq
  address_eq := by
    obtain ⟨line, name⟩ := label
    obtain ⟨text, htext, -⟩ := Source.mem_labels_iff.1 hlabel
    have hlt : line < source.length := (List.getElem?_eq_some_iff.1 htext).1
    rw [List.take_append_of_le_length (by omega)]
    exact h.address_eq

/-- A label of the next line is to be bound to the location counter before it. -/
lemma Describes.boundAs_new {l : Layout} {source : List Text} (h : l.Describes source)
    (raw name : Text) :
    BoundAs (source ++ [raw]) (source.length, name) ⟨name, source.length, l.counter⟩ where
  name_eq := rfl
  line_eq := rfl
  address_eq := by
    rw [List.take_left]
    exact h.counter_eq

/-- **One more line** keeps the state in agreement with the source.

**Proof sketch.** Take the line apart with `addLine_eq`. Its label joins the table with the
location counter behind the lines before, and its statement joins the others and extends the
fold. Labels that were bound before stay as they are by `BoundAs.concat`. -/
theorem Describes.addLine {l l' : Layout} {source : List Text} {raw : Text}
    (h : l.Describes source) (hline : l.addLine source.length raw = .ok l') :
    l'.Describes (source ++ [raw]) := by
  rw [addLine_eq] at hline
  obtain ⟨_, -, hline⟩ := Except.bind_eq_ok_iff.1 hline
  obtain ⟨m, hlabel, hstatement⟩ := Except.bind_eq_ok_iff.1 hline
  obtain ⟨hms, hmc, hmt, hnew⟩ := addLabel_eq_ok hlabel
  obtain ⟨hlt, hls, hlc⟩ := addStatement_eq_ok hstatement
  have htable : l'.symbols.toList = l.symbols.toList ++
      ((Source.label? raw).map fun name => ⟨name, source.length, l.counter⟩).toList := by
    rw [hlt, hmt]
  refine ⟨?_, ?_, ?_, ?_⟩
  · rw [hls, hms, h.statements_eq, Source.statements_concat]
  · rw [Source.statements_concat, Numbered.advanceAll_append, h.counter_eq, ← hmc]
    exact hlc
  · rw [Source.labels_concat, htable]
    refine List.rel_append (List.forall₂_iff_get.2 ⟨h.symbols_eq.length_eq, ?_⟩) ?_
    · intro i hi hi'
      exact (h.symbols_eq.get hi hi').concat (List.get_mem _ _) raw
    · cases Source.label? raw with
      | none => exact List.Forall₂.nil
      | some name => exact List.Forall₂.cons (h.boundAs_new raw name) List.Forall₂.nil
  · rw [htable, List.map_append, List.nodup_append]
    refine ⟨h.nodup, ?_, ?_⟩
    · cases Source.label? raw <;> simp
    · intro x hx y hy hxy
      cases hname : Source.label? raw with
      | none => simp [hname] at hy
      | some name =>
        simp only [hname, Option.map_some, Option.toList_some, List.map_cons, List.map_nil,
          List.mem_singleton] at hy
        exact hnew name (by rw [hname]; rfl) (hy ▸ hxy ▸ hx)

/-- **The state of the first pass describes what it has read.** -/
theorem describes_of_addLines {source : List Text} {l : Layout}
    (h : start.addLines source 0 = .ok l) : l.Describes source := by
  induction source using List.reverseRecOn generalizing l with
  | nil =>
    cases h
    exact describes_start
  | append_singleton source raw ih =>
    rw [addLines_append, Except.bind_eq_ok_iff] at h
    obtain ⟨m, hm, hlast⟩ := h
    rw [Nat.zero_add, addLines_cons, Except.bind_eq_ok_iff] at hlast
    obtain ⟨l', hl', hnil⟩ := hlast
    cases hnil
    exact (ih hm).addLine (atLine_eq_ok_iff.1 hl')

/-- The first pass goes through on every beginning of a source on which it goes through. -/
lemma exists_addLines_take {source : List Text} {l : Layout} {first : Nat}
    (h : start.addLines source first = .ok l) (n : Nat) :
    ∃ m, start.addLines (source.take n) first = .ok m := by
  rw [← List.take_append_drop n source, addLines_append, Except.bind_eq_ok_iff] at h
  obtain ⟨m, hm, -⟩ := h
  exact ⟨m, hm⟩

end Layout

end SapOne

import SapOne.Proofs.Assembly.Encoding

set_option relaxedAutoImplicit false
set_option autoImplicit false

/-!
# The two passes in lock-step

The first pass walks over lines, many of which have no statement; the second one walks over the
statements that the first one has collected. Each has a location counter of its own. Both
counters are the same fold over the statements seen so far, so that a label stands for the
address where the second pass really puts the statement behind it.

## Main definitions

* `SapOne.Program.LockStep` — a program agrees with its source in both passes.

## Main results

* `SapOne.Source.exists_filter_eq_take` — some lines hold exactly the first statements.
* `SapOne.Program.lockStep_of_ofSource` — every program that is read agrees with its source.
-/

namespace SapOne

/-! ## Lines and statements -/

namespace Numbered

/-- Where the lines of statements increase, those before the line of the statement at `k` are
the first `k` ones. -/
lemma filter_line_lt_eq_take {statements : List Numbered}
    (h : statements.Pairwise fun a b => a.line < b.line) {k : Nat} (hk : k < statements.length) :
    statements.filter (·.line < (statements.get ⟨k, hk⟩).line) = statements.take k := by
  have hsplit : statements = statements.take k ++ statements.drop k :=
    (List.take_append_drop k statements).symm
  have hdrop : statements.drop k = statements.get ⟨k, hk⟩ :: statements.drop (k + 1) :=
    List.drop_eq_getElem_cons hk
  generalize statements.get ⟨k, hk⟩ = s at hdrop ⊢
  rw [hsplit, List.pairwise_append, hdrop] at h
  obtain ⟨-, hafter, hbefore⟩ := h
  have hkeep : (statements.take k).filter (·.line < s.line) = statements.take k := by
    rw [List.filter_eq_self]
    intro a ha
    simpa using hbefore a ha s List.mem_cons_self
  have hcut : (statements.drop k).filter (·.line < s.line) = [] := by
    rw [hdrop, List.filter_eq_nil_iff]
    intro a ha
    rcases List.mem_cons.1 ha with rfl | ha
    · simp
    · have := (List.pairwise_cons.1 hafter).1 a ha
      simp only [decide_eq_true_eq]
      omega
  conv_lhs => rw [hsplit]
  rw [List.filter_append, hkeep, hcut, List.append_nil]

end Numbered

/-- For every number of statements there are lines that hold exactly so many of them: the lines
before the statement that comes next. -/
lemma Source.exists_filter_eq_take (source : List Text) (k : Nat) :
    ∃ n ≤ source.length,
      (Source.statements source).filter (·.line < n) = (Source.statements source).take k := by
  by_cases hk : k < (Source.statements source).length
  · refine ⟨((Source.statements source).get ⟨k, hk⟩).line, ?_, ?_⟩
    · exact Nat.le_of_lt (Source.line_lt_of_mem_statements (List.get_mem _ _))
    · exact Numbered.filter_line_lt_eq_take (Source.pairwise_line_statements source) hk
  · refine ⟨source.length, Nat.le_refl _, ?_⟩
    rw [List.take_of_length_le (by omega), ← Source.statements_take, List.take_length]

/-! ## Agreement of a program with its source -/

namespace Program

/-- A program agrees with its source in both passes. -/
structure LockStep (source : List Text) (p : Program) : Prop where
  /-- The statements are those on the lines of the source, in the order of the lines. -/
  statements_eq : p.statements = Source.statements source
  /-- Every statement stands on a later line than those before it. -/
  line_lt : p.statements.Pairwise fun a b => a.line < b.line
  /-- The fold of the steps goes through on the first `k` statements, and some lines hold
  exactly these. Whichever lines do, the first pass has the fold as its location counter behind
  them, and the second pass has it before the next statement, if it gets so far. -/
  counter : ∀ k, ∃ counter, Numbered.advanceAll 0 (p.statements.take k) = .ok counter ∧
    (∃ n ≤ source.length, p.statements.filter (·.line < n) = p.statements.take k) ∧
    (∀ n, p.statements.filter (·.line < n) = p.statements.take k →
      ∃ l, Layout.start.addLines (source.take n) 0 = .ok l ∧
        l.statements = p.statements.take k ∧ l.counter = counter) ∧
    (∀ image, p.encode = .ok image →
      ∃ e, Encoder.start.addAll p.symbols (p.statements.take k) = .ok e) ∧
    ∀ e, Encoder.start.addAll p.symbols (p.statements.take k) = .ok e → e.counter = counter
  /-- There is one symbol for each line with a label, in the order of the lines, with the fold
  over the statements before that line as its address. -/
  symbols : List.Forall₂ (fun label s => s.name = label.2 ∧ s.line = label.1 ∧
      Numbered.advanceAll 0 (p.statements.filter (·.line < label.1)) = .ok s.address)
    (Source.labels source) p.symbols.toList
  /-- That address is what the name stands for wherever it is referred to. -/
  resolve : ∀ s ∈ p.symbols.toList, p.symbols.resolve s.name = .ok s.address

/-- Every location counter along the two passes is the fold over the statements seen so far.

**Proof sketch.** The first pass on any number of lines leaves a state that describes these
lines (`Layout.describes_of_addLines`), whose statements are those before the next line. The
second pass is `Encoder.advanceAll_of_addAll`. -/
lemma exists_counter {source : List Text} {l : Layout}
    (h : Layout.start.addLines source 0 = .ok l) (k : Nat) :
    ∃ counter, Numbered.advanceAll 0 (l.statements.take k) = .ok counter ∧
      (∀ n, l.statements.filter (·.line < n) = l.statements.take k →
        ∃ m, Layout.start.addLines (source.take n) 0 = .ok m ∧
          m.statements = l.statements.take k ∧ m.counter = counter) ∧
      ∀ e, Encoder.start.addAll l.symbols (l.statements.take k) = .ok e →
        e.counter = counter := by
  have hl := Layout.describes_of_addLines h
  have hfold := hl.counter_eq
  rw [← hl.statements_eq] at hfold
  obtain ⟨counter, hcounter⟩ := Numbered.exists_advanceAll_take hfold k
  refine ⟨counter, hcounter, ?_, ?_⟩
  · intro n hn
    obtain ⟨m, hm⟩ := Layout.exists_addLines_take h n
    have hdesc := Layout.describes_of_addLines hm
    have hstatements : m.statements = l.statements.take k := by
      rw [hdesc.statements_eq, Source.statements_take, ← hl.statements_eq, hn]
    have hsame : Except.ok m.counter = (Except.ok counter : Except Error Nat) := by
      rw [← hdesc.counter_eq, ← hcounter, ← hdesc.statements_eq, hstatements]
    cases hsame
    exact ⟨m, hm, hstatements, rfl⟩
  · intro e he
    have hsame : Except.ok e.counter = (Except.ok counter : Except Error Nat) := by
      rw [← hcounter]
      exact (Encoder.advanceAll_of_addAll he).symm
    cases hsame
    rfl

/-- **The two passes stay in lock-step**: every program that the first pass reads off a source
agrees with that source, line by line in its statements, labels and location counter, and the
second pass moves through the same addresses. -/
theorem lockStep_of_ofSource {source : List Text} {p : Program}
    (h : ofSource source = .ok p) : p.LockStep source := by
  obtain ⟨l, hl, rfl⟩ := Except.map_eq_ok_iff.1 h
  have hdesc := Layout.describes_of_addLines hl
  refine ⟨hdesc.statements_eq, ?_, ?_, ?_, ?_⟩
  · rw [hdesc.statements_eq]
    exact Source.pairwise_line_statements source
  · intro k
    obtain ⟨counter, hcounter, hfirst, hsecond⟩ := exists_counter hl k
    refine ⟨counter, hcounter, ?_, hfirst, ?_, hsecond⟩
    · rw [hdesc.statements_eq]
      exact Source.exists_filter_eq_take source k
    · intro image himage
      obtain ⟨e, he, -⟩ := Except.map_eq_ok_iff.1 himage
      exact Encoder.exists_addAll_take he k
  · refine hdesc.symbols_eq.imp ?_
    intro label s hs
    refine ⟨hs.name_eq, hs.line_eq, ?_⟩
    rw [hdesc.statements_eq, ← Source.statements_take]
    exact hs.address_eq
  · intro s hs
    exact Symbols.resolve_of_mem hdesc.nodup hs

/-- A source with a jump of the location counter to and fro, a blank line, a label that stands
alone, and references in both directions. -/
theorem lockStep_to_and_fro :
    ∃ source p, source = [".org 4".toList, "top: jmp end".toList, [], "end:".toList,
        ".org 1".toList, "one: .byte top, 2 ; data".toList] ∧
      ofSource source = .ok p ∧
      p.symbols.toList = [⟨"top".toList, 1, 4⟩, ⟨"end".toList, 3, 5⟩, ⟨"one".toList, 5, 1⟩] ∧
      p.LockStep source := by
  have h : ofSource [".org 4".toList, "top: jmp end".toList, [], "end:".toList,
      ".org 1".toList, "one: .byte top, 2 ; data".toList] =
      .ok ⟨⟨[⟨"top".toList, 1, 4⟩, ⟨"end".toList, 3, 5⟩, ⟨"one".toList, 5, 1⟩]⟩,
        [⟨0, .directive .org "4".toList⟩, ⟨1, .instruction .jmp "end".toList⟩,
          ⟨4, .directive .org "1".toList⟩, ⟨5, .directive .byte "top, 2".toList⟩]⟩ := by
    decide +kernel
  exact ⟨_, _, rfl, h, rfl, lockStep_of_ofSource h⟩

end Program

end SapOne

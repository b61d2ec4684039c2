import SapOne.Assembly.Basic
import SapOne.Proofs.Assembly.Encoding

set_option relaxedAutoImplicit false
set_option autoImplicit false

/-!
# Acceptance as a list of checks

Whether a source program assembles, and which diagnostic it gets otherwise, can be said without
any pass over it: there is one list of checks, read off the source, and the first one that fails
is reported. The checks of the first pass go line by line, those of the second one statement by
statement, and all of the first pass come before all of the second one.

Every check looks at the source alone. The location counter before a line is computed from the
statements above it, without a bound; the address of a label is that counter at the first line
that has the label.

## Main definitions

* `SapOne.Numbered.locate` — the location counter behind statements, without a bound.
* `SapOne.Source.lineChecks` — the checks of a line in the first pass.
* `SapOne.Source.statementChecks` — the checks of a statement in the second pass.
* `SapOne.Source.checks` — all checks of a source, in order.

## Main results

* `SapOne.Layout.decidedBy_lineChecks`, `SapOne.Layout.decidedBy_firstPassChecks` — a line and a
  run of the first pass are decided by their checks.
* `SapOne.Encoder.decidedBy_statementChecks`, `SapOne.Encoder.decidedBy_addAll` — the same for a
  statement and a run of the second pass.
* `SapOne.assemble_reports_first_failure` — a source program assembles exactly if no check fails,
  and is otherwise rejected with the first one that does.
-/

namespace SapOne

/-! ## The location counter without a bound -/

/-- Where the location counter goes at a statement. It has no bound, and it stays where a
statement has no step. -/
def Statement.next (counter : Nat) (s : Statement) : Nat :=
  match s.step with
  | .ok .stay => counter
  | .ok (.advance n) => counter + n
  | .ok (.jump address) => address
  | .error _ => counter

/-- Where statements lead the unbounded location counter, from the first address on. -/
def Numbered.locate (statements : List Numbered) : Nat :=
  statements.foldl (fun counter s => s.statement.next counter) 0

/-- Where the bounded location counter goes, the unbounded one goes too. -/
lemma Statement.next_of_advance {counter next : Nat} {s : Statement}
    (h : s.advance counter = .ok next) : s.next counter = next := by
  obtain ⟨step, hstep, happly⟩ := Except.bind_eq_ok_iff.1 h
  rw [Statement.next, hstep]
  cases step with
  | stay =>
    cases happly
    rfl
  | jump address =>
    cases happly
    rfl
  | advance n =>
    rw [Step.apply, Arithmetic.add?_words] at happly
    by_cases hlt : counter + n < Number.limit
    · rw [if_pos hlt] at happly
      cases happly
      rfl
    · rw [if_neg hlt] at happly
      cases happly

/-- One more statement moves the location counter by its own step. -/
lemma Numbered.locate_concat (statements : List Numbered) (s : Numbered) :
    locate (statements ++ [s]) = s.statement.next (locate statements) := by
  simp [locate]

/-- Where the bounded location counter gets through all statements, the unbounded one is at the same
place. -/
lemma Numbered.locate_of_advanceAll {statements : List Numbered} {counter : Nat}
    (h : advanceAll 0 statements = .ok counter) : locate statements = counter := by
  induction statements using List.reverseRecOn generalizing counter with
  | nil =>
    cases h
    rfl
  | append_singleton statements s ih =>
    rw [advanceAll_append, Except.bind_eq_ok_iff] at h
    obtain ⟨middle, hmiddle, hlast⟩ := h
    obtain ⟨final, hfinal, hnil⟩ := Except.bind_eq_ok_iff.1 hlast
    cases hnil
    rw [locate_concat, ih hmiddle]
    exact Statement.next_of_advance hfinal

/-! ## The checks -/

/-- The checks of the elements of a list in order, where each element is checked in view of the
ones before it. -/
def inOrder {α β : Type} (checks : List α → α → List β) (before : List α) : List α → List β
  | [] => []
  | a :: rest => checks before a ++ inOrder checks (before ++ [a]) rest

/-- A check that is made in order belongs to an element of the list. -/
lemma exists_mem_of_mem_inOrder {α β : Type} {checks : List α → α → List β} {before list : List α}
    {c : β} (h : c ∈ inOrder checks before list) : ∃ a ∈ list, ∃ earlier, c ∈ checks earlier a := by
  induction list generalizing before with
  | nil => cases h
  | cons a rest ih =>
    rcases List.mem_append.1 h with h | h
    · exact ⟨a, List.mem_cons_self, before, h⟩
    · obtain ⟨b, hb, earlier, hc⟩ := ih h
      exact ⟨b, List.mem_cons_of_mem a hb, earlier, hc⟩

namespace Source

/-- The first line with a given label. -/
def labelLine? (source : List Text) (name : Text) : Option Nat :=
  ((labels source).find? (·.2 = name)).map Prod.fst

/-- The address of a label: the location counter before the first line that has it. -/
def address? (source : List Text) (name : Text) : Option Nat :=
  (labelLine? source name).map fun line => Numbered.locate (statements (source.take line))

/-! ### First pass -/

/-- The text of a line can be read. -/
def textCheck (raw : Text) : Option Error :=
  (Line.parse raw).error?

/-- The label of a line is new. -/
def labelCheck (before : List Text) (raw : Text) : Option Error :=
  (label? raw).bind fun name =>
    (labelLine? before name).map fun first => .redefinedLabel name first

/-- The statement of a line has a step. -/
def stepCheck (raw : Text) : Option Error :=
  (statement? raw).bind fun s => s.step.error?

/-- The statement of a line does not move the location counter past the last address. -/
def rangeCheck (before : List Text) (raw : Text) : Option Error :=
  (statement? raw).bind fun s =>
    match s.step with
    | .ok (.advance n) =>
      let counter := Numbered.locate (statements before)
      if Number.limit ≤ counter + n then some (.addressOutOfRange counter) else none
    | _ => none

/-- The checks of a line in the first pass, given the lines before it. -/
def lineChecks (before : List Text) (raw : Text) : List (Option Error) :=
  [textCheck raw, labelCheck before raw, stepCheck raw, rangeCheck before raw]

/-- The checks of the first pass, line by line. -/
def firstPassChecks (source : List Text) : List (Option Diagnostic) :=
  inOrder (fun before raw =>
    (lineChecks before raw).map (Option.map (Diagnostic.mk before.length))) [] source

/-! ### Second pass -/

/-- The value of an operand: a number, or the address of a label. -/
def value (source : List Text) (operand : Text) : Except Error Nat :=
  match Operand.parse operand with
  | .error e => .error e
  | .ok (.literal value) => .ok value
  | .ok (.symbol name) =>
    match address? source name with
    | some address => .ok address
    | none => .error (.undefinedLabel name)

/-- An operand has a value, and the value is below a limit. -/
def valueCheck (source : List Text) (limit : Nat) (tooLarge : Text → Nat → Error)
    (operand : Text) : Option Error :=
  match value source operand with
  | .error e => some e
  | .ok value => if limit ≤ value then some (tooLarge operand value) else none

/-- An address is an address of the memory. -/
def cellCheck (address : Nat) : Option Error :=
  if memorySize ≤ address then some (.addressOutOfRange address) else none

/-- The checks of a statement in the second pass, given the location counter before it. -/
def statementChecks (source : List Text) (counter : Nat) : Statement → List (Option Error)
  | .directive .org _ => []
  | .directive .segment _ => []
  | .directive .byte operand =>
    match Operand.items operand with
    | .error _ => []
    | .ok items => (items.zipIdx counter).flatMap fun (item, address) =>
      [valueCheck source 256 .byteOutOfRange item, cellCheck address]
  | .instruction op operand =>
    [if op.takesOperand then valueCheck source 16 .operandOutOfRange operand else none,
      cellCheck counter]

/-- The checks of the second pass, statement by statement. -/
def secondPassChecks (source : List Text) : List (Option Diagnostic) :=
  inOrder (fun before s =>
    (statementChecks source (Numbered.locate before) s.statement).map
      (Option.map (Diagnostic.mk s.line))) [] (statements source)

/-- All checks of a source, in order. -/
def checks (source : List Text) : List (Option Diagnostic) :=
  firstPassChecks source ++ secondPassChecks source

end Source

/-! ## The first pass -/

/-- Searching two lists that are related element by element gives related elements, if the
relation respects what is searched for. -/
lemma rel_find? {α β : Type} {R : α → β → Prop} {p : α → Bool} {q : β → Bool} {as : List α}
    {bs : List β} (h : List.Forall₂ R as bs) (hpq : ∀ a b, R a b → p a = q b) :
    Option.Rel R (as.find? p) (bs.find? q) := by
  induction h with
  | nil => exact Option.Rel.none
  | @cons a b as bs hab _ ih =>
    have := hpq a b hab
    by_cases hq : q b = true
    · rw [List.find?_cons_of_pos (by rw [this, hq]), List.find?_cons_of_pos hq]
      exact Option.Rel.some hab
    · rw [List.find?_cons_of_neg (by rw [this]; exact hq), List.find?_cons_of_neg hq]
      exact ih

namespace Layout

variable {l : Layout} {source : List Text}

/-- The table finds under a name what the first line with that label says. -/
lemma Describes.rel_find? (h : l.Describes source) (name : Text) :
    Option.Rel (BoundAs source) ((Source.labels source).find? (·.2 = name))
      (l.symbols.find? name) :=
  SapOne.rel_find? h.symbols_eq fun label s hs => by rw [hs.name_eq]

/-- A name is bound on the line that the source defines it on. -/
lemma Describes.map_line_find? (h : l.Describes source) (name : Text) :
    (l.symbols.find? name).map Symbol.line = Source.labelLine? source name := by
  have hrel := h.rel_find? name
  rw [Source.labelLine?]
  generalize (Source.labels source).find? (·.2 = name) = label at hrel ⊢
  generalize l.symbols.find? name = s at hrel ⊢
  cases hrel with
  | none => rfl
  | some hs => simp [hs.line_eq]

/-- A name is bound to the address that it has in the source. -/
lemma Describes.address?_eq (h : l.Describes source) (name : Text) :
    l.symbols.address? name = Source.address? source name := by
  have hrel := h.rel_find? name
  rw [Symbols.address?, Source.address?, Source.labelLine?]
  generalize (Source.labels source).find? (·.2 = name) = label at hrel ⊢
  generalize l.symbols.find? name = s at hrel ⊢
  cases hrel with
  | none => rfl
  | some hs => simp [Numbered.locate_of_advanceAll hs.address_eq]

/-- The location counter of the first pass is where the statements of the source lead. -/
lemma Describes.locate_eq (h : l.Describes source) :
    Numbered.locate (Source.statements source) = l.counter :=
  Numbered.locate_of_advanceAll h.counter_eq

/-- Binding a label fails exactly if its name is bound already. -/
lemma decidedBy_labelCheck (h : l.Describes source) (raw : Text) :
    DecidedBy (l.addLabel source.length (Source.label? raw)) [Source.labelCheck source raw] := by
  unfold Source.labelCheck
  cases Source.label? raw with
  | none => rfl
  | some name =>
    rw [Option.bind_some, ← h.map_line_find?, addLabel, Symbols.define]
    cases l.symbols.find? name <;> rfl

/-- Appending a statement fails exactly if it has no step, or if the step leads past the last
address. -/
lemma decidedBy_stepCheck (m : Layout) (h : l.Describes source) (hm : m.counter = l.counter)
    (raw : Text) :
    DecidedBy (m.addStatement source.length (Source.statement? raw))
      [Source.stepCheck raw, Source.rangeCheck source raw] := by
  unfold Source.stepCheck Source.rangeCheck
  cases Source.statement? raw with
  | none => rfl
  | some s =>
    rw [Option.bind_some, Option.bind_some, h.locate_eq, ← hm, addStatement, Statement.advance]
    cases s.step with
    | error e => rfl
    | ok step =>
      cases step with
      | stay => rfl
      | jump address => rfl
      | advance n =>
        by_cases hlt : m.counter + n < Number.limit
        · have happly : (Step.advance n).apply m.counter = .ok (m.counter + n) := by
            rw [Step.apply, Arithmetic.add?_words, if_pos hlt]
          simp only [if_neg (Nat.not_le_of_lt hlt)]
          show DecidedBy ((Step.advance n).apply m.counter >>= _) _
          rw [happly]
          rfl
        · have happly : (Step.advance n).apply m.counter =
              .error (.addressOutOfRange m.counter) := by
            rw [Step.apply, Arithmetic.add?_words, if_neg hlt]
          simp only [if_pos (Nat.le_of_not_lt hlt)]
          show DecidedBy ((Step.advance n).apply m.counter >>= _) _
          rw [happly]
          rfl

/-- **A line of the first pass** is decided by its checks. -/
theorem decidedBy_lineChecks (h : l.Describes source) (raw : Text) :
    DecidedBy (l.addLine source.length raw) (Source.lineChecks source raw) := by
  have hsplit : Source.lineChecks source raw = [Source.textCheck raw] ++
      ([Source.labelCheck source raw] ++ [Source.stepCheck raw, Source.rangeCheck source raw]) :=
    rfl
  rw [addLine_eq, hsplit]
  refine (DecidedBy.self (Line.parse raw)).bind ?_
  intro _ _
  refine (decidedBy_labelCheck h raw).bind ?_
  intro m hm
  exact decidedBy_stepCheck m h (addLabel_eq_ok hm).2.1 raw

/-- **A run of the first pass** is decided by the checks of its lines, in order.

**Proof sketch.** Induction on the lines still to be read. The state describes the lines before
(`Describes.addLine`), so that the checks, which look at these lines, see what the state has. -/
theorem decidedBy_firstPassChecks {before : List Text} (h : l.Describes before)
    (rest : List Text) :
    DecidedBy (l.addLines rest before.length)
      (inOrder (fun before raw =>
        (Source.lineChecks before raw).map (Option.map (Diagnostic.mk before.length)))
        before rest) := by
  induction rest generalizing l before with
  | nil => exact DecidedBy.ok l
  | cons raw rest ih =>
    rw [addLines_cons]
    refine ((decidedBy_lineChecks h raw).atLine before.length).bind ?_
    intro l' hl'
    have h' := h.addLine (atLine_eq_ok_iff.1 hl')
    have hlength : before.length + 1 = (before ++ [raw]).length := by simp
    rw [hlength]
    exact ih h'

end Layout

/-! ## The second pass -/

namespace Encoder

variable {t : Symbols} {source : List Text}

/-- A write fails exactly outside the memory. -/
lemma decidedBy_cellCheck (m : Image) (address : Nat) (byte : UInt8) (line : Nat) :
    DecidedBy (m.write address byte line) [Source.cellCheck address] := by
  unfold Source.cellCheck
  by_cases h : address < memorySize
  · rw [Image.write_of_lt m h, if_neg (Nat.not_le_of_lt h)]
    rfl
  · have hle := Nat.le_of_not_lt h
    rw [Image.write_eq_error_iff.2 ⟨hle, rfl⟩, if_pos hle]
    rfl

/-- A computation that gives the value of an operand, if that is below a limit, is decided by
the check for it. -/
lemma decidedBy_valueCheck {α : Type} (ht : ∀ text, t.evaluate text = Source.value source text)
    (limit : Nat) (tooLarge : Text → Nat → Error) (operand : Text) (f : Nat → α) :
    DecidedBy (t.evaluate operand >>= fun value =>
        if value < limit then .ok (f value) else .error (tooLarge operand value))
      [Source.valueCheck source limit tooLarge operand] := by
  rw [Source.valueCheck, ht]
  cases Source.value source operand with
  | error e => rfl
  | ok value =>
    show DecidedBy (if value < limit then .ok (f value) else _) _
    by_cases h : value < limit
    · simp only [if_pos h, if_neg (Nat.not_le_of_lt h)]
      rfl
    · simp only [if_neg h, if_pos (Nat.le_of_not_lt h)]
      rfl

/-- Writing an item fails on its value, and then on its address. The sum of location counter and
offset cannot leave the range of addresses before the memory does, because the items before it
went into the memory. -/
lemma decidedBy_writeItem (ht : ∀ text, t.evaluate text = Source.value source text)
    {counter offset : Nat} (hoffset : offset = 0 ∨ counter + offset ≤ memorySize) (line : Nat)
    (m : Image) (item : Text) :
    DecidedBy (writeItem t counter line m item offset)
      ([Source.valueCheck source 256 .byteOutOfRange item] ++
        [Source.cellCheck (counter + offset)]) := by
  rw [writeItem, Symbols.itemByte_eq]
  refine (decidedBy_valueCheck ht 256 .byteOutOfRange item UInt8.ofNat).bind ?_
  intro byte _
  rw [Arithmetic.add?_words]
  by_cases hlt : counter + offset < Number.limit
  · rw [if_pos hlt]
    exact decidedBy_cellCheck m (counter + offset) byte line
  · -- only the first item can be so far out
    have hzero : offset = 0 := by
      have : memorySize < Number.limit := by decide
      omega
    have hout : memorySize ≤ counter + 0 := by
      have : memorySize < Number.limit := by decide
      omega
    rw [if_neg hlt, hzero, Source.cellCheck, if_pos hout]
    rfl

/-- Writing items is decided by the checks of the items, in order. -/
lemma decidedBy_writeItems (ht : ∀ text, t.evaluate text = Source.value source text)
    {counter : Nat} (line : Nat) (items : List Text) {offset : Nat}
    (hoffset : offset = 0 ∨ counter + offset ≤ memorySize) (m : Image) :
    DecidedBy ((items.zipIdx offset).foldlM
        (fun image (item, offset) => writeItem t counter line image item offset) m)
      ((items.zipIdx (counter + offset)).flatMap fun (item, address) =>
        [Source.valueCheck source 256 .byteOutOfRange item, Source.cellCheck address]) := by
  induction items generalizing offset m with
  | nil => exact DecidedBy.ok m
  | cons item items ih =>
    rw [List.zipIdx_cons, List.foldlM_cons, List.zipIdx_cons, List.flatMap_cons]
    refine (decidedBy_writeItem ht hoffset line m item).bind ?_
    intro m' hm'
    obtain ⟨byte, -, hwrite⟩ := writeItem_eq_ok_iff.1 hm'
    have hin : counter + offset < memorySize := Image.lt_of_write_eq_ok hwrite
    rw [Nat.add_assoc]
    exact ih (Or.inr (by omega)) m'

/-- **A statement of the second pass** that has a step is decided by its checks. -/
theorem decidedBy_statementChecks (ht : ∀ text, t.evaluate text = Source.value source text)
    (e : Encoder) (s : Numbered) {next : Nat} (hnext : s.statement.advance e.counter = .ok next) :
    DecidedBy (e.add t s) (Source.statementChecks source e.counter s.statement) := by
  have hwrite : DecidedBy (e.write t s.line s.statement)
      (Source.statementChecks source e.counter s.statement) := by
    obtain ⟨line, statement⟩ := s
    match statement with
    | .directive .org operand => exact DecidedBy.ok _
    | .directive .segment operand => exact DecidedBy.ok _
    | .directive .byte operand =>
      obtain ⟨step, hstep, -⟩ := Except.bind_eq_ok_iff.1 hnext
      obtain ⟨items, hitems, -⟩ := Except.map_eq_ok_iff.1 hstep
      rw [write, Source.statementChecks, hitems]
      exact decidedBy_writeItems ht line items (Or.inl rfl) e.image
    | .instruction op operand =>
      have hbyte : DecidedBy (t.instructionByte op operand) [if op.takesOperand then
          Source.valueCheck source 16 .operandOutOfRange operand else none] := by
        by_cases hop : op.takesOperand = true
        · rw [Symbols.instructionByte_of_takesOperand t hop, if_pos hop]
          exact decidedBy_valueCheck ht 16 .operandOutOfRange operand _
        · rw [Symbols.instructionByte_of_not_takesOperand t (by simpa using hop), if_neg hop]
          rfl
      exact hbyte.bind fun byte _ => decidedBy_cellCheck e.image e.counter byte line
  rw [← List.append_nil (Source.statementChecks source e.counter s.statement)]
  refine hwrite.bind ?_
  intro image _
  rw [hnext]
  rfl

/-- **A run of the second pass** over statements that have their steps is decided by the checks
of the statements, in order. -/
theorem decidedBy_addAll (ht : ∀ text, t.evaluate text = Source.value source text)
    (rest : List Numbered) {e : Encoder} {before : List Numbered} {final : Nat}
    (he : e.counter = Numbered.locate before)
    (hrest : Numbered.advanceAll e.counter rest = .ok final) :
    DecidedBy (e.addAll t rest)
      (inOrder (fun before s =>
        (Source.statementChecks source (Numbered.locate before) s.statement).map
          (Option.map (Diagnostic.mk s.line))) before rest) := by
  induction rest generalizing e before with
  | nil => exact DecidedBy.ok e
  | cons s rest ih =>
    rw [Numbered.advanceAll_cons, Except.bind_eq_ok_iff] at hrest
    obtain ⟨next, hnext, hfinal⟩ := hrest
    rw [addAll_cons, inOrder, ← he]
    refine ((decidedBy_statementChecks ht e s hnext).atLine s.line).bind ?_
    intro e' he'
    have hcounter := (add_eq_ok_iff.1 (atLine_eq_ok_iff.1 he')).2
    refine ih ?_ ?_
    · rw [Numbered.locate_concat, ← he, Statement.next_of_advance hcounter]
    · rw [hnext] at hcounter
      cases hcounter
      exact hfinal

end Encoder

/-! ## Both passes -/

/-- An operand has the value that it has in the source. -/
lemma Layout.Describes.evaluate_eq {l : Layout} {source : List Text} (h : l.Describes source)
    (text : Text) : l.symbols.evaluate text = Source.value source text := by
  rw [Symbols.evaluate, Source.value]
  cases Operand.parse text with
  | error e => rfl
  | ok operand =>
    cases operand with
    | literal value => rfl
    | symbol name =>
      have haddress := h.address?_eq name
      show l.symbols.resolve name = _
      unfold Symbols.resolve
      generalize l.symbols.address? name = address at haddress ⊢
      subst haddress
      rfl

/-- The second pass over a program that the first one has read is decided by its checks. -/
lemma Program.decidedBy_encode {source : List Text} {p : Program} (h : ofSource source = .ok p) :
    DecidedBy p.encode (Source.secondPassChecks source) := by
  obtain ⟨l, hl, rfl⟩ := Except.map_eq_ok_iff.1 h
  have hdesc := Layout.describes_of_addLines hl
  refine DecidedBy.map ?_ Encoder.image
  rw [hdesc.statements_eq]
  exact Encoder.decidedBy_addAll hdesc.evaluate_eq _ rfl hdesc.counter_eq

/-- Assembling a source is decided by its checks, those of the first pass before those of the second
one. -/
lemma decidedBy_checks (source : List Text) :
    DecidedBy (assemble source) (Source.checks source) := by
  have hfirst := Layout.decidedBy_firstPassChecks Layout.describes_start source
  refine DecidedBy.map ?_ Assembly.image
  refine (hfirst.map Layout.toProgram).bind ?_
  intro p hp
  rw [← List.append_nil (Source.secondPassChecks source)]
  exact (Program.decidedBy_encode hp).bind fun image _ => DecidedBy.ok _

/-- **Acceptance and the diagnostic are decided by one list of checks.** A source program
assembles exactly if none of its checks fails; otherwise it is rejected with the diagnostic of
the first one that does. In particular a failure of the first pass, on whatever line, comes
before every failure of the second one. -/
theorem assemble_reports_first_failure (source : List Text) :
    ((∃ image, assemble source = .ok image) ↔ ∀ c ∈ Source.checks source, c = none) ∧
      (∀ d, assemble source = .error d ↔ firstFailure (Source.checks source) = some d) ∧
      ∀ d, firstFailure (Source.firstPassChecks source) = some d → assemble source = .error d := by
  have h : (assemble source).error? = firstFailure (Source.checks source) :=
    decidedBy_checks source
  refine ⟨?_, ?_, ?_⟩
  · rw [← Except.error?_eq_none_iff, h, firstFailure_eq_none_iff]
  · intro d
    rw [← Except.error?_eq_some_iff, h]
  · intro d hd
    rw [← Except.error?_eq_some_iff, h, Source.checks, firstFailure_append, hd]
    rfl

/-- The label that is bound twice below comes before the name that is never bound above. -/
example : assemble ["lda nowhere".toList, "x:".toList, "x:".toList] =
    .error ⟨2, .redefinedLabel "x".toList 1⟩ := by
  decide +kernel

end SapOne

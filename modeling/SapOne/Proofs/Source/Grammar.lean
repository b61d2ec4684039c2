import Mathlib.Data.List.TakeWhile
import Mathlib.Logic.ExistsUnique
import Mathlib.Tactic.Lemma
import SapOne.Source.Line

set_option relaxedAutoImplicit false
set_option autoImplicit false

/-!
# The grammar of a line

What a line of a source program may look like, and what it then says, stated without any way of
reading it: as decompositions of a text into runs of letters, blanks and other characters. Reading
a line gives exactly the result that this grammar gives, for every text, and every text has one.

## Main definitions

* `SapOne.Grammar.IsWord`, `SapOne.Grammar.IsToken`, `SapOne.Grammar.IsBlanks` — the runs of
  characters that lines are made of.
* `SapOne.Grammar.IsTrim` — a text and what is left of it between the blanks at its ends.
* `SapOne.Grammar.IsCode`, `SapOne.Grammar.Labelled` — a line without its comment, and its label.
* `SapOne.Grammar.IsDirective`, `SapOne.Grammar.IsInstruction` — the two shapes of a statement.
* `SapOne.Grammar.Reads` — what a line says.

## Main results

* `SapOne.Text.trim_eq_nil_iff` — the texts of which nothing is left.
* `SapOne.Text.trim_append_append` — blanks around a text do not matter.
* `SapOne.Grammar.takeWhile_dropWhile_iff` — a text splits in one way at the end of a run.
* `SapOne.Grammar.label?_eq_some_iff`, `SapOne.Grammar.directive?_eq_some_iff`,
  `SapOne.Grammar.instruction?_eq_some_iff` — what the recognizers recognize.
* `SapOne.Grammar.parse_iff_reads` — reading a line gives what the grammar says.
-/

namespace SapOne

/-! ## Blanks around a text -/

namespace Text

/-- Nothing is left of a text exactly if it is blank throughout. -/
lemma trim_eq_nil_iff {s : Text} : trim s = [] ↔ ∀ c ∈ s, isBlank c = true := by
  have hend : trim s = [] ↔ ∀ c ∈ trimStart s, isBlank c = true := by
    rw [trim, trimEnd, List.reverse_eq_nil_iff, List.dropWhile_eq_nil_iff]
    simp only [List.mem_reverse]
  have hstart : (trimStart s).dropWhile isBlank = s.dropWhile isBlank :=
    trimStart_eq_self fun _ hc => isBlank_of_head?_trimStart hc
  rw [hend, ← List.dropWhile_eq_nil_iff, hstart, List.dropWhile_eq_nil_iff]

/-- Blanks around a text are trimmed off. -/
lemma trim_append_append {a b : Text} (ha : ∀ c ∈ a, isBlank c = true)
    (hb : ∀ c ∈ b, isBlank c = true) (s : Text) : trim (a ++ s ++ b) = trim s := by
  by_cases hs : ∀ c ∈ s, isBlank c = true
  · have hall : ∀ c ∈ a ++ s ++ b, isBlank c = true := by
      intro c hc
      simp only [List.mem_append] at hc
      grind
    rw [trim_eq_nil_iff.2 hs, trim_eq_nil_iff.2 hall]
  · have hrest : (s.dropWhile isBlank).isEmpty = false := by
      rw [← List.dropWhile_eq_nil_iff] at hs
      simpa using hs
    have hstart : trimStart (s ++ b) = trimStart s ++ b := by
      unfold trimStart
      rw [List.dropWhile_append]
      simp [hrest]
    rw [trim, trim, List.append_assoc, trimStart_append ha, hstart, trimEnd_append hb]

end Text

namespace Grammar

/-! ## Runs of characters -/

/-- A word: a run of ASCII letters that is not empty. -/
def IsWord (s : Text) : Prop :=
  s ≠ [] ∧ ∀ c ∈ s, c.isAlpha = true

/-- A run of blanks, possibly empty. -/
def IsBlanks (s : Text) : Prop :=
  ∀ c ∈ s, Text.isBlank c = true

/-- The operand of an instruction: a run of ASCII letters and digits that is not empty, with or
without the sign of base sixteen in front. -/
def IsToken (s : Text) : Prop :=
  ∃ run, (s = run ∨ s = Numeral.hexSign :: run) ∧ run ≠ [] ∧ ∀ c ∈ run, c.isAlphanum = true

/-- No blank stands at the ends of a text. -/
def IsTrimmed (s : Text) : Prop :=
  (∀ c ∈ s.head?, Text.isBlank c = false) ∧ ∀ c ∈ s.getLast?, Text.isBlank c = false

/-- What is left of a text between the blanks at its ends. -/
def IsTrim (s core : Text) : Prop :=
  ∃ front back, s = front ++ core ++ back ∧ IsBlanks front ∧ IsBlanks back ∧ IsTrimmed core

/-! ## Lines -/

/-- The code of a line: the text before the first comment sign, without the blanks at its
ends. -/
def IsCode (raw code : Text) : Prop :=
  ∃ before, (raw = before ∨ ∃ comment, raw = before ++ Line.commentSign :: comment) ∧
    Line.commentSign ∉ before ∧ IsTrim before code

/-- The label in front of a code, if there is one, and what is left behind it. -/
inductive Labelled : Text → Option Text → Text → Prop
  /-- A word and a colon; blanks around the rest do not count. -/
  | label {name tail rest : Text} (hname : IsWord name) (hrest : IsTrim tail rest) :
    Labelled (name ++ ':' :: tail) (some name) rest
  /-- Any other code is the rest as it is. -/
  | plain {code : Text} (h : ∀ name tail, IsWord name → code ≠ name ++ ':' :: tail) :
    Labelled code none code

/-- A dot, a keyword up to the first character that is no letter, and an operand without line
feed; blanks around the operand do not count. -/
def IsDirective (rest keyword operand : Text) : Prop :=
  ∃ tail, rest = '.' :: (keyword ++ tail) ∧ IsWord keyword ∧
    (∀ c ∈ tail.head?, c.isAlpha = false) ∧ '\n' ∉ tail ∧ IsTrim tail operand

/-- A mnemonic alone, or a mnemonic, blanks and an operand. -/
def IsInstruction (rest mnemonic operand : Text) : Prop :=
  IsWord mnemonic ∧ (rest = mnemonic ∧ operand = [] ∨
    ∃ gap, rest = mnemonic ++ gap ++ operand ∧ gap ≠ [] ∧ IsBlanks gap ∧ IsToken operand)

/-- What the part of a line behind its label says. -/
inductive ReadsRest : Text → Except Error (Option Statement) → Prop
  | empty : ReadsRest [] (.ok none)
  /-- A directive whose keyword is spelled in any case of letters. -/
  | directive {rest keyword operand : Text} {d : Directive} (h : IsDirective rest keyword operand)
    (hd : keyword.map Char.toLower = d.keyword) :
    ReadsRest rest (.ok (some (.directive d operand)))
  /-- A directive that does not exist. -/
  | unknownDirective {rest keyword operand : Text} (h : IsDirective rest keyword operand)
    (hd : ∀ d : Directive, keyword.map Char.toLower ≠ d.keyword) :
    ReadsRest rest (.error (.unknownDirective keyword))
  /-- An instruction whose mnemonic is spelled in any case of letters. -/
  | instruction {rest mnemonic operand : Text} {op : Opcode}
    (h : IsInstruction rest mnemonic operand) (hop : mnemonic.map Char.toLower = op.mnemonic) :
    ReadsRest rest (.ok (some (.instruction op operand)))
  /-- An operation that does not exist. -/
  | unknownOperation {rest mnemonic operand : Text} (h : IsInstruction rest mnemonic operand)
    (hop : ∀ op : Opcode, mnemonic.map Char.toLower ≠ op.mnemonic) :
    ReadsRest rest (.error (.unknownOperation mnemonic))
  | malformed {rest : Text} (hne : rest ≠ []) (hd : ∀ k o, ¬ IsDirective rest k o)
    (hi : ∀ m o, ¬ IsInstruction rest m o) :
    ReadsRest rest (.error (.malformed rest))

/-- What a line says. -/
inductive Reads (raw : Text) : Except Error (Option Line) → Prop
  /-- A line without code says nothing. -/
  | blank (h : IsCode raw []) : Reads raw (.ok none)
  /-- A line with code has its label and what the rest says. -/
  | line {code rest : Text} {label : Option Text} {statement : Option Statement}
    (h : IsCode raw code) (hne : code ≠ []) (hlabel : Labelled code label rest)
    (hrest : ReadsRest rest (.ok statement)) : Reads raw (.ok (some ⟨label, statement⟩))
  /-- If the rest cannot be read, neither can the line. -/
  | error {code rest : Text} {label : Option Text} {e : Error}
    (h : IsCode raw code) (hne : code ≠ []) (hlabel : Labelled code label rest)
    (hrest : ReadsRest rest (.error e)) : Reads raw (.error e)

/-! ## Classes of characters -/

/-- Letters and digits are not blank. -/
lemma isBlank_of_isAlphanum {c : Char} (h : c.isAlphanum = true) : Text.isBlank c = false := by
  have hrange : (decide (65 ≤ c.val ∧ c.val ≤ 90) ||
      (decide (97 ≤ c.val) && decide (c.val ≤ 122)) ||
      (decide (48 ≤ c.val) && decide (c.val ≤ 57))) = true := h
  simp only [Bool.or_eq_true, Bool.and_eq_true, decide_eq_true_eq, UInt32.le_iff_toNat_le] at hrange
  have hnat : (65 ≤ c.toNat ∧ c.toNat ≤ 90 ∨ 97 ≤ c.toNat ∧ c.toNat ≤ 122) ∨
      48 ≤ c.toNat ∧ c.toNat ≤ 57 := hrange
  simp only [Text.isBlank, Text.blankRanges, List.any_cons, List.any_nil, Bool.or_eq_false_iff,
    Bool.and_eq_false_iff, decide_eq_false_iff_not, and_true]
  omega

/-- Blanks are not letters. -/
lemma isAlpha_of_isBlank {c : Char} (h : Text.isBlank c = true) : c.isAlpha = false := by
  cases hc : c.isAlpha with
  | false => rfl
  | true =>
    have halpha : c.isAlphanum = true := by simp [Char.isAlphanum, hc]
    rw [isBlank_of_isAlphanum halpha] at h
    cases h

/-! ## Runs -/

/-- **A text splits in one way at the end of a run.** The run of characters with a property at
the beginning of a text and what follows it are determined by two facts: all of the run has the
property, and the first character behind it has not. -/
lemma takeWhile_dropWhile_iff (p : Char → Bool) {s run rest : Text} :
    s.takeWhile p = run ∧ s.dropWhile p = rest ↔
      s = run ++ rest ∧ (∀ c ∈ run, p c = true) ∧ ∀ c ∈ rest.head?, p c = false := by
  constructor
  · rintro ⟨rfl, rfl⟩
    refine ⟨List.takeWhile_append_dropWhile.symm, ?_, ?_⟩
    · intro c hc
      exact List.all_eq_true.1 List.all_takeWhile c hc
    · intro c hc
      have := List.head?_dropWhile_not p s
      rw [Option.mem_def.1 hc] at this
      simpa using this
  · rintro ⟨rfl, hrun, hrest⟩
    rw [List.takeWhile_append_of_pos hrun, List.dropWhile_append_of_pos hrun]
    cases rest with
    | nil => simp
    | cons c rest => simp [hrest c rfl]

/-- Trimming gives what is left between the blanks at the ends of a text. -/
lemma trim_eq_iff {s core : Text} : Text.trim s = core ↔ IsTrim s core := by
  constructor
  · rintro rfl
    obtain ⟨hfront, hblank, -⟩ := (takeWhile_dropWhile_iff Text.isBlank (s := s)).1 ⟨rfl, rfl⟩
    obtain ⟨hback, hblank', -⟩ :=
      (takeWhile_dropWhile_iff Text.isBlank (s := (Text.trimStart s).reverse)).1 ⟨rfl, rfl⟩
    have hend : Text.trimStart s = Text.trim s ++
        ((Text.trimStart s).reverse.takeWhile Text.isBlank).reverse := by
      rw [Text.trim, Text.trimEnd, ← List.reverse_append, ← hback, List.reverse_reverse]
    refine ⟨s.takeWhile Text.isBlank,
      ((Text.trimStart s).reverse.takeWhile Text.isBlank).reverse, ?_, hblank, ?_,
      Text.trim_eq_self_iff.1 (Text.trim_trim s)⟩
    · rw [List.append_assoc, ← hend]
      exact hfront
    · intro c hc
      exact hblank' c (List.mem_reverse.1 hc)
  · rintro ⟨front, back, rfl, hfront, hback, hcore⟩
    rw [Text.trim_append_append hfront hback]
    exact Text.trim_eq_self_iff.2 hcore

/-- Cleaning a line gives its code. -/
lemma clean_eq_iff {raw code : Text} : Line.clean raw = code ↔ IsCode raw code := by
  rw [Line.clean, trim_eq_iff]
  constructor
  · intro h
    obtain ⟨hraw, hbefore, hrest⟩ :=
      (takeWhile_dropWhile_iff (· ≠ Line.commentSign) (s := raw)).1 ⟨rfl, rfl⟩
    refine ⟨_, ?_, ?_, h⟩
    · cases hdrop : raw.dropWhile (· ≠ Line.commentSign) with
      | nil =>
        left
        rw [hdrop, List.append_nil] at hraw
        exact hraw
      | cons c comment =>
        right
        rw [hdrop] at hraw hrest
        have hc : c = Line.commentSign := by simpa using hrest c rfl
        exact ⟨comment, hc ▸ hraw⟩
    · intro hmem
      simpa using hbefore _ hmem
  · rintro ⟨before, hraw, hbefore, htrim⟩
    have hall : ∀ c ∈ before, decide (c ≠ Line.commentSign) = true := by
      intro c hc
      have : c ≠ Line.commentSign := fun h => hbefore (h ▸ hc)
      simpa using this
    suffices hrun : raw.takeWhile (· ≠ Line.commentSign) = before by rwa [hrun]
    rcases hraw with rfl | ⟨comment, rfl⟩
    · exact ((takeWhile_dropWhile_iff _).2 ⟨(List.append_nil raw).symm, hall, by simp⟩).1
    · exact ((takeWhile_dropWhile_iff _).2 ⟨rfl, hall, by simp⟩).1

/-! ## The recognizers -/

/-- A label is recognized in exactly the codes that begin with a word and a colon. -/
lemma label?_eq_some_iff {code name rest : Text} :
    Line.label? code = some (name, rest) ↔
      ∃ tail, code = name ++ ':' :: tail ∧ IsWord name ∧ IsTrim tail rest := by
  unfold Line.label?
  constructor
  · intro h
    obtain ⟨hcode, hletters, -⟩ := (takeWhile_dropWhile_iff Char.isAlpha (s := code)).1 ⟨rfl, rfl⟩
    generalize code.takeWhile Char.isAlpha = run at h hcode hletters
    generalize code.dropWhile Char.isAlpha = tail at h hcode
    split at h
    · cases h
    · next hne =>
      cases h
      exact ⟨_, hcode, ⟨hne, hletters⟩, trim_eq_iff.1 rfl⟩
    · cases h
  · rintro ⟨tail, rfl, ⟨hne, hletters⟩, hrest⟩
    obtain ⟨htake, hdrop⟩ := (takeWhile_dropWhile_iff Char.isAlpha).2
      ⟨rfl, hletters, show ∀ c ∈ (':' :: tail).head?, c.isAlpha = false by simp⟩
    obtain ⟨c, cs, rfl⟩ := List.exists_cons_of_ne_nil hne
    rw [htake, hdrop, ← trim_eq_iff.2 hrest]
    rfl

/-- A text is recognized as a directive exactly if it has the shape of one. -/
lemma directive?_eq_some_iff {rest keyword operand : Text} :
    Line.directive? rest = some (keyword, operand) ↔ IsDirective rest keyword operand := by
  constructor
  · intro h
    unfold Line.directive? at h
    split at h
    · next s =>
      obtain ⟨hs, hletters, hnext⟩ := (takeWhile_dropWhile_iff Char.isAlpha (s := s)).1 ⟨rfl, rfl⟩
      generalize s.takeWhile Char.isAlpha = run at h hs hletters
      generalize s.dropWhile Char.isAlpha = tail at h hs hnext
      by_cases hcond : (run.isEmpty || tail.contains '\n') = true
      · simp only [hcond, if_true, reduceCtorEq] at h
      · simp only [hcond, Bool.false_eq_true, if_false, Option.some.injEq, Prod.mk.injEq] at h
        obtain ⟨rfl, rfl⟩ := h
        simp only [Bool.or_eq_true, List.isEmpty_iff, List.contains_iff_mem, not_or] at hcond
        exact ⟨tail, by rw [hs], ⟨hcond.1, hletters⟩, hnext, hcond.2, trim_eq_iff.1 rfl⟩
    · cases h
  · rintro ⟨tail, rfl, ⟨hne, hletters⟩, hnext, hline, htrim⟩
    obtain ⟨htake, hdrop⟩ := (takeWhile_dropWhile_iff Char.isAlpha).2 ⟨rfl, hletters, hnext⟩
    have hcond : (keyword.isEmpty || tail.contains '\n') = false := by
      simp [hne, hline]
    simp only [Line.directive?, htake, hdrop, hcond, trim_eq_iff.2 htrim, Bool.false_eq_true,
      if_false]

/-- The test for a token recognizes tokens. -/
lemma isToken_iff {s : Text} : Line.isToken s = true ↔ IsToken s := by
  cases s with
  | nil =>
    constructor
    · intro h
      cases h
    · rintro ⟨run, hs | hs, hne, -⟩
      · exact absurd hs.symm hne
      · cases hs
  | cons c s =>
    rw [Line.isToken]
    by_cases hc : c = Numeral.hexSign
    · rw [if_pos hc]
      constructor
      · intro h
        simp only [Bool.and_eq_true, Bool.not_eq_true', List.isEmpty_eq_false_iff,
          List.all_eq_true] at h
        exact ⟨s, Or.inr (by rw [hc]), h.1, h.2⟩
      · rintro ⟨run, hs | hs, hne, hrun⟩
        · -- the sign of base sixteen cannot itself be part of the run
          have : Numeral.hexSign.isAlphanum = true := hrun _ (by rw [← hs, hc]; simp)
          exact absurd this (by decide)
        · cases hs
          simpa [hne] using hrun
    · rw [if_neg hc, List.all_eq_true]
      constructor
      · intro h
        exact ⟨c :: s, Or.inl rfl, by simp, h⟩
      · rintro ⟨run, hs | hs, hne, hrun⟩
        · rw [hs]
          exact hrun
        · cases hs
          exact absurd rfl hc

/-- A token does not begin with a blank. -/
lemma IsToken.isBlank_head {s : Text} (h : IsToken s) : ∀ c ∈ s.head?, Text.isBlank c = false := by
  obtain ⟨run, hs, -, hrun⟩ := h
  intro c hc
  rcases hs with rfl | rfl
  · exact isBlank_of_isAlphanum (hrun c (List.mem_of_mem_head? hc))
  · cases hc
    decide

/-- An instruction is recognized exactly where there is one.

**Proof sketch.** The mnemonic is the run of letters in front. Behind it there is either nothing,
or a blank, further blanks and a token: the blanks are then the run up to the first character of
the token, and the mnemonic ends before them because no letter is blank. -/
lemma instruction?_eq_some_iff {rest mnemonic operand : Text} :
    Line.instruction? rest = some (mnemonic, operand) ↔ IsInstruction rest mnemonic operand := by
  unfold Line.instruction?
  constructor
  · intro h
    obtain ⟨hrest, hletters, -⟩ := (takeWhile_dropWhile_iff Char.isAlpha (s := rest)).1 ⟨rfl, rfl⟩
    generalize rest.takeWhile Char.isAlpha = run at h hrest hletters
    generalize rest.dropWhile Char.isAlpha = tail at h hrest
    split at h
    · cases h
    · next hne =>
      cases h
      exact ⟨⟨hne, hletters⟩, Or.inl ⟨by rw [hrest, List.append_nil], rfl⟩⟩
    · -- the character behind the letters decides, and has to be the first blank of the gap
      next c tail hne =>
      by_cases hcond : (Text.isBlank c && Line.isToken (Text.trimStart tail)) = true
      · simp only [hcond, if_true, Option.some.injEq, Prod.mk.injEq] at h
        obtain ⟨rfl, rfl⟩ := h
        rw [Bool.and_eq_true, isToken_iff] at hcond
        obtain ⟨htail, hblanks, -⟩ :=
          (takeWhile_dropWhile_iff Text.isBlank (s := tail)).1 ⟨rfl, rfl⟩
        refine ⟨⟨hne, hletters⟩, Or.inr ⟨c :: tail.takeWhile Text.isBlank, ?_, by simp, ?_,
          hcond.2⟩⟩
        · rw [hrest, List.append_assoc, List.cons_append]
          exact congrArg (fun s => run ++ c :: s) htail
        · intro d hd
          rcases List.mem_cons.1 hd with rfl | hd
          · exact hcond.1
          · exact hblanks d hd
      · simp only [hcond, Bool.false_eq_true, if_false, reduceCtorEq] at h
  · rintro ⟨⟨hne, hletters⟩, ⟨rfl, rfl⟩ | ⟨gap, rfl, hgap, hblanks, htoken⟩⟩
    · obtain ⟨htake, hdrop⟩ := (takeWhile_dropWhile_iff Char.isAlpha).2
        ⟨(List.append_nil rest).symm, hletters, by simp⟩
      obtain ⟨c, cs, rfl⟩ := List.exists_cons_of_ne_nil hne
      rw [htake, hdrop]
    · obtain ⟨b, gap, rfl⟩ := List.exists_cons_of_ne_nil hgap
      have hb : Text.isBlank b = true := hblanks b List.mem_cons_self
      have hoperand : Text.trimStart (gap ++ operand) = operand := by
        rw [Text.trimStart_append fun c hc => hblanks c (List.mem_cons_of_mem b hc)]
        exact Text.trimStart_eq_self htoken.isBlank_head
      obtain ⟨htake, hdrop⟩ := (takeWhile_dropWhile_iff Char.isAlpha).2
        ⟨List.append_assoc mnemonic (b :: gap) operand, hletters, by
          intro c hc
          cases hc
          exact isAlpha_of_isBlank hb⟩
      obtain ⟨c, cs, rfl⟩ := List.exists_cons_of_ne_nil hne
      rw [htake, hdrop]
      simp only [List.cons_append, hoperand, hb, isToken_iff.2 htoken, Bool.and_self, if_true]

/-- No text is both a directive and an instruction: one begins with a dot, the other with a
letter. -/
lemma IsDirective.not_isInstruction {rest keyword operand mnemonic operand' : Text}
    (h : IsDirective rest keyword operand) : ¬ IsInstruction rest mnemonic operand' := by
  rintro ⟨⟨hne, hletters⟩, hrest⟩
  obtain ⟨c, cs, rfl⟩ := List.exists_cons_of_ne_nil hne
  obtain ⟨tail, hdot, -⟩ := h
  have hc : c = '.' := by
    rcases hrest with ⟨hrest, -⟩ | ⟨gap, hrest, -⟩
    · rw [hrest] at hdot
      exact (List.cons.inj hdot).1
    · rw [hrest] at hdot
      exact (List.cons.inj hdot).1
  have := hletters c List.mem_cons_self
  rw [hc] at this
  exact absurd this (by decide)

/-! ## Reading a line -/

/-- The label of a code and the rest behind it, as the recognizer for labels finds them. -/
def splitLabel (code : Text) : Option Text × Text :=
  match Line.label? code with
  | some (name, rest) => (some name, rest)
  | none => (none, code)

/-- **Every code splits in one way** into a label and a rest. -/
lemma labelled_iff {code rest : Text} {label : Option Text} :
    Labelled code label rest ↔ splitLabel code = (label, rest) := by
  unfold splitLabel
  constructor
  · intro h
    cases h with
    | @label name tail rest hname hrest =>
      rw [label?_eq_some_iff.2 ⟨tail, rfl, hname, hrest⟩]
    | plain h =>
      cases hlabel : Line.label? code with
      | none => rfl
      | some split =>
        obtain ⟨tail, hcode, hname, -⟩ := label?_eq_some_iff.1 hlabel
        exact absurd hcode (h _ tail hname)
  · intro h
    cases hlabel : Line.label? code with
    | none =>
      rw [hlabel] at h
      cases h
      refine Labelled.plain ?_
      intro name tail hname hcode
      rw [label?_eq_some_iff.2 ⟨tail, hcode, hname, trim_eq_iff.1 rfl⟩] at hlabel
      cases hlabel
    | some split =>
      obtain ⟨tail, rfl, hname, hrest⟩ := label?_eq_some_iff.1 hlabel
      rw [hlabel] at h
      cases h
      exact Labelled.label hname hrest

/-- A directive is not empty. -/
lemma IsDirective.ne_nil {rest keyword operand : Text} (h : IsDirective rest keyword operand) :
    rest ≠ [] := by
  obtain ⟨tail, rfl, -⟩ := h
  exact List.cons_ne_nil _ _

/-- An instruction is not empty. -/
lemma IsInstruction.ne_nil {rest mnemonic operand : Text}
    (h : IsInstruction rest mnemonic operand) : rest ≠ [] := by
  obtain ⟨⟨hne, -⟩, ⟨rfl, -⟩ | ⟨gap, rfl, -⟩⟩ := h
  · exact hne
  · simp [hne]

/-- A text with the shape of a directive is read as one, if its keyword is known. -/
lemma parseRest_of_isDirective {rest keyword operand : Text}
    (h : IsDirective rest keyword operand) :
    Line.parseRest rest =
      (Directive.parse keyword).map fun d => some (.directive d operand) := by
  rw [Line.parseRest, if_neg (by simpa using h.ne_nil), Line.parseStatement,
    directive?_eq_some_iff.2 h]
  simp only
  cases Directive.parse keyword <;> rfl

/-- A text without the shape of a directive is not recognized as one. -/
lemma directive?_eq_none {rest : Text} (h : ∀ k o, ¬ IsDirective rest k o) :
    Line.directive? rest = none := by
  cases hd : Line.directive? rest with
  | none => rfl
  | some split => exact absurd (directive?_eq_some_iff.1 hd) (h _ _)

/-- A text with the shape of an instruction is read as one, if its mnemonic is known. -/
lemma parseRest_of_isInstruction {rest mnemonic operand : Text}
    (h : IsInstruction rest mnemonic operand) :
    Line.parseRest rest =
      match Opcode.ofMnemonic? mnemonic with
      | some op => .ok (some (.instruction op operand))
      | none => .error (.unknownOperation mnemonic) := by
  have hd : Line.directive? rest = none :=
    directive?_eq_none fun keyword operand' hd => hd.not_isInstruction h
  rw [Line.parseRest, if_neg (by simpa using h.ne_nil), Line.parseStatement, hd,
    instruction?_eq_some_iff.2 h]
  simp only
  cases Opcode.ofMnemonic? mnemonic <;> rfl

/-- A text with neither shape is malformed, unless it is empty. -/
lemma parseRest_of_malformed {rest : Text} (hne : rest ≠ []) (hd : ∀ k o, ¬ IsDirective rest k o)
    (hi : ∀ m o, ¬ IsInstruction rest m o) :
    Line.parseRest rest = .error (.malformed rest) := by
  have hnone : Line.instruction? rest = none := by
    cases hm : Line.instruction? rest with
    | none => rfl
    | some split => exact absurd (instruction?_eq_some_iff.1 hm) (hi _ _)
  rw [Line.parseRest, if_neg (by simpa using hne), Line.parseStatement, directive?_eq_none hd,
    hnone]
  rfl

/-- What the grammar says about a statement is what is read. -/
lemma parseRest_of_readsRest {rest : Text} {result : Except Error (Option Statement)}
    (h : ReadsRest rest result) : Line.parseRest rest = result := by
  cases h with
  | empty => rfl
  | directive h hd =>
    rw [parseRest_of_isDirective h, Directive.parse, Directive.ofKeyword?_eq_some_iff.2 hd]
    rfl
  | @unknownDirective _ keyword _ h hd =>
    have hnone : Directive.ofKeyword? keyword = none := by
      cases hk : Directive.ofKeyword? keyword with
      | none => rfl
      | some d => exact absurd (Directive.ofKeyword?_eq_some_iff.1 hk) (hd d)
    rw [parseRest_of_isDirective h, Directive.parse, hnone]
    rfl
  | instruction h hop =>
    rw [parseRest_of_isInstruction h, Opcode.ofMnemonic?_eq_some_iff.2 hop]
  | @unknownOperation _ mnemonic _ h hop =>
    have hnone : Opcode.ofMnemonic? mnemonic = none := by
      cases hm : Opcode.ofMnemonic? mnemonic with
      | none => rfl
      | some op => exact absurd (Opcode.ofMnemonic?_eq_some_iff.1 hm) (hop op)
    rw [parseRest_of_isInstruction h, hnone]
  | malformed hne hd hi => exact parseRest_of_malformed hne hd hi

/-- The rest of every line says something.

**Proof sketch.** It is empty, or it has the shape of a directive, or that of an instruction, or
none of these. In the two middle cases the keyword or mnemonic exists or not. -/
lemma exists_readsRest (rest : Text) : ∃ result, ReadsRest rest result := by
  by_cases hempty : rest = []
  · rw [hempty]
    exact ⟨_, ReadsRest.empty⟩
  by_cases hd : ∃ keyword operand, IsDirective rest keyword operand
  · obtain ⟨keyword, operand, h⟩ := hd
    by_cases hk : ∃ d : Directive, keyword.map Char.toLower = d.keyword
    · obtain ⟨d, hk⟩ := hk
      exact ⟨_, ReadsRest.directive h hk⟩
    · exact ⟨_, ReadsRest.unknownDirective h (by simpa using hk)⟩
  by_cases hi : ∃ mnemonic operand, IsInstruction rest mnemonic operand
  · obtain ⟨mnemonic, operand, h⟩ := hi
    by_cases hm : ∃ op : Opcode, mnemonic.map Char.toLower = op.mnemonic
    · obtain ⟨op, hm⟩ := hm
      exact ⟨_, ReadsRest.instruction h hm⟩
    · exact ⟨_, ReadsRest.unknownOperation h (by simpa using hm)⟩
  · exact ⟨_, ReadsRest.malformed hempty (by simpa using hd) (by simpa using hi)⟩

/-- Reading the rest of a line gives what it says, and nothing else. -/
lemma parseRest_eq_iff {rest : Text} {result : Except Error (Option Statement)} :
    Line.parseRest rest = result ↔ ReadsRest rest result := by
  constructor
  · rintro rfl
    obtain ⟨result, h⟩ := exists_readsRest rest
    rw [parseRest_of_readsRest h]
    exact h
  · exact parseRest_of_readsRest

/-- Reading a line is cleaning it, splitting off its label and reading the rest. -/
lemma parse_eq (raw : Text) :
    Line.parse raw = if (Line.clean raw).isEmpty then .ok none else
      (Line.parseRest (splitLabel (Line.clean raw)).2).map fun statement =>
        some ⟨(splitLabel (Line.clean raw)).1, statement⟩ := by
  rw [Line.parse, splitLabel]
  generalize Line.clean raw = code
  cases Line.label? code with
  | none => rfl
  | some split => rfl

/-- Reading a line gives what it says, and nothing else. -/
lemma parse_eq_iff {raw : Text} {result : Except Error (Option Line)} :
    Line.parse raw = result ↔ Reads raw result := by
  rw [parse_eq]
  constructor
  · intro h
    by_cases hempty : Line.clean raw = []
    · rw [if_pos (by simpa using hempty)] at h
      rw [← h]
      exact Reads.blank (clean_eq_iff.1 hempty)
    · rw [if_neg (by simpa using hempty)] at h
      have hlabel : Labelled (Line.clean raw) (splitLabel (Line.clean raw)).1
          (splitLabel (Line.clean raw)).2 := labelled_iff.2 rfl
      cases hrest : Line.parseRest (splitLabel (Line.clean raw)).2 with
      | ok statement =>
        rw [hrest] at h
        rw [← h]
        exact Reads.line (clean_eq_iff.1 rfl) hempty hlabel (parseRest_eq_iff.1 hrest)
      | error e =>
        rw [hrest] at h
        rw [← h]
        exact Reads.error (clean_eq_iff.1 rfl) hempty hlabel (parseRest_eq_iff.1 hrest)
  · intro h
    cases h with
    | blank h => rw [if_pos (by simpa using clean_eq_iff.2 h)]
    | line h hne hlabel hrest =>
      rw [clean_eq_iff.2 h, if_neg (by simpa using hne), labelled_iff.1 hlabel,
        parseRest_eq_iff.2 hrest]
      rfl
    | error h hne hlabel hrest =>
      rw [clean_eq_iff.2 h, if_neg (by simpa using hne), labelled_iff.1 hlabel,
        parseRest_eq_iff.2 hrest]
      rfl

/-- Only a text that is not empty and has no blanks at its ends is reported as malformed. -/
lemma Reads.trimmed_of_malformed {raw r : Text} (h : Reads raw (.error (.malformed r))) :
    r ≠ [] ∧ IsTrimmed r := by
  cases h with
  | error hcode _ hlabel hrest =>
    cases hrest with
    | malformed hne _ _ =>
      refine ⟨hne, ?_⟩
      cases hlabel with
      | label _ htrim =>
        obtain ⟨front, back, -, -, -, htrimmed⟩ := htrim
        exact htrimmed
      | plain _ =>
        obtain ⟨before, -, -, front, back, -, -, -, htrimmed⟩ := hcode
        exact htrimmed

/-- **Reading a line follows the grammar.** For every text: cleaning gives its code and nothing
else; the code splits in exactly one way into a label and a rest; the line says nothing exactly
if its code is empty; and reading gives a result, be it a line or an error, exactly if the grammar
gives it. A text that is reported as malformed is not empty and has no blanks at its ends.

**Proof sketch.** Each recognizer takes the longest run of letters, which is the only way to split
a text that fits its shape. The shapes exclude each other, and what fits none of them is
malformed. -/
theorem parse_iff_reads (raw : Text) :
    (∀ code, Line.clean raw = code ↔ IsCode raw code) ∧
    (∀ code, ∃! split : Option Text × Text, Labelled code split.1 split.2) ∧
    (Line.parse raw = .ok none ↔ IsCode raw []) ∧
    (∀ result, Line.parse raw = result ↔ Reads raw result) ∧
    ∀ r, Line.parse raw = .error (.malformed r) → r ≠ [] ∧ IsTrimmed r := by
  refine ⟨fun code => clean_eq_iff, ?_, ?_, fun result => parse_eq_iff, ?_⟩
  · intro code
    refine ⟨splitLabel code, labelled_iff.2 rfl, ?_⟩
    intro split hsplit
    exact (labelled_iff.1 hsplit).symm
  · rw [parse_eq_iff]
    constructor
    · intro h
      cases h with
      | blank h => exact h
    · exact Reads.blank
  · intro r h
    exact (parse_eq_iff.1 h).trimmed_of_malformed

/-- No blank is needed behind a keyword. -/
example : Line.parse "Top: .ORG5 ; here".toList =
    .ok (some ⟨some "Top".toList, some (.directive .org "5".toList)⟩) := by
  rfl

/-- An instruction has one operand at most. -/
example : Line.parse "a:  lda 1 2 ".toList = .error (.malformed "lda 1 2".toList) := by
  rfl

end Grammar

end SapOne

import Mathlib.Tactic.ByContra
import SapOne.Proofs.Source.Grammar

set_option relaxedAutoImplicit false
set_option autoImplicit false

/-!
# Writing lines down

A line can be written in many ways: with blanks between its parts, with keywords and mnemonics in
any case of letters, with a comment or without one. This module writes a line down in a given
format. Reading a line that was written in any format gives the line back, and every text that
reads as a line is that line in some format.

## Main definitions

* `SapOne.Line.WellFormed` — the lines that can be written at all.
* `SapOne.Line.Format` — the blanks, the spelling and the comment of a written line.
* `SapOne.Line.Format.Fits` — a format in which a line can be written.
* `SapOne.Line.render` — writes a line in a format.
* `SapOne.Statement.plain` — a statement alone on a line, in its plainest form.

## Main results

* `SapOne.Line.parseRest_trim_render` — a written statement is read back.
* `SapOne.Line.splitLabel_trim_label`, `SapOne.Line.splitLabel_trim_render` — a written label is
  found again, and none where there is none.
* `SapOne.Line.exists_spelling` — every statement that was read was written in some spelling.
* `SapOne.Line.parse_inverts_render` — reading is exactly the inverse of writing.
* `SapOne.Line.parse_plain` — a statement in its plainest form is read back.
* `SapOne.Line.parse_directive` — and so is a directive with blanks around its operand.
-/

namespace SapOne

open Grammar

/-! ## Trimming behind a text that does not end with a blank -/

namespace Text

/-- The end of a text is trimmed as if nothing stood before it, if what stands before it does not
end with a blank. -/
lemma trimEnd_append_right {s : Text} (hs : ∀ c ∈ s.getLast?, isBlank c = false) (t : Text) :
    trimEnd (s ++ t) = s ++ trimEnd t := by
  have hkeep : s.reverse.dropWhile isBlank = s.reverse :=
    trimStart_eq_self (s := s.reverse) (by simpa using hs)
  rw [trimEnd, trimEnd, List.reverse_append, List.dropWhile_append]
  by_cases hempty : (t.reverse.dropWhile isBlank).isEmpty = true
  · have hnil : t.reverse.dropWhile isBlank = [] := by simpa using hempty
    rw [if_pos hempty, hkeep, hnil, List.reverse_reverse, List.reverse_nil, List.append_nil]
  · rw [if_neg hempty, List.reverse_append, List.reverse_reverse]

/-- Trimming the end of a text leaves a beginning of it. -/
lemma trimEnd_isPrefix (s : Text) : trimEnd s <+: s := by
  have := List.dropWhile_suffix isBlank (l := s.reverse)
  simpa [trimEnd] using List.reverse_prefix.2 this

/-- Trimming both ends does the work of trimming one. -/
lemma trim_trimEnd (s : Text) : trim (trimEnd s) = trim s := by
  obtain ⟨hsplit, hblank, -⟩ := (takeWhile_dropWhile_iff isBlank (s := s.reverse)).1 ⟨rfl, rfl⟩
  have hback : ∀ c ∈ (s.reverse.takeWhile isBlank).reverse, isBlank c = true :=
    fun c hc => hblank c (List.mem_reverse.1 hc)
  have hs : s = [] ++ trimEnd s ++ (s.reverse.takeWhile isBlank).reverse := by
    rw [List.nil_append, trimEnd, ← List.reverse_append, ← hsplit, List.reverse_reverse]
  calc trim (trimEnd s)
      = trim ([] ++ trimEnd s ++ (s.reverse.takeWhile isBlank).reverse) :=
        (trim_append_append (by simp) hback _).symm
    _ = trim s := by rw [← hs]

end Text

/-! ## Characters of words and tokens -/

namespace Grammar

/-- What is a letter in small is a letter. -/
lemma isAlpha_of_isAlpha_toLower {c : Char} (h : c.toLower.isAlpha = true) : c.isAlpha = true := by
  by_cases hupper : c.isUpper = true
  · exact Bool.or_eq_true_iff.2 (Or.inl hupper)
  · have hsame : c.toLower = c := dif_neg fun hrange => hupper (decide_eq_true hrange)
    rwa [hsame] at h

/-- Whatever spells a word in small letters is a word. -/
lemma isWord_of_map_toLower {s : Text} (h : IsWord (s.map Char.toLower)) : IsWord s := by
  refine ⟨fun hnil => h.1 (by rw [hnil]; rfl), ?_⟩
  intro c hc
  exact isAlpha_of_isAlpha_toLower (h.2 _ (List.mem_map_of_mem hc))

/-- There is no blank in a word. -/
lemma IsWord.isBlank_of_mem {s : Text} (h : IsWord s) {c : Char} (hc : c ∈ s) :
    Text.isBlank c = false :=
  isBlank_of_isAlphanum (by simp [Char.isAlphanum, h.2 c hc])

/-- A token is not empty. -/
lemma IsToken.ne_nil {s : Text} (h : IsToken s) : s ≠ [] := by
  obtain ⟨run, rfl | rfl, hne, -⟩ := h
  · exact hne
  · simp

/-- A token has letters and digits, and the sign of base sixteen. -/
lemma IsToken.isAlphanum_of_mem {s : Text} (h : IsToken s) {c : Char} (hc : c ∈ s) :
    c = Numeral.hexSign ∨ c.isAlphanum = true := by
  obtain ⟨run, rfl | rfl, -, hrun⟩ := h
  · exact Or.inr (hrun c hc)
  · rcases List.mem_cons.1 hc with rfl | hc
    · exact Or.inl rfl
    · exact Or.inr (hrun c hc)

/-- There is no blank in a token. -/
lemma IsToken.isBlank_of_mem {s : Text} (h : IsToken s) {c : Char} (hc : c ∈ s) :
    Text.isBlank c = false := by
  rcases h.isAlphanum_of_mem hc with rfl | hc
  · decide
  · exact isBlank_of_isAlphanum hc

/-- No blank stands at the ends of a token. -/
lemma IsToken.isTrimmed {s : Text} (h : IsToken s) : IsTrimmed s :=
  ⟨fun _ hc => h.isBlank_of_mem (List.mem_of_mem_head? hc),
    fun _ hc => h.isBlank_of_mem (List.mem_of_getLast? hc)⟩

/-- Trimming leaves a token as it is. -/
lemma IsToken.trim_eq_self {s : Text} (h : IsToken s) : Text.trim s = s :=
  Text.trim_eq_self_iff.2 h.isTrimmed

/-- No comment begins in a word. -/
lemma IsWord.commentSign_not_mem {s : Text} (h : IsWord s) : Line.commentSign ∉ s := by
  intro hmem
  exact absurd (h.2 _ hmem) (by decide)

/-- No comment begins in blanks. -/
lemma IsBlanks.commentSign_not_mem {s : Text} (h : IsBlanks s) : Line.commentSign ∉ s := by
  intro hmem
  exact absurd (h _ hmem) (by decide)

/-- No comment begins in a token. -/
lemma IsToken.commentSign_not_mem {s : Text} (h : IsToken s) : Line.commentSign ∉ s := by
  intro hmem
  exact absurd (h.isAlphanum_of_mem hmem) (by decide)

/-- What stands between blanks has no character that is neither blank nor in it. -/
lemma IsTrim.not_mem {piece core : Text} (h : IsTrim piece core) {c : Char}
    (hblank : Text.isBlank c = false) (hcore : c ∉ core) : c ∉ piece := by
  obtain ⟨front, back, rfl, hfront, hback, -⟩ := h
  intro hmem
  rcases List.mem_append.1 hmem with hmem | hmem
  · rcases List.mem_append.1 hmem with hmem | hmem
    · rw [hfront c hmem] at hblank
      cases hblank
    · exact hcore hmem
  · rw [hback c hmem] at hblank
    cases hblank

/-- An instruction has no colon anywhere. -/
lemma IsInstruction.colon_not_mem {rest mnemonic operand : Text}
    (h : IsInstruction rest mnemonic operand) : ':' ∉ rest := by
  obtain ⟨hword, hrest⟩ := h
  have hmnemonic : ':' ∉ mnemonic := fun hmem => absurd (hword.2 _ hmem) (by decide)
  rcases hrest with ⟨rfl, -⟩ | ⟨gap, rfl, -, hgap, htoken⟩
  · exact hmnemonic
  · have hgap' : ':' ∉ gap := fun hmem => absurd (hgap _ hmem) (by decide)
    have hoperand : ':' ∉ operand :=
      fun hmem => absurd (htoken.isAlphanum_of_mem hmem) (by decide)
    simp [hmnemonic, hgap', hoperand]

end Grammar

/-! ## Well-formed lines -/

/-- A statement that can be written: the operand of a directive has no blanks at its ends, no
comment sign and no line feed; the operand of an instruction is a token, or empty. -/
def Statement.WellFormed : Statement → Prop
  | directive _ operand => IsTrimmed operand ∧ Line.commentSign ∉ operand ∧ '\n' ∉ operand
  | instruction _ operand => operand = [] ∨ IsToken operand

namespace Line

/-- A line that can be written. -/
structure WellFormed (line : Line) : Prop where
  /-- It has a label or a statement. -/
  nonempty : line.label ≠ none ∨ line.statement ≠ none
  /-- The label is a word. -/
  label : ∀ name ∈ line.label, IsWord name
  statement : ∀ s ∈ line.statement, s.WellFormed

/-! ## Formats -/

/-- How a line is written. -/
structure Format where
  /-- Blanks before the label, or before the statement if there is no label. -/
  front : Text
  /-- Blanks behind the colon of the label. -/
  indent : Text
  /-- The keyword or the mnemonic, as it is spelled. -/
  spelling : Text
  /-- Blanks between the keyword or the mnemonic and the operand. -/
  gap : Text
  /-- Blanks at the end. -/
  back : Text
  /-- The comment, without the sign that begins it. -/
  comment : Option Text

/-- A statement, written with a given spelling and gap. -/
def renderStatement (spelling gap : Text) : Statement → Text
  | .directive _ operand => '.' :: (spelling ++ (gap ++ operand))
  | .instruction _ operand => spelling ++ (gap ++ operand)

/-- A spelling and a gap in which a statement can be written. The case of letters is free. The gap
of a directive has no line feed, and keeps an operand that begins with a letter apart from the
keyword; the gap of an instruction keeps any operand apart from the mnemonic. -/
def IsSpelling (spelling gap : Text) : Statement → Prop
  | .directive d operand => spelling.map Char.toLower = d.keyword ∧ '\n' ∉ gap ∧
      ((∃ c ∈ operand.head?, c.isAlpha = true) → gap ≠ [])
  | .instruction op operand => spelling.map Char.toLower = op.mnemonic ∧ (operand ≠ [] → gap ≠ [])

/-- A line, written in a given format. -/
def render (format : Format) (line : Line) : Text :=
  format.front ++ line.label.elim [] (· ++ ':' :: format.indent) ++
    line.statement.elim [] (renderStatement format.spelling format.gap) ++ format.back ++
    format.comment.elim [] (commentSign :: ·)

/-- A format in which a line can be written. -/
structure Format.Fits (format : Format) (line : Line) : Prop where
  front : IsBlanks format.front
  indent : IsBlanks format.indent
  gap : IsBlanks format.gap
  back : IsBlanks format.back
  spelling : ∀ s ∈ line.statement, IsSpelling format.spelling format.gap s

/-- The keyword or mnemonic of a statement is a word, in any spelling. -/
lemma IsSpelling.isWord {spelling gap : Text} {s : Statement} (h : IsSpelling spelling gap s) :
    IsWord spelling := by
  refine isWord_of_map_toLower ?_
  match s with
  | .directive d operand =>
    rw [h.1]
    cases d <;> exact ⟨by decide, List.all_eq_true.1 (by decide)⟩
  | .instruction op operand =>
    rw [h.1]
    cases op <;> exact ⟨by decide, List.all_eq_true.1 (by decide)⟩

/-! ## Reading a written statement -/

variable {spelling gap : Text}

/-- A written directive is a directive, with the spelling as its keyword. -/
lemma isDirective_trim_render {d : Directive} {operand : Text}
    (hs : (Statement.directive d operand).WellFormed)
    (h : IsSpelling spelling gap (.directive d operand)) (hgap : IsBlanks gap) :
    IsDirective (Text.trim (renderStatement spelling gap (.directive d operand))) spelling
      operand := by
  have hword := h.isWord
  obtain ⟨htrimmed, -, hline⟩ := hs
  obtain ⟨-, hgapline, hapart⟩ := h
  have hpre := Text.trimEnd_isPrefix (gap ++ operand)
  have htrim : Text.trim (renderStatement spelling gap (.directive d operand)) =
      '.' :: (spelling ++ Text.trimEnd (gap ++ operand)) := by
    have hstart : Text.trimStart ('.' :: (spelling ++ (gap ++ operand))) =
        '.' :: (spelling ++ (gap ++ operand)) :=
      Text.trimStart_eq_self (by intro c hc; cases hc; decide)
    have hend : ∀ c ∈ ('.' :: spelling).getLast?, Text.isBlank c = false := by
      intro c hc
      rcases List.mem_cons.1 (List.mem_of_getLast? hc) with rfl | hc
      · decide
      · exact hword.isBlank_of_mem hc
    rw [renderStatement, Text.trim, hstart, ← List.cons_append,
      Text.trimEnd_append_right hend, List.cons_append]
  refine ⟨Text.trimEnd (gap ++ operand), htrim, hword, ?_, ?_, ?_⟩
  · intro c hc
    have hhead := Text.head?_trimEnd hc
    cases gap with
    | nil =>
      -- without a gap the operand does not go on with a letter, or the keyword would not end here
      by_contra halpha
      exact hapart ⟨c, hhead, by simpa using halpha⟩ rfl
    | cons b gap =>
      cases hhead
      exact isAlpha_of_isBlank (hgap _ List.mem_cons_self)
  · intro hmem
    rcases List.mem_append.1 (hpre.subset hmem) with hmem | hmem
    · exact hgapline hmem
    · exact hline hmem
  · rw [← trim_eq_iff, Text.trim_trimEnd]
    have := Text.trim_append_append hgap (b := []) (by simp) operand
    rw [List.append_nil] at this
    rw [this]
    exact Text.trim_eq_self_iff.2 htrimmed

/-- A written instruction is an instruction, with the spelling as its mnemonic. -/
lemma isInstruction_trim_render {op : Opcode} {operand : Text}
    (hs : (Statement.instruction op operand).WellFormed)
    (h : IsSpelling spelling gap (.instruction op operand)) (hgap : IsBlanks gap) :
    IsInstruction (Text.trim (renderStatement spelling gap (.instruction op operand))) spelling
      operand := by
  have hword := h.isWord
  have hends : ∀ c ∈ spelling.getLast?, Text.isBlank c = false :=
    fun c hc => hword.isBlank_of_mem (List.mem_of_getLast? hc)
  refine ⟨hword, ?_⟩
  rcases hs with rfl | htoken
  · left
    have hblank := Text.trim_append_append (a := []) (by simp) hgap spelling
    rw [renderStatement, List.append_nil]
    refine ⟨hblank.trans (Text.trim_eq_self_iff.2 ⟨?_, hends⟩), rfl⟩
    exact fun c hc => hword.isBlank_of_mem (List.mem_of_mem_head? hc)
  · right
    have hne := htoken.ne_nil
    refine ⟨gap, ?_, h.2 hne, hgap, htoken⟩
    rw [renderStatement, List.append_assoc]
    refine Text.trim_eq_self_iff.2 ⟨?_, ?_⟩
    · obtain ⟨b, rest, rfl⟩ := List.exists_cons_of_ne_nil hword.1
      intro c hc
      cases hc
      exact hword.isBlank_of_mem List.mem_cons_self
    · intro c hc
      rw [← List.append_assoc, List.getLast?_append, List.getLast?_eq_some_getLast hne] at hc
      cases hc
      exact htoken.isBlank_of_mem (List.getLast_mem hne)

/-- A written statement is read back. -/
lemma parseRest_trim_render {s : Statement} (hs : s.WellFormed) (h : IsSpelling spelling gap s)
    (hgap : IsBlanks gap) :
    parseRest (Text.trim (renderStatement spelling gap s)) = .ok (some s) := by
  refine parseRest_eq_iff.2 ?_
  match s with
  | .directive d operand => exact ReadsRest.directive (isDirective_trim_render hs h hgap) h.1
  | .instruction op operand => exact ReadsRest.instruction (isInstruction_trim_render hs h hgap) h.1

/-! ## Finding a written label -/

/-- A word and a colon in front are found as the label. -/
lemma splitLabel_trim_label {name : Text} (hname : IsWord name) (tail : Text) :
    splitLabel (Text.trim (name ++ ':' :: tail)) = (some name, Text.trim tail) := by
  obtain ⟨c, cs, rfl⟩ := List.exists_cons_of_ne_nil hname.1
  have hstart : Text.trimStart (c :: cs ++ ':' :: tail) = c :: cs ++ ':' :: tail :=
    Text.trimStart_eq_self (by
      intro b hb
      cases hb
      exact hname.isBlank_of_mem List.mem_cons_self)
  have hend : ∀ b ∈ (c :: cs ++ [':']).getLast?, Text.isBlank b = false := by
    intro b hb
    rw [List.getLast?_concat] at hb
    cases hb
    decide
  have htrim : Text.trim (c :: cs ++ ':' :: tail) = c :: cs ++ ':' :: Text.trimEnd tail := by
    have hsplit : c :: cs ++ ':' :: tail = c :: cs ++ [':'] ++ tail := by simp
    rw [Text.trim, hstart, hsplit, Text.trimEnd_append_right hend]
    simp
  rw [htrim, ← labelled_iff]
  exact Labelled.label hname (trim_eq_iff.1 (Text.trim_trimEnd tail))

/-- There is no colon behind a word at the beginning of a statement. -/
lemma splitLabel_trim_render {s : Statement} (hs : s.WellFormed) (h : IsSpelling spelling gap s)
    (hgap : IsBlanks gap) :
    splitLabel (Text.trim (renderStatement spelling gap s)) =
      (none, Text.trim (renderStatement spelling gap s)) := by
  refine labelled_iff.1 (Labelled.plain ?_)
  intro name tail hname hcode
  match s with
  | .directive d operand =>
    obtain ⟨_, hdot, -⟩ := isDirective_trim_render hs h hgap
    obtain ⟨c, cs, rfl⟩ := List.exists_cons_of_ne_nil hname.1
    rw [hcode] at hdot
    have hc : c = '.' := (List.cons.inj hdot).1
    have halpha := hname.2 c List.mem_cons_self
    rw [hc] at halpha
    exact absurd halpha (by decide)
  | .instruction op operand =>
    have hcolon : ':' ∈ Text.trim (renderStatement spelling gap (.instruction op operand)) := by
      rw [hcode]
      simp
    exact (isInstruction_trim_render hs h hgap).colon_not_mem hcolon

/-! ## Reading a written line -/

/-- A comment is cut off, and what is before it is trimmed. -/
lemma clean_append_comment {before : Text} (h : commentSign ∉ before) (comment : Option Text) :
    clean (before ++ comment.elim [] (commentSign :: ·)) = Text.trim before := by
  refine clean_eq_iff.2 ⟨before, ?_, h, trim_eq_iff.1 rfl⟩
  cases comment with
  | none => exact Or.inl (List.append_nil before)
  | some text => exact Or.inr ⟨text, rfl⟩

/-- No comment begins in a statement that is written out. -/
lemma commentSign_not_mem_renderStatement {s : Statement} (hs : s.WellFormed)
    (h : IsSpelling spelling gap s) (hgap : IsBlanks gap) :
    commentSign ∉ renderStatement spelling gap s := by
  have hspelling := h.isWord.commentSign_not_mem
  have hgap := hgap.commentSign_not_mem
  match s with
  | .directive d operand =>
    obtain ⟨-, hoperand, -⟩ := hs
    have hdot : commentSign ≠ '.' := by decide
    simp [renderStatement, hspelling, hgap, hoperand, hdot]
  | .instruction op operand =>
    have hoperand : commentSign ∉ operand := by
      rcases hs with rfl | htoken
      · simp
      · exact htoken.commentSign_not_mem
    simp [renderStatement, hspelling, hgap, hoperand]

variable {format : Format} {line : Line}

/-- Cleaning a written line leaves its label and its statement. -/
lemma clean_render (hline : line.WellFormed) (h : format.Fits line) :
    clean (line.render format) = Text.trim (line.label.elim [] (· ++ ':' :: format.indent) ++
      line.statement.elim [] (renderStatement format.spelling format.gap)) := by
  have hlabel : commentSign ∉ line.label.elim [] (· ++ ':' :: format.indent) := by
    cases hname : line.label with
    | none => simp
    | some name =>
      have hword := (hline.label name hname).commentSign_not_mem
      have hcolon : commentSign ≠ ':' := by decide
      simp [hword, hcolon, h.indent.commentSign_not_mem]
  have hstatement : commentSign ∉
      line.statement.elim [] (renderStatement format.spelling format.gap) := by
    cases hs : line.statement with
    | none => simp
    | some s =>
      exact commentSign_not_mem_renderStatement (hline.statement s hs) (h.spelling s hs) h.gap
  have hbefore : commentSign ∉ format.front ++ line.label.elim [] (· ++ ':' :: format.indent) ++
      line.statement.elim [] (renderStatement format.spelling format.gap) ++ format.back := by
    simp [h.front.commentSign_not_mem, h.back.commentSign_not_mem, hlabel, hstatement]
  rw [render, clean_append_comment hbefore, List.append_assoc format.front,
    Text.trim_append_append h.front h.back]

/-- **Reading a written line** gives it back.

**Proof sketch.** Cleaning takes off the comment and the blanks at the ends. If there is a label,
it is the only word with a colon behind it, and blanks behind the colon do not count; if there is
none, the statement has no colon where a label would have it. What is left is the statement. -/
theorem parse_render (hline : line.WellFormed) (h : format.Fits line) :
    parse (line.render format) = .ok (some line) := by
  have hrest : parseRest (Text.trim (line.statement.elim []
      (renderStatement format.spelling format.gap))) = .ok line.statement := by
    cases hs : line.statement with
    | none => rfl
    | some s => exact parseRest_trim_render (hline.statement s hs) (h.spelling s hs) h.gap
  have hsplit : splitLabel (clean (line.render format)) = (line.label, Text.trim
      (line.statement.elim [] (renderStatement format.spelling format.gap))) := by
    rw [clean_render hline h]
    cases hname : line.label with
    | some name =>
      have hindent := Text.trim_append_append h.indent (b := []) (by simp)
        (line.statement.elim [] (renderStatement format.spelling format.gap))
      rw [List.append_nil] at hindent
      rw [Option.elim_some, List.append_assoc, List.cons_append,
        splitLabel_trim_label (hline.label name hname), hindent]
    | none =>
      cases hs : line.statement with
      | none => exact absurd hline.nonempty (by simp [hname, hs])
      | some s =>
        exact splitLabel_trim_render (hline.statement s hs) (h.spelling s hs) h.gap
  have hne : clean (line.render format) ≠ [] := by
    intro hnil
    rw [hnil] at hsplit
    have hlabel : line.label = none := (congrArg Prod.fst hsplit).symm
    have hempty : Text.trim (line.statement.elim []
      (renderStatement format.spelling format.gap)) = [] := (congrArg Prod.snd hsplit).symm
    rw [hempty] at hrest
    have hstatement : line.statement = none := (Except.ok.inj hrest).symm
    exact absurd hline.nonempty (by simp [hlabel, hstatement])
  rw [parse_eq, if_neg (by simpa using hne), hsplit, hrest]
  rfl

/-! ## Every line that is read was written -/

/-- What was read behind a label was written in some spelling. -/
lemma exists_spelling {rest : Text} {statement : Option Statement}
    (hrest : ReadsRest rest (.ok statement)) (hcomment : commentSign ∉ rest) :
    (∀ s ∈ statement, s.WellFormed) ∧ ∃ spelling gap back, IsBlanks gap ∧ IsBlanks back ∧
      (∀ s ∈ statement, IsSpelling spelling gap s) ∧
      rest = statement.elim [] (renderStatement spelling gap) ++ back := by
  have hnil : IsBlanks [] := by simp [IsBlanks]
  cases hrest with
  | empty => exact ⟨by simp, [], [], [], hnil, hnil, by simp, rfl⟩
  | @directive _ keyword operand d h hd =>
    obtain ⟨tail, rfl, -, hnext, hline, gap, back, rfl, hgap, hback, htrimmed⟩ := h
    simp only [List.mem_cons, List.mem_append, not_or] at hcomment hline
    refine ⟨?_, keyword, gap, back, hgap, hback, ?_, by simp [renderStatement]⟩
    · rintro s ⟨⟩
      exact ⟨htrimmed, hcomment.2.2.1.2, hline.1.2⟩
    · rintro s ⟨⟩
      refine ⟨hd, hline.1.1, ?_⟩
      -- without a gap, a letter at the beginning of the operand would belong to the keyword
      rintro ⟨c, hc, halpha⟩ rfl
      have hhead : c ∈ ([] ++ operand ++ back).head? := by
        cases operand with
        | nil => cases hc
        | cons b operand => exact hc
      rw [hnext c hhead] at halpha
      cases halpha
  | @instruction _ mnemonic operand op h hop =>
    obtain ⟨-, ⟨rfl, rfl⟩ | ⟨gap, rfl, hne, hgap, htoken⟩⟩ := h
    · refine ⟨?_, rest, [], [], hnil, hnil, ?_, by simp [renderStatement]⟩
      · rintro s ⟨⟩
        exact Or.inl rfl
      · rintro s ⟨⟩
        exact ⟨hop, fun hne => absurd rfl hne⟩
    · refine ⟨?_, mnemonic, gap, [], hgap, hnil, ?_, by simp [renderStatement]⟩
      · rintro s ⟨⟩
        exact Or.inr htoken
      · rintro s ⟨⟩
        exact ⟨hop, fun _ => hne⟩

/-- The label in front of a code was written with some blanks behind its colon. -/
lemma exists_indent {code rest : Text} {label : Option Text} (h : Labelled code label rest) :
    (∀ name ∈ label, IsWord name) ∧ ∃ indent back, IsBlanks indent ∧ IsBlanks back ∧
      code = label.elim [] (· ++ ':' :: indent) ++ rest ++ back := by
  have hnil : IsBlanks [] := by simp [IsBlanks]
  cases h with
  | @label name tail _ hname hrest =>
    obtain ⟨indent, back, rfl, hindent, hback, -⟩ := hrest
    exact ⟨by simpa using hname, indent, back, hindent, hback, by simp⟩
  | plain h => exact ⟨by simp, [], [], hnil, hnil, by simp⟩

/-- A code has a label or a statement, because it is not empty. -/
lemma ne_none_of_labelled {code rest : Text} {label : Option Text} {statement : Option Statement}
    (hne : code ≠ []) (hlabel : Labelled code label rest)
    (hrest : ReadsRest rest (.ok statement)) : label ≠ none ∨ statement ≠ none := by
  cases hlabel with
  | label => exact Or.inl (by simp)
  | plain h =>
    right
    rintro rfl
    cases hrest
    exact hne rfl

/-- **A text that reads as a line** is that line, written in some format.

**Proof sketch.** The grammar splits the text into the parts of a line with blanks between them.
Blanks behind the operand, behind the part after the label and behind the code all go to the end
of the line. -/
theorem exists_render_of_parse {raw : Text} {line : Line} (h : parse raw = .ok (some line)) :
    line.WellFormed ∧ ∃ format : Format, format.Fits line ∧ raw = line.render format := by
  cases parse_eq_iff.1 h with
  | @line code rest label statement hcode hne hlabel hrest =>
    obtain ⟨before, hraw, hcomment, front, back, rfl, hfront, hback, -⟩ := hcode
    have hnonempty := ne_none_of_labelled hne hlabel hrest
    obtain ⟨hword, indent, back', hindent, hback', rfl⟩ := exists_indent hlabel
    simp only [List.mem_append, not_or] at hcomment
    obtain ⟨hstatement, spelling, gap, back'', hgap, hback'', hspelling, rfl⟩ :=
      exists_spelling hrest hcomment.1.2.1.2
    have htail : IsBlanks (back'' ++ (back' ++ back)) := by
      intro c hc
      rcases List.mem_append.1 hc with hc | hc
      · exact hback'' c hc
      rcases List.mem_append.1 hc with hc | hc
      · exact hback' c hc
      · exact hback c hc
    obtain ⟨comment, hraw⟩ : ∃ comment : Option Text, raw = front ++ (label.elim []
        (· ++ ':' :: indent) ++ (statement.elim [] (renderStatement spelling gap) ++ back'') ++
        back') ++ back ++ comment.elim [] (commentSign :: ·) := by
      rcases hraw with rfl | ⟨comment, rfl⟩
      · exact ⟨none, by simp⟩
      · exact ⟨some comment, rfl⟩
    refine ⟨⟨hnonempty, hword, hstatement⟩,
      ⟨front, indent, spelling, gap, back'' ++ (back' ++ back), comment⟩,
      ⟨hfront, hindent, hgap, htail, hspelling⟩, ?_⟩
    simp [hraw, render]

/-- **Reading is exactly the inverse of writing.** Every line that is read off a text is well
formed, and the text is that line in some format. Conversely, a well-formed line that is written
in any format that fits it is read back as it is. -/
theorem parse_inverts_render :
    (∀ raw line, parse raw = .ok (some line) →
      line.WellFormed ∧ ∃ format : Format, format.Fits line ∧ raw = line.render format) ∧
    ∀ (line : Line) (format : Format), line.WellFormed → format.Fits line →
      parse (line.render format) = .ok (some line) :=
  ⟨fun _ _ => exists_render_of_parse, fun _ _ => parse_render⟩

/-- A label, a keyword in mixed case, an operand that begins with a letter, blanks of several
kinds, and a comment that looks like code. -/
theorem parse_inverts_render_spread_out :
    ∃ (line : Line) (format : Format), line.WellFormed ∧ format.Fits line ∧
      line.render format = "\t x:\n .ByTe\u00a0y, $2 \r; z: hlt".toList ∧
      parse "\t x:\n .ByTe\u00a0y, $2 \r; z: hlt".toList = .ok (some line) ∧
      line = ⟨some "x".toList, some (.directive .byte "y, $2".toList)⟩ := by
  have hline : WellFormed ⟨some "x".toList, some (.directive .byte "y, $2".toList)⟩ := by
    refine ⟨by simp, ?_, ?_⟩
    · rintro name ⟨⟩
      exact ⟨by decide, List.all_eq_true.1 (by decide)⟩
    · rintro s ⟨⟩
      refine ⟨⟨?_, ?_⟩, by decide, by decide⟩ <;> rintro c ⟨⟩ <;> decide
  have hformat : Format.Fits ⟨"\t ".toList, "\n ".toList, "ByTe".toList, "\u00a0".toList,
      " \r".toList, some " z: hlt".toList⟩
      ⟨some "x".toList, some (.directive .byte "y, $2".toList)⟩ := by
    refine ⟨?_, ?_, ?_, ?_, ?_⟩
    iterate 4 exact List.all_eq_true.1 (by decide)
    rintro s ⟨⟩
    exact ⟨by decide, by decide, fun _ => by decide⟩
  have hread := parse_inverts_render.2 _ _ hline hformat
  have hrender : render ⟨"\t ".toList, "\n ".toList, "ByTe".toList, "\u00a0".toList,
      " \r".toList, some " z: hlt".toList⟩
      ⟨some "x".toList, some (.directive .byte "y, $2".toList)⟩ =
      "\t x:\n .ByTe\u00a0y, $2 \r; z: hlt".toList := by
    decide +kernel
  rw [hrender] at hread
  exact ⟨_, _, hline, hformat, hrender, hread, rfl⟩

end Line

/-! ## Statements in their plainest form -/

/-- A statement alone on a line, in its plainest form: in small letters, with one space before the
operand. Examples are `.byte $1f` and `hlt`. -/
def Statement.plain : Statement → Text
  | directive d [] => '.' :: d.keyword
  | directive d operand => '.' :: (d.keyword ++ ' ' :: operand)
  | instruction op [] => op.mnemonic
  | instruction op operand => op.mnemonic ++ ' ' :: operand

namespace Line

/-- A statement alone on a line is read back, in every spelling. -/
lemma parse_renderStatement {s : Statement} (hs : s.WellFormed) {spelling gap : Text}
    (h : IsSpelling spelling gap s) (hgap : IsBlanks gap) :
    parse (renderStatement spelling gap s) = .ok (some ⟨none, some s⟩) := by
  have hline : WellFormed ⟨none, some s⟩ := ⟨by simp, by simp, by simpa using hs⟩
  have hnil : IsBlanks [] := by simp [IsBlanks]
  have hformat : Format.Fits ⟨[], [], spelling, gap, [], none⟩ ⟨none, some s⟩ :=
    ⟨hnil, hnil, hgap, hnil, by simpa using h⟩
  have hread := parse_render hline hformat
  simpa [render] using hread

/-- **A statement in its plainest form** is read back. -/
theorem parse_plain {s : Statement} (hs : s.WellFormed) :
    parse s.plain = .ok (some ⟨none, some s⟩) := by
  have hspace : IsBlanks [' '] := List.all_eq_true.1 (by decide)
  have hnil : IsBlanks [] := by simp [IsBlanks]
  match s with
  | .directive d operand =>
    have hd : d.keyword.map Char.toLower = d.keyword := by cases d <;> rfl
    cases operand with
    | nil =>
      simpa [renderStatement, Statement.plain] using
        parse_renderStatement hs ⟨hd, by simp, by simp⟩ hnil
    | cons c operand =>
      simpa [renderStatement, Statement.plain] using
        parse_renderStatement hs ⟨hd, by simp, by simp⟩ hspace
  | .instruction op operand =>
    have hop : op.mnemonic.map Char.toLower = op.mnemonic := by cases op <;> rfl
    cases operand with
    | nil =>
      simpa [renderStatement, Statement.plain] using
        parse_renderStatement hs ⟨hop, by simp⟩ hnil
    | cons c operand =>
      simpa [renderStatement, Statement.plain] using
        parse_renderStatement hs ⟨hop, by simp⟩ hspace

/-- A directive alone on a line, with any blanks around its operand. -/
lemma parse_directive (d : Directive) {body : Text} (hcomment : commentSign ∉ body)
    (hline : '\n' ∉ body) :
    parse ('.' :: (d.keyword ++ ' ' :: body)) =
      .ok (some ⟨none, some (.directive d (Text.trim body))⟩) := by
  obtain ⟨front, back, hbody, hfront, hback, htrimmed⟩ := trim_eq_iff.1 (rfl : Text.trim body = _)
  generalize Text.trim body = operand at hbody htrimmed
  subst hbody
  simp only [List.mem_append, not_or] at hcomment hline
  have hkeyword : d.keyword.map Char.toLower = d.keyword := by cases d <;> rfl
  have hgap : IsBlanks (' ' :: front) := List.forall_mem_cons.2 ⟨by decide, hfront⟩
  have hfeed : '\n' ∉ ' ' :: front := by simpa using hline.1.1
  have hwritten : WellFormed ⟨none, some (.directive d operand)⟩ := by
    refine ⟨by simp, by simp, ?_⟩
    rintro s ⟨⟩
    exact ⟨htrimmed, hcomment.1.2, hline.1.2⟩
  have hformat : Format.Fits ⟨[], [], d.keyword, ' ' :: front, back, none⟩
      ⟨none, some (.directive d operand)⟩ := by
    refine ⟨by simp [IsBlanks], by simp [IsBlanks], hgap, hback, ?_⟩
    rintro s ⟨⟩
    exact ⟨hkeyword, hfeed, by simp⟩
  have hread := parse_render hwritten hformat
  simpa [render, renderStatement] using hread

end Line

end SapOne

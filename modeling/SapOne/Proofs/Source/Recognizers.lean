import SapOne.Proofs.Source.Rendering

set_option relaxedAutoImplicit false
set_option autoImplicit false

/-!
# The recognizers do not compete

A line is read with three recognizers, for labels, directives and instructions, which are tried one
after the other. Each of them has a pattern of the same make: a mark in front, a word, a mark behind
the word, and what may follow. No text fits two of these patterns, so that the order in which they
are tried makes no difference; and a text that fits a pattern does so in one way, if the word is
taken as long as it is.

## Main definitions

* `SapOne.Recognizer` — the three recognizers.
* `SapOne.Recognizer.Fits`, `SapOne.Recognizer.Captures` — a text fits the pattern of a recognizer,
  and does so with the longest word.
* `SapOne.Recognizer.recognize`, `SapOne.Line.parseIn` — recognizers that are tried in any order,
  and reading a line with them.

## Main results

* `SapOne.Recognizer.Fits.eq_kind` — a text tells which pattern it can fit.
* `SapOne.Recognizer.find?_eq_some_iff` — a recognizer finds what its pattern captures.
* `SapOne.Recognizer.recognize_eq_some_iff` — in any order the same recognizer succeeds.
* `SapOne.Recognizer.never_compete` — the recognizers do not compete.
-/

namespace SapOne

open Grammar

/-! ## Patterns -/

/-- The recognizers of a line. -/
inductive Recognizer where
  | label
  | directive
  | instruction
deriving DecidableEq

namespace Recognizer

/-- The recognizers, in the order in which a line is read. -/
def all : List Recognizer := [label, directive, instruction]

/-- What a recognizer finds in a text: a word, and what is reported of the rest. -/
def find? : Recognizer → Text → Option (Text × Text)
  | label => Line.label?
  | directive => Line.directive?
  | instruction => Line.instruction?

/-- The mark in front of the word. -/
def opening : Recognizer → Text
  | directive => ['.']
  | _ => []

/-- The mark behind the word. -/
def closing : Recognizer → Text
  | label => [':']
  | _ => []

/-- What may follow: anything behind a label; anything but a line feed in a directive; and nothing,
or blanks and an operand, in an instruction. -/
def Admits : Recognizer → Text → Prop
  | label, _ => True
  | directive, tail => '\n' ∉ tail
  | instruction, tail => tail = [] ∨
      ∃ gap operand, tail = gap ++ operand ∧ gap ≠ [] ∧ IsBlanks gap ∧ IsToken operand

/-- A text fits a pattern if it is split in a certain way into a word and what follows. -/
structure Fits (r : Recognizer) (s head tail : Text) : Prop where
  text_eq : s = r.opening ++ (head ++ (r.closing ++ tail))
  isWord : IsWord head
  admits : r.Admits tail

/-- A text fits a pattern in such a way that the word is all of a run of letters. -/
structure Captures (r : Recognizer) (s head tail : Text) : Prop extends Fits r s head tail where
  longest : ∀ c ∈ (r.closing ++ tail).head?, c.isAlpha = false

/-- The only recognizer that can have anything to do with a text. -/
def kind (s : Text) : Recognizer :=
  if s.head? = some '.' then directive else if ':' ∈ s then label else instruction

variable {r r' : Recognizer} {s head tail head' tail' rest : Text}

/-! ## One pattern for a text -/

/-- The blanks before a token are trimmed off. -/
lemma trim_gap_append {gap operand : Text} (hgap : IsBlanks gap) (h : IsToken operand) :
    Text.trim (gap ++ operand) = operand := by
  have htrim := Text.trim_append_append hgap (b := []) (by simp) operand
  rwa [List.append_nil, h.trim_eq_self] at htrim

/-- An instruction is a text that fits its pattern, and its operand is what follows the blanks. -/
lemma isInstruction_iff_fits {operand : Text} :
    IsInstruction s head operand ↔
      ∃ tail, instruction.Fits s head tail ∧ Text.trim tail = operand := by
  constructor
  · intro h
    obtain ⟨hword, ⟨rfl, rfl⟩ | ⟨gap, rfl, hne, hgap, htoken⟩⟩ := h
    · exact ⟨[], ⟨by simp [opening, closing], hword, Or.inl rfl⟩, rfl⟩
    · refine ⟨gap ++ operand, ⟨by simp [opening, closing], hword, Or.inr ?_⟩,
        trim_gap_append hgap htoken⟩
      exact ⟨gap, operand, rfl, hne, hgap, htoken⟩
  · intro h
    obtain ⟨tail, ⟨rfl, hword, htail⟩, rfl⟩ := h
    refine ⟨hword, ?_⟩
    rcases htail with rfl | ⟨gap, operand, rfl, hne, hgap, htoken⟩
    · exact Or.inl ⟨by simp [opening, closing], rfl⟩
    · rw [trim_gap_append hgap htoken]
      exact Or.inr ⟨gap, by simp [opening, closing], hne, hgap, htoken⟩

/-- **A text tells which pattern it can fit**: a directive begins with a dot, which is no letter,
and of the other two only a label has a colon. -/
lemma Fits.eq_kind (h : r.Fits s head tail) : r = kind s := by
  have hletter : r.opening = [] → s.head? ≠ some '.' := by
    intro hopening hdot
    obtain ⟨c, cs, hhead⟩ := List.exists_cons_of_ne_nil h.isWord.1
    have hc : c.isAlpha = true := h.isWord.2 c (by simp [hhead])
    rw [h.text_eq, hopening, hhead] at hdot
    cases hdot
    exact absurd hc (by decide)
  cases r with
  | directive =>
    have hdot : s.head? = some '.' := by
      rw [h.text_eq]
      rfl
    rw [kind, if_pos hdot]
  | label =>
    have hcolon : ':' ∈ s := by
      rw [h.text_eq]
      simp [closing]
    rw [kind, if_neg (hletter rfl), if_pos hcolon]
  | instruction =>
    have hcolon : ':' ∉ s := (isInstruction_iff_fits.2 ⟨tail, h, rfl⟩).colon_not_mem
    rw [kind, if_neg (hletter rfl), if_neg hcolon]

/-! ## One way to fit a pattern -/

/-- Only the pattern of a directive leaves it open where the word ends. -/
lemma Fits.captures (h : r.Fits s head tail) (hr : r ≠ directive) : r.Captures s head tail := by
  refine ⟨h, ?_⟩
  cases r with
  | directive => exact absurd rfl hr
  | label =>
    rintro c ⟨⟩
    decide
  | instruction =>
    intro c hc
    rcases h.admits with rfl | ⟨gap, operand, rfl, hne, hgap, -⟩
    · cases hc
    · obtain ⟨b, gap, rfl⟩ := List.exists_cons_of_ne_nil hne
      cases hc
      exact isAlpha_of_isBlank (hgap c List.mem_cons_self)

/-- Behind the mark in front, the longest word is the run of letters. -/
lemma Captures.takeWhile_eq (h : r.Captures s head tail) :
    ∃ body, s = r.opening ++ body ∧ body.takeWhile Char.isAlpha = head ∧
      body.dropWhile Char.isAlpha = r.closing ++ tail :=
  ⟨_, h.text_eq, (takeWhile_dropWhile_iff Char.isAlpha).2 ⟨rfl, h.isWord.2, h.longest⟩⟩

/-- **The longest word is unique**, and so is what follows it. -/
lemma Captures.unique (h : r.Captures s head tail) (h' : r.Captures s head' tail') :
    head = head' ∧ tail = tail' := by
  obtain ⟨body, hs, hhead, htail⟩ := h.takeWhile_eq
  obtain ⟨body', hs', hhead', htail'⟩ := h'.takeWhile_eq
  obtain rfl : body = body' := List.append_cancel_left (hs.symm.trans hs')
  exact ⟨hhead.symm.trans hhead', List.append_cancel_left (htail.symm.trans htail')⟩

/-- Every other way to fit the pattern has a part of the longest word as its word. -/
lemma Fits.isPrefix (h : r.Fits s head tail) (h' : r.Captures s head' tail') : head <+: head' := by
  obtain ⟨body, hs, hhead, -⟩ := h'.takeWhile_eq
  obtain rfl := List.append_cancel_left (h.text_eq.symm.trans hs)
  rw [← hhead, List.takeWhile_append_of_pos h.isWord.2]
  exact List.prefix_append _ _

/-- **A text that fits a pattern fits it with the longest word, too.** -/
lemma Fits.exists_captures (h : r.Fits s head tail) : ∃ head' tail', r.Captures s head' tail' := by
  cases r with
  | label => exact ⟨head, tail, h.captures (by decide)⟩
  | instruction => exact ⟨head, tail, h.captures (by decide)⟩
  | directive =>
    -- letters at the beginning of what follows go over to the word
    obtain ⟨hsplit, hletters, hnext⟩ :=
      (takeWhile_dropWhile_iff Char.isAlpha (s := tail)).1 ⟨rfl, rfl⟩
    refine ⟨head ++ tail.takeWhile Char.isAlpha, tail.dropWhile Char.isAlpha, ⟨?_, ?_, ?_⟩, hnext⟩
    · rw [h.text_eq]
      simp [closing]
    · refine ⟨by simp [h.isWord.1], ?_⟩
      intro c hc
      rcases List.mem_append.1 hc with hc | hc
      · exact h.isWord.2 c hc
      · exact hletters c hc
    · intro hmem
      exact h.admits ((List.dropWhile_sublist _).subset hmem)

/-- There is no line feed anywhere in a directive, because the word in it is one of letters. -/
lemma Fits.lineFeed_not_mem (h : directive.Fits s head tail) : '\n' ∉ s := by
  have hhead : '\n' ∉ head := fun hmem => absurd (h.isWord.2 _ hmem) (by decide)
  rw [h.text_eq]
  simp [opening, closing, hhead, show '\n' ∉ tail from h.admits]

/-- An instruction begins with a letter, and ends with its word or with a token. -/
lemma Fits.isTrimmed (h : instruction.Fits s head tail) : IsTrimmed s := by
  have hs : s = head ++ tail := h.text_eq
  obtain ⟨c, cs, hhead⟩ := List.exists_cons_of_ne_nil h.isWord.1
  constructor
  · intro b hb
    rw [hs, hhead] at hb
    cases hb
    exact h.isWord.isBlank_of_mem (by simp [hhead])
  · intro b hb
    rcases h.admits with rfl | ⟨gap, operand, rfl, -, -, htoken⟩
    · rw [hs, List.append_nil] at hb
      exact h.isWord.isBlank_of_mem (List.mem_of_getLast? hb)
    · rw [hs, ← List.append_assoc, List.getLast?_append,
        List.getLast?_eq_some_getLast htoken.ne_nil] at hb
      cases hb
      exact htoken.isBlank_of_mem (List.getLast_mem htoken.ne_nil)

/-! ## What the recognizers find -/

/-- **A recognizer finds what its pattern captures**, without the blanks around what follows. -/
lemma find?_eq_some_iff :
    r.find? s = some (head, rest) ↔ ∃ tail, r.Captures s head tail ∧ Text.trim tail = rest := by
  cases r with
  | label =>
    refine label?_eq_some_iff.trans (exists_congr fun tail => ?_)
    rw [trim_eq_iff]
    constructor
    · intro h
      obtain ⟨rfl, hword, htrim⟩ := h
      have hfits : label.Fits (head ++ ':' :: tail) head tail := ⟨rfl, hword, trivial⟩
      exact ⟨hfits.captures (by decide), htrim⟩
    · intro h
      obtain ⟨h, htrim⟩ := h
      exact ⟨h.text_eq, h.isWord, htrim⟩
  | directive =>
    refine directive?_eq_some_iff.trans (exists_congr fun tail => ?_)
    rw [trim_eq_iff]
    constructor
    · intro h
      obtain ⟨rfl, hword, hnext, hline, htrim⟩ := h
      exact ⟨⟨⟨rfl, hword, hline⟩, hnext⟩, htrim⟩
    · intro h
      obtain ⟨h, htrim⟩ := h
      exact ⟨h.text_eq, h.isWord, h.longest, h.admits, htrim⟩
  | instruction =>
    refine instruction?_eq_some_iff.trans (isInstruction_iff_fits.trans ?_)
    refine exists_congr fun tail => and_congr_left fun _ => ?_
    exact ⟨fun h => h.captures (by decide), fun h => h.toFits⟩

/-- A recognizer finds something exactly if its shape fits. -/
lemma isSome_find?_iff : (r.find? s).isSome = true ↔ ∃ head tail, r.Fits s head tail := by
  rw [Option.isSome_iff_exists]
  constructor
  · intro h
    obtain ⟨⟨head, rest⟩, h⟩ := h
    obtain ⟨tail, hcaptures, -⟩ := find?_eq_some_iff.1 h
    exact ⟨head, tail, hcaptures.toFits⟩
  · intro h
    obtain ⟨head, tail, h⟩ := h
    obtain ⟨head', tail', hcaptures⟩ := h.exists_captures
    exact ⟨_, find?_eq_some_iff.2 ⟨tail', hcaptures, rfl⟩⟩

/-- **At most one recognizer** finds anything in a text. -/
lemma eq_of_isSome_find? (h : (r.find? s).isSome = true) (h' : (r'.find? s).isSome = true) :
    r = r' := by
  obtain ⟨head, tail, h⟩ := isSome_find?_iff.1 h
  obtain ⟨head', tail', h'⟩ := isSome_find?_iff.1 h'
  rw [h.eq_kind, h'.eq_kind]

/-! ## Recognizers in any order -/

/-- The first recognizer of a list that finds anything in a text, and what it finds. -/
def recognize (order : List Recognizer) (s : Text) : Option (Recognizer × Text × Text) :=
  order.findSome? fun r => (r.find? s).map (Prod.mk r)

/-- **The order does not matter**: whichever recognizer finds anything is the first one to do so. -/
lemma recognize_eq_some_iff {order : List Recognizer} {found : Text × Text} :
    recognize order s = some (r, found) ↔ r ∈ order ∧ r.find? s = some found := by
  constructor
  · intro h
    obtain ⟨r', hr', h⟩ := List.exists_of_findSome?_eq_some h
    obtain ⟨found', hfound, h⟩ := Option.map_eq_some_iff.1 h
    cases h
    exact ⟨hr', hfound⟩
  · intro h
    obtain ⟨hr, hfound⟩ := h
    cases h : recognize order s with
    | none =>
      have hnone := List.findSome?_eq_none_iff.1 h r hr
      rw [hfound] at hnone
      cases hnone
    | some first =>
      obtain ⟨r', hr', h⟩ := List.exists_of_findSome?_eq_some h
      obtain ⟨found', hfound', rfl⟩ := Option.map_eq_some_iff.1 h
      obtain rfl : r' = r := eq_of_isSome_find? (by rw [hfound']; rfl) (by rw [hfound]; rfl)
      rw [hfound] at hfound'
      cases hfound'
      rfl

/-- Lists of the same recognizers recognize the same. -/
lemma recognize_congr {order order' : List Recognizer} (h : ∀ r, r ∈ order ↔ r ∈ order')
    (s : Text) : recognize order s = recognize order' s := by
  apply Option.ext
  rintro ⟨r, found⟩
  rw [recognize_eq_some_iff, recognize_eq_some_iff, h]

/-- An order of the recognizers has each of them. -/
lemma mem_of_perm_all {order : List Recognizer} (h : order.Perm all) (r : Recognizer) :
    r ∈ order := by
  apply h.mem_iff.2
  cases r <;> decide

end Recognizer

namespace Line

open Recognizer

variable {order : List Recognizer}

/-- The statement that was recognized in a text. A label is no statement. -/
def statementOf (code : Text) : Option (Recognizer × Text × Text) → Except Error Statement
  | some (.directive, keyword, operand) =>
    (Directive.parse keyword).map fun d => .directive d operand
  | some (.instruction, mnemonic, operand) =>
    match Opcode.ofMnemonic? mnemonic with
    | some op => .ok (.instruction op operand)
    | none => .error (.unknownOperation mnemonic)
  | _ => .error (.malformed code)

/-- Reads a line with recognizers that are tried in a given order. What stands behind a label is
read with the others, in the same order. -/
def parseIn (order : List Recognizer) (raw : Text) : Except Error (Option Line) :=
  let code := clean raw
  if code.isEmpty then .ok none
  else
    match recognize order code with
    | some (.label, name, rest) =>
      if rest.isEmpty then .ok (some ⟨some name, none⟩)
      else (statementOf rest (recognize (order.filter (· ≠ .label)) rest)).map fun s =>
        some ⟨some name, some s⟩
    | found => (statementOf code found).map fun s => some ⟨none, some s⟩

/-- Where no label is recognized, the statement is the one that is read. -/
lemma statementOf_recognize {code : Text} (hdirective : .directive ∈ order)
    (hinstruction : .instruction ∈ order)
    (hlabel : ∀ found, recognize order code ≠ some (.label, found)) :
    statementOf code (recognize order code) = parseStatement code := by
  unfold parseStatement
  cases hd : directive? code with
  | some found =>
    rw [recognize_eq_some_iff.2 ⟨hdirective, hd⟩]
    rfl
  | none =>
    cases hi : instruction? code with
    | some found =>
      rw [recognize_eq_some_iff.2 ⟨hinstruction, hi⟩]
      rfl
    | none =>
      cases h : recognize order code with
      | none => rfl
      | some first =>
        obtain ⟨r, found⟩ := first
        have hfound := (recognize_eq_some_iff.1 h).2
        cases r with
        | label => exact absurd h (hlabel found)
        | directive => cases hd.symm.trans hfound
        | instruction => cases hi.symm.trans hfound

/-- **A line is read alike with its recognizers in any order.** -/
lemma parseIn_eq_parse (h : ∀ r, r ∈ order) (raw : Text) : parseIn order raw = parse raw := by
  unfold parseIn parse
  generalize clean raw = code
  dsimp only
  by_cases hempty : code.isEmpty = true
  · rw [if_pos hempty, if_pos hempty]
  rw [if_neg hempty, if_neg hempty]
  cases hlabel : label? code with
  | some found =>
    obtain ⟨name, rest⟩ := found
    -- behind a label no other label is looked for, whatever the order is
    have hothers : ∀ found, recognize (order.filter (· ≠ .label)) rest ≠ some (.label, found) := by
      intro found hfound
      simpa using (recognize_eq_some_iff.1 hfound).1
    rw [recognize_eq_some_iff.2 ⟨h .label, hlabel⟩]
    dsimp only
    rw [statementOf_recognize (by simp [h]) (by simp [h]) hothers, parseRest]
    split
    · rfl
    · cases parseStatement rest <;> rfl
  | none =>
    have hnot : ∀ found, recognize order code ≠ some (.label, found) := by
      intro found hfound
      cases hlabel.symm.trans (recognize_eq_some_iff.1 hfound).2
    have hstatement := statementOf_recognize (h .directive) (h .instruction) hnot
    have hrest : parseRest code = (parseStatement code).map some := by
      rw [parseRest, if_neg hempty]
    split
    · next found => exact absurd found (hnot _)
    · rw [hstatement]
      simp only [hrest]
      cases parseStatement code <;> rfl

end Line

namespace Recognizer

/-- **The recognizers do not compete.** At most one of them finds anything in a text, so that they
may be tried in any order, and a line is read alike. What a recognizer finds is the way in which the
text fits its pattern: if there is any, then there is exactly one in which the word is as long as it
can be, and the words of all others are parts of it. A text with a line feed is no directive, a text
with blanks at its ends is no instruction, and what is reported behind a label has none there.

**Proof sketch.** The dot and the colon tell the patterns apart. The longest word is a run of
letters, and a text splits in one way at the end of a run. -/
theorem never_compete :
    (∀ (s : Text) (r r' : Recognizer),
      (r.find? s).isSome = true → (r'.find? s).isSome = true → r = r') ∧
    (∀ order : List Recognizer, order.Perm all →
      (∀ s, recognize order s = recognize all s) ∧
      ∀ raw, Line.parseIn order raw = Line.parse raw) ∧
    (∀ (r : Recognizer) (s : Text),
      (∀ head rest, r.find? s = some (head, rest) ↔
        ∃ tail, r.Captures s head tail ∧ Text.trim tail = rest) ∧
      ∀ head tail, r.Fits s head tail →
        (∃! split : Text × Text, r.Captures s split.1 split.2) ∧
        ∀ head' tail', r.Captures s head' tail' → head <+: head') ∧
    (∀ s : Text, '\n' ∈ s → Line.directive? s = none) ∧
    (∀ s : Text, ¬ IsTrimmed s → Line.instruction? s = none) ∧
    ∀ s name rest : Text, Line.label? s = some (name, rest) → IsTrimmed rest := by
  have hnone : ∀ (r : Recognizer) (s : Text), (∀ head tail, ¬ r.Fits s head tail) →
      r.find? s = none := by
    intro r s hfits
    rw [← Option.not_isSome_iff_eq_none, isSome_find?_iff]
    simpa using hfits
  refine ⟨fun s r r' => eq_of_isSome_find?, ?_, ?_, ?_, ?_, ?_⟩
  · intro order horder
    exact ⟨recognize_congr fun r => horder.mem_iff, Line.parseIn_eq_parse (mem_of_perm_all horder)⟩
  · intro r s
    refine ⟨fun head rest => find?_eq_some_iff, ?_⟩
    intro head tail h
    refine ⟨?_, fun head' tail' h' => h.isPrefix h'⟩
    obtain ⟨head', tail', h'⟩ := h.exists_captures
    refine ⟨(head', tail'), h', ?_⟩
    intro split hsplit
    exact Prod.ext (hsplit.unique h').1 (hsplit.unique h').2
  · intro s hmem
    exact hnone directive s fun head tail h => h.lineFeed_not_mem hmem
  · intro s hs
    exact hnone instruction s fun head tail h => hs h.isTrimmed
  · intro s name rest h
    obtain ⟨tail, -, rfl⟩ := find?_eq_some_iff.1 (show label.find? s = some (name, rest) from h)
    exact Text.trim_eq_self_iff.1 (Text.trim_trim tail)

/-- A mnemonic with a colon behind it, read with the recognizers in the opposite order; a keyword
without blanks behind it, which fits with a shorter word, too; a line feed and blanks where they may
not be. -/
theorem never_compete_mnemonic_as_label :
    (label.find? "hlt:\n.org5".toList).isSome = true ∧
    instruction.find? "hlt:\n.org5".toList = none ∧
    Line.parseIn [instruction, directive, label] "hlt:\n.org5 ; x".toList =
      Line.parse "hlt:\n.org5 ; x".toList ∧
    Line.parse "hlt:\n.org5 ; x".toList =
      .ok (some ⟨some "hlt".toList, some (.directive .org "5".toList)⟩) ∧
    (∃! split : Text × Text, directive.Captures ".org5".toList split.1 split.2) ∧
    directive.find? ".org5".toList = some ("org".toList, "5".toList) ∧
    Line.directive? ".org 5\n".toList = none ∧ Line.instruction? " hlt".toList = none ∧
    IsTrimmed ".org5".toList := by
  obtain ⟨hone, horder, hsplit, hdirective, hinstruction, hlabel⟩ := never_compete
  have hfits : directive.Fits ".org5".toList "o".toList "rg5".toList :=
    ⟨rfl, ⟨by decide, List.all_eq_true.1 (by decide)⟩, show '\n' ∉ "rg5".toList by decide⟩
  refine ⟨rfl, ?_, (horder _ (by decide)).2 _, rfl, (hsplit _ _).2 _ _ hfits |>.1, rfl, ?_, ?_, ?_⟩
  · by_contra hsome
    have hsome := Option.isSome_iff_ne_none.2 hsome
    exact absurd (hone "hlt:\n.org5".toList label instruction rfl hsome) (by decide)
  · exact hdirective _ (by decide)
  · apply hinstruction
    intro htrimmed
    exact absurd (htrimmed.1 ' ' rfl) (by decide)
  · exact hlabel "hlt:\n.org5".toList "hlt".toList _ rfl

end Recognizer

end SapOne

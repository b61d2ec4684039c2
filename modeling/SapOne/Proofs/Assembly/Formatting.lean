import SapOne.Proofs.Assembly.Renaming

set_option relaxedAutoImplicit false
set_option autoImplicit false

/-!
# Formatting

Blanks, comments and the case of letters in keywords and mnemonics carry no meaning. Two sources
that differ in nothing else, line by line, are assembled alike: to the same image with the same
labels, or they are rejected on the same line for the same reason. The case of letters in labels
and names does carry meaning.

The operand of a list is kept as it was written, blanks around its commas included, and is taken
apart again in each pass. This is the one place where lines that are formatted differently are not
read as the same line.

## Main definitions

* `SapOne.Operand.SameItems` — lists that differ in the blanks around their commas.
* `SapOne.Source.Reformats` — lines that differ in their formatting.
* `SapOne.Error.UpToFormat` — errors that differ in how they quote a malformed list.

## Main results

* `SapOne.Source.Reformats.sameText` — lines that differ in their formatting are read alike.
* `SapOne.Assembly.ofSource_jump` — a jump finds a label only under its own name.
* `SapOne.Assembly.ofSource_of_reformats` — formatting never changes the result.
-/

namespace SapOne

open Grammar

/-! ## Lines that differ in their formatting -/

/-- Lists with the same items between their commas, each with any blanks around it. -/
def Operand.SameItems (o o' : Text) : Prop :=
  ∃ pieces pieces' : List Text, pieces ≠ [] ∧
    o = [','].intercalate pieces ∧ o' = [','].intercalate pieces' ∧
    List.Forall₂ (fun p p' => ∃ item, ',' ∉ item ∧ IsTrim p item ∧ IsTrim p' item) pieces pieces'

/-- Statements that are the same, or lists of bytes that differ in the blanks around their
commas. -/
inductive Statement.Reformats : Statement → Statement → Prop
  | same (s : Statement) : Reformats s s
  | byte {o o' : Text} (h : Operand.SameItems o o') :
    Reformats (.directive .byte o) (.directive .byte o')

/-- Lines that differ in their formatting: in blanks at the ends and between the parts, in the case
of letters in the keyword or mnemonic, and in the comment. A line that cannot be read is not
changed at all. -/
inductive Source.Reformats : Text → Text → Prop
  | unreadable {raw : Text} {e : Error} (h : Line.parse raw = .error e) : Reformats raw raw
  | blank {raw raw' : Text} (h : IsCode raw []) (h' : IsCode raw' []) : Reformats raw raw'
  /-- The same line in two formats that fit it, but for the blanks around the commas of a list. -/
  | line {line line' : Line} {format format' : Line.Format} (hline : line.WellFormed)
    (hline' : line'.WellFormed) (hformat : format.Fits line) (hformat' : format'.Fits line')
    (hlabel : line.label = line'.label)
    (hstatement : Option.Rel Statement.Reformats line.statement line'.statement) :
    Reformats (line.render format) (line'.render format')

/-- Errors that are the same, but for the blanks in a malformed list that they quote. -/
inductive Error.UpToFormat : Error → Error → Prop
  | same (e : Error) : UpToFormat e e
  | malformed (o o' : Text) : UpToFormat (.malformed o) (.malformed o')

/-! ## Lists -/

/-- Blanks around an item bring no comma. -/
lemma Grammar.IsTrim.comma_not_mem {p item : Text} (h : IsTrim p item) (hitem : ',' ∉ item) :
    ',' ∉ p :=
  h.not_mem (by decide) hitem

namespace Operand

/-- Pieces with the same items have no comma, and are the same once they are trimmed. -/
lemma map_trim_of_forall₂ {pieces pieces' : List Text}
    (h : List.Forall₂ (fun p p' => ∃ item, ',' ∉ item ∧ IsTrim p item ∧ IsTrim p' item)
      pieces pieces') :
    (∀ p ∈ pieces, ',' ∉ p) ∧ (∀ p ∈ pieces', ',' ∉ p) ∧
      pieces'.map Text.trim = pieces.map Text.trim := by
  induction h with
  | nil => simp
  | cons hp _ ih =>
    obtain ⟨item, hitem, htrim, htrim'⟩ := hp
    obtain ⟨hcomma, hcomma', hmap⟩ := ih
    simp only [List.forall_mem_cons, List.map_cons]
    refine ⟨⟨htrim.comma_not_mem hitem, hcomma⟩, ⟨htrim'.comma_not_mem hitem, hcomma'⟩, ?_⟩
    rw [hmap, trim_eq_iff.2 htrim, trim_eq_iff.2 htrim']

/-- Lists with the same items are taken apart alike. -/
lemma SameItems.rel_items {o o' : Text} (h : SameItems o o') :
    Except.Rel Error.UpToFormat (List.Forall₂ Eq) (items o) (items o') := by
  obtain ⟨pieces, pieces', hne, rfl, rfl, hpieces⟩ := h
  obtain ⟨hcomma, hcomma', hmap⟩ := map_trim_of_forall₂ hpieces
  have hne' : pieces' ≠ [] := by
    rintro rfl
    cases hpieces
    exact hne rfl
  have hsplit : (Text.split ',' ([','].intercalate pieces')).map Text.trim =
      ((Text.split ',' ([','].intercalate pieces)).map Text.trim).map id := by
    rw [Text.split_intercalate hne hcomma, Text.split_intercalate hne' hcomma', hmap, List.map_id]
  refine (Operand.rel_items .same .malformed (fun _ => Iff.rfl) hsplit).imp (fun _ _ he => he) ?_
  intro items items' hitems
  exact hitems.imp fun _ _ hp => Eq.symm hp

end Operand

/-! ## The two runs -/

/-- Another formatting as a correspondence of runs: all is the same but for quoted lists. -/
def Formatting : Correspondence where
  name := Eq
  line := Eq
  operand := Eq
  error := Error.UpToFormat
  image := Eq
  name_eq_iff := @Eq.congr Text
  redefinedLabel := by
    rintro n _ i _ rfl rfl
    exact .same _
  undefinedLabel := by
    rintro n _ rfl
    exact .same _
  addressOutOfRange := by
    rintro a _ rfl
    exact .same _
  operandOutOfRange := by
    rintro o _ rfl value
    exact .same _
  byteOutOfRange := by
    rintro o _ rfl value
    exact .same _
  parse := by
    rintro o _ rfl
    refine .refl .same ?_ _
    intro p
    cases p with
    | literal value => exact .literal value
    | symbol n => exact .symbol rfl
  write := by
    rintro m _ i _ rfl rfl address byte
    exact .refl .same (fun _ => rfl) _

/-- Statements in another layout correspond to each other. -/
lemma Statement.Reformats.sameStatement {s s' : Statement} (h : s.Reformats s') :
    Formatting.SameStatement s s' := by
  cases h with
  | same => exact .refl Error.UpToFormat.same (fun _ => rfl) s
  | byte h => exact .byte h.rel_items

/-- **Lines that differ in their formatting are read alike.**

**Proof sketch.** A line that is written in a format that fits it is read as that line, so that
what is left to compare is the two lines themselves. -/
lemma Source.Reformats.sameText {raw raw' : Text} (h : Reformats raw raw') :
    Formatting.SameText raw raw' := by
  unfold Correspondence.SameText
  cases h with
  | unreadable h =>
    rw [h]
    exact .error (.same _)
  | blank h h' =>
    rw [parse_eq_iff.2 (.blank h), parse_eq_iff.2 (.blank h')]
    exact .ok .none
  | @line line line' _ _ hline hline' hformat hformat' hlabel hstatement =>
    rw [Line.parse_render hline hformat, Line.parse_render hline' hformat']
    refine .ok (.some ⟨?_, ?_⟩)
    · rw [hlabel]
      cases line'.label with
      | none => exact .none
      | some name => exact .some rfl
    · generalize line.statement = s at hstatement
      generalize line'.statement = s' at hstatement
      cases hstatement with
      | none => exact .none
      | some hs => exact .some hs.sameStatement

/-- Corresponding tables are the same, because layout changes no label and no line. -/
lemma Formatting.symbols_eq {t t' : Symbols} (h : Formatting.SameSymbols t t') : t = t' :=
  h.eq (fun _ _ hname => hname) fun _ _ hline => hline

/-! ## Letters of names -/

namespace Assembly

/-- A line with a label and a jump to a name. -/
def jumpLine (label name : Text) : Text :=
  label ++ ": jmp ".toList ++ name

/-- A line with a label and a jump is read as that. -/
lemma parse_jumpLine {label name : Text} (hlabel : IsWord label) (hname : IsWord name) :
    Line.parse (jumpLine label name) = .ok (some ⟨some label, some (.instruction .jmp name)⟩) := by
  have htoken : IsToken name :=
    ⟨name, Or.inl rfl, hname.1, fun c hc => by simp [Char.isAlphanum, hname.2 c hc]⟩
  have hline : Line.WellFormed ⟨some label, some (.instruction .jmp name)⟩ := by
    refine ⟨by simp, ?_, ?_⟩
    · rintro _ ⟨⟩
      exact hlabel
    · rintro _ ⟨⟩
      exact Or.inr htoken
  have hblank : IsBlanks [' '] := List.all_eq_true.1 (by decide)
  have hformat : Line.Format.Fits ⟨[], [' '], "jmp".toList, [' '], [], none⟩
      ⟨some label, some (.instruction .jmp name)⟩ := by
    refine ⟨by simp [IsBlanks], hblank, hblank, by simp [IsBlanks], ?_⟩
    rintro _ ⟨⟩
    exact ⟨rfl, fun _ => by simp⟩
  have hread := Line.parse_render hline hformat
  have hrender : Line.render ⟨[], [' '], "jmp".toList, [' '], [], none⟩
      ⟨some label, some (.instruction .jmp name)⟩ = jumpLine label name := by
    simp [Line.render, Line.renderStatement, jumpLine]
  rwa [hrender] at hread

/-- The first pass binds the label of such a line to the first address. -/
lemma program_jumpLine {label name : Text} (hlabel : IsWord label) (hname : IsWord name) :
    Program.ofSource [jumpLine label name] =
      .ok ⟨⟨[⟨label, 0, 0⟩]⟩, [⟨0, .instruction .jmp name⟩]⟩ := by
  rw [Program.ofSource, Layout.addLines_cons, Layout.addLine, parse_jumpLine hlabel hname]
  rfl

/-- A jump to a label assembles exactly if it spells the name as the label does. -/
lemma ofSource_jump {label name : Text} (hlabel : IsWord label) (hname : IsWord name) :
    if label = name then ∃ a, ofSource [jumpLine label name] = .ok a
    else ofSource [jumpLine label name] = .error ⟨0, .undefinedLabel name⟩ := by
  have hparse := Operand.parse_of_isName (IsName.of_isWord hname)
  have hencode : ofSource [jumpLine label name] =
      (Program.encode ⟨⟨[⟨label, 0, 0⟩]⟩, [⟨0, .instruction .jmp name⟩]⟩ >>= fun image =>
        .ok ⟨⟨⟨[⟨label, 0, 0⟩]⟩, [⟨0, .instruction .jmp name⟩]⟩, image⟩) := by
    rw [ofSource, program_jumpLine hlabel hname]
    rfl
  have hevaluate : Symbols.evaluate ⟨[⟨label, 0, 0⟩]⟩ name =
      if label = name then .ok 0 else .error (.undefinedLabel name) := by
    rw [Symbols.evaluate_of_symbol _ hparse]
    by_cases h : label = name <;>
      simp [Symbols.resolve, Symbols.address?, Symbols.find?, h]
  rw [hencode, Program.encode, Encoder.addAll_cons, Encoder.add, Encoder.write,
    Symbols.instructionByte_of_takesOperand _ rfl, hevaluate]
  by_cases h : label = name
  · rw [if_pos h, if_pos h]
    exact ⟨_, rfl⟩
  · rw [if_neg h, if_neg h]
    rfl

/-- **Formatting never changes the result.** Take two sources that differ only in blanks, in
comments and in the case of letters of keywords and mnemonics, line by line. Either both assemble,
to the same image with the same labels, or both are rejected, on the same line with the same
error up to blanks in a list that it quotes. The case of letters in names is no such difference:
a jump to a label, under any other spelling of its name, is rejected. -/
theorem ofSource_of_reformats :
    (∀ source source' : List Text, List.Forall₂ Source.Reformats source source' →
      Except.Rel (fun d d' => d'.line = d.line ∧ d.error.UpToFormat d'.error)
        (fun a a' => a'.image = a.image ∧ a'.symbols = a.symbols)
        (ofSource source) (ofSource source')) ∧
    ∀ label name : Text, IsWord label → IsWord name →
      if label = name then ∃ a, ofSource [jumpLine label name] = .ok a
      else ofSource [jumpLine label name] = .error ⟨0, .undefinedLabel name⟩ := by
  constructor
  · intro source source' h
    have hsame : List.Forall₂ Formatting.SameText source source' :=
      h.imp fun _ _ => Source.Reformats.sameText
    have hrel := Correspondence.rel_ofSource (k := Formatting) (fun _ => rfl) rfl hsame
    exact hrel.imp (fun _ _ hd => ⟨hd.line.symm, hd.error⟩)
      fun _ _ ha => ⟨ha.image.symm, (Formatting.symbols_eq ha.symbols).symm⟩
  · intro label name hlabel hname
    exact ofSource_jump hlabel hname

/-- A mnemonic and a keyword in capital letters, blanks of several kinds, also around a comma and
over a line feed behind a label, a comment taken away and one put in. -/
theorem ofSource_reformats_spread_out :
    List.Forall₂ Source.Reformats ["x: lda y ; go".toList, [], "y: .byte x,2".toList]
        ["\tx:LDA\u00a0 y".toList, "; note".toList, "y:\n.BYTE x ,\t2 ".toList] ∧
      ∃ a a', ofSource ["x: lda y ; go".toList, [], "y: .byte x,2".toList] = .ok a ∧
        ofSource ["\tx:LDA\u00a0 y".toList, "; note".toList, "y:\n.BYTE x ,\t2 ".toList] = .ok a' ∧
        a'.image = a.image ∧ a'.symbols = a.symbols := by
  have hload : Line.WellFormed ⟨some "x".toList, some (.instruction .lda "y".toList)⟩ := by
    refine ⟨by simp, ?_, ?_⟩
    · rintro _ ⟨⟩
      exact ⟨by decide, List.all_eq_true.1 (by decide)⟩
    · rintro _ ⟨⟩
      exact Or.inr (isToken_iff.1 (by decide))
  have hbyte : ∀ o ∈ ["x,2".toList, "x ,\t2".toList],
      Line.WellFormed ⟨some "y".toList, some (.directive .byte o)⟩ := by
    intro o ho
    refine ⟨by simp, ?_, ?_⟩
    · rintro _ ⟨⟩
      exact ⟨by decide, List.all_eq_true.1 (by decide)⟩
    · rintro _ ⟨⟩
      have htrim : ∀ o ∈ ["x,2".toList, "x ,\t2".toList], Text.trim o = o ∧
          Line.commentSign ∉ o ∧ '\n' ∉ o := by decide
      obtain ⟨htrim, hrest⟩ := htrim o ho
      exact ⟨Text.trim_eq_self_iff.1 htrim, hrest⟩
  have hitems : Operand.SameItems "x,2".toList "x ,\t2".toList := by
    refine ⟨["x".toList, "2".toList], ["x ".toList, "\t2".toList], by simp, rfl, rfl, ?_⟩
    refine .cons ⟨"x".toList, by decide, trim_eq_iff.1 (by decide), trim_eq_iff.1 (by decide)⟩ <|
      .cons ⟨"2".toList, by decide, trim_eq_iff.1 (by decide), trim_eq_iff.1 (by decide)⟩ .nil
  have hblanks : ∀ s ∈ [[], " ".toList, "\t".toList, "\u00a0 ".toList, "\n".toList],
      IsBlanks s := by
    intro s hs
    have hall : ∀ s ∈ [[], " ".toList, "\t".toList, "\u00a0 ".toList, "\n".toList],
      s.all Text.isBlank = true := by decide
    exact List.all_eq_true.1 (hall s hs)
  have hfirst : Source.Reformats "x: lda y ; go".toList "\tx:LDA\u00a0 y".toList := by
    refine @Source.Reformats.line _ _
      ⟨[], " ".toList, "lda".toList, " ".toList, " ".toList, some " go".toList⟩
      ⟨"\t".toList, [], "LDA".toList, "\u00a0 ".toList, [], none⟩
      hload hload ?_ ?_ rfl (.some (.same _))
    all_goals
      refine ⟨hblanks _ (by simp), hblanks _ (by simp), hblanks _ (by simp), hblanks _ (by simp),
        ?_⟩
      rintro _ ⟨⟩
      exact ⟨by decide, by decide⟩
  have hlast : Source.Reformats "y: .byte x,2".toList "y:\n.BYTE x ,\t2 ".toList := by
    refine @Source.Reformats.line _ _
      ⟨[], " ".toList, "byte".toList, " ".toList, [], none⟩
      ⟨[], "\n".toList, "BYTE".toList, " ".toList, " ".toList, none⟩
      (hbyte "x,2".toList (by simp)) (hbyte "x ,\t2".toList (by simp)) ?_ ?_ rfl
      (.some (.byte hitems))
    all_goals
      refine ⟨hblanks _ (by simp), hblanks _ (by simp), hblanks _ (by simp), hblanks _ (by simp),
        ?_⟩
      rintro _ ⟨⟩
      exact ⟨by decide, by decide, fun _ => by decide⟩
  have h : List.Forall₂ Source.Reformats ["x: lda y ; go".toList, [], "y: .byte x,2".toList]
      ["\tx:LDA\u00a0 y".toList, "; note".toList, "y:\n.BYTE x ,\t2 ".toList] :=
    .cons hfirst (.cons (.blank (clean_eq_iff.1 (by decide)) (clean_eq_iff.1 (by decide)))
      (.cons hlast .nil))
  have hrel := ofSource_of_reformats.1 _ _ h
  have hok : ofSource ["x: lda y ; go".toList, [], "y: .byte x,2".toList] =
      .ok ⟨⟨⟨[⟨"x".toList, 0, 0⟩, ⟨"y".toList, 2, 1⟩]⟩,
          [⟨0, .instruction .lda "y".toList⟩, ⟨2, .directive .byte "x,2".toList⟩]⟩,
        ⟨#v[0x11, 0, 2, 0, 0, 0, 0, 0, 0, 0, 0, 0, 0, 0, 0, 0],
          #v[some 0, some 2, some 2, none, none, none, none, none, none, none, none, none, none,
            none, none, none]⟩⟩ := by
    decide +kernel
  rw [hok] at hrel
  generalize hrun : ofSource ["\tx:LDA\u00a0 y".toList, "; note".toList,
    "y:\n.BYTE x ,\t2 ".toList] = run at hrel
  cases hrel with
  | ok ha => exact ⟨h, _, _, hok, rfl, ha⟩

end Assembly

end SapOne

import SapOne.Proofs.Assembly.Emission
import SapOne.Proofs.Assembly.Simulation
import SapOne.Proofs.Source.Rendering

set_option relaxedAutoImplicit false
set_option autoImplicit false

/-!
# What the assembler looks at

Not all that stands in a source program makes a difference. The second pass asks the table of
labels for the names that the statements refer to, and for nothing else: neither the order and the
lines of the labels nor labels that nobody refers to can be seen in the image. An operation without
operand may still be followed by one, and a section may have any name; neither pass looks at these
texts.

Both facts compare two runs that are the same but for what is not looked at, so that they rest on
one correspondence of runs.

## Main definitions

* `SapOne.Statement.RefersTo`, `SapOne.Numbered.ReferTo` — the names that statements refer to.
* `SapOne.Statement.SameButIgnored`, `SapOne.Line.SameButIgnored`,
  `SapOne.Source.SameButIgnored` — what differs in an operand that nobody looks at.
* `SapOne.Correspondence.sharing` — two runs that share the names which they look up.

## Main results

* `SapOne.Statement.SameButIgnored.sameStatement` — a statement shares all but an operand that
  nobody looks at.
* `SapOne.Program.exists_address_of_encode` — a program that is encoded refers to labels only.
* `SapOne.Program.encode_sees_only_references` — the second pass sees a table through the names
  that it refers to.
* `SapOne.Assembly.ofSource_ignores_operands` — operands that nobody looks at change nothing.
-/

namespace SapOne

/-! ## References and ignored operands -/

namespace Statement

/-- A statement refers to a name: by the operand of an operation that takes one, or by an item of a
list of bytes. -/
inductive RefersTo : Statement → Text → Prop
  | instruction {op : Opcode} {operand name : Text} (hop : op.takesOperand = true)
    (h : Operand.parse operand = .ok (.symbol name)) : RefersTo (.instruction op operand) name
  | item {operand name item : Text} {items : List Text}
    (hitems : Operand.items operand = .ok items) (hitem : item ∈ items)
    (h : Operand.parse item = .ok (.symbol name)) : RefersTo (.directive .byte operand) name

/-- Statements that are the same, but for the operand of an operation without operand or the name of
a section. -/
inductive SameButIgnored : Statement → Statement → Prop
  | same (s : Statement) : SameButIgnored s s
  | segment (o o' : Text) : SameButIgnored (.directive .segment o) (.directive .segment o')
  | instruction {op : Opcode} (hop : op.takesOperand = false) (o o' : Text) :
    SameButIgnored (.instruction op o) (.instruction op o')

end Statement

/-- Some statement of a list refers to a name. -/
def Numbered.ReferTo (statements : List Numbered) (name : Text) : Prop :=
  ∃ s ∈ statements, s.statement.RefersTo name

/-- Lines with the same label whose statements are the same but for an ignored operand. -/
structure Line.SameButIgnored (line line' : Line) : Prop where
  label : line.label = line'.label
  statement : Option.Rel Statement.SameButIgnored line.statement line'.statement

/-- Texts that are read as lines which are the same but for an ignored operand, or with the same
error. -/
def Source.SameButIgnored (raw raw' : Text) : Prop :=
  Except.Rel Eq (Option.Rel Line.SameButIgnored) (Line.parse raw) (Line.parse raw')

/-! ## Runs that share the names which they look up -/

namespace Correspondence

/-- The correspondence of runs in which all is the same, as far as it is looked at. Names are looked
up only if they are known. -/
def sharing (known : Text → Prop) : Correspondence where
  name n n' := n = n' ∧ known n
  line := Eq
  operand o o' := o = o' ∧ ∀ n, Operand.parse o = .ok (.symbol n) → known n
  error := Eq
  image := Eq
  name_eq_iff := by
    intro m m' n n' hm hn
    obtain ⟨rfl, -⟩ := hm
    obtain ⟨rfl, -⟩ := hn
    exact Iff.rfl
  redefinedLabel := by
    intro n n' i i' hn hi
    obtain ⟨rfl, -⟩ := hn
    exact congrArg _ hi
  undefinedLabel := fun hn => congrArg Error.undefinedLabel hn.1
  addressOutOfRange := congrArg Error.addressOutOfRange
  operandOutOfRange := fun ho value => congrArg (Error.operandOutOfRange · value) ho.1
  byteOutOfRange := fun ho value => congrArg (Error.byteOutOfRange · value) ho.1
  parse := by
    intro o o' ho
    obtain ⟨rfl, hknown⟩ := ho
    cases h : Operand.parse o with
    | error e => exact .error rfl
    | ok p =>
      cases p with
      | literal value => exact .ok (.literal value)
      | symbol n => exact .ok (.symbol ⟨rfl, hknown n h⟩)
  write := by
    intro m m' i i' hm hi address byte
    subst hm hi
    exact .refl (fun _ => rfl) (fun _ => rfl) _

variable {known : Text → Prop}

/-- Runs that share their names stop with the same diagnostic. -/
lemma SameDiagnostic.eq_of_sharing {d d' : Diagnostic} (h : (sharing known).SameDiagnostic d d') :
    d = d' :=
  Diagnostic.ext h.line h.error

end Correspondence

open Correspondence

/-- **A statement shares all but an operand that nobody looks at.** What is looked up are the names
that it refers to. -/
lemma Statement.SameButIgnored.sameStatement {s s' : Statement} (h : s.SameButIgnored s')
    {known : Text → Prop} (hknown : ∀ name, s.RefersTo name → known name) :
    (sharing known).SameStatement s s' := by
  cases h with
  | segment o o' => exact .segment o o'
  | instruction hop o o' => exact .instruction fun h => absurd h (by simp [hop])
  | same =>
    match s with
    | .directive .org o => exact .org (.refl (fun _ => rfl) (fun _ => rfl) _)
    | .directive .segment o => exact .segment o o
    | .directive .byte o =>
      refine .byte ?_
      cases hitems : Operand.items o with
      | error e => exact .error rfl
      | ok items =>
        refine .ok (List.forall₂_same.2 fun item hitem => ⟨rfl, fun name hname => ?_⟩)
        exact hknown name (.item hitems hitem hname)
    | .instruction op o =>
      exact .instruction fun hop => ⟨rfl, fun name hname => hknown name (.instruction hop hname)⟩

/-! ## The table of labels -/

/-- In a table without repetitions a name has the address of a label with that name. -/
lemma Symbols.address?_eq_some_iff {t : Symbols} (h : (t.toList.map Symbol.name).Nodup)
    {name : Text} {address : Nat} :
    t.address? name = some address ↔ ∃ line, ⟨name, line, address⟩ ∈ t.toList := by
  rw [address?, Option.map_eq_some_iff]
  constructor
  · intro hfind
    obtain ⟨s, hs, rfl⟩ := hfind
    have hname : s.name = name := by simpa using List.find?_some hs
    refine ⟨s.line, ?_⟩
    rw [← hname]
    exact List.mem_of_find?_eq_some hs
  · intro hmem
    obtain ⟨line, hmem⟩ := hmem
    exact ⟨_, find?_of_mem h hmem, rfl⟩

/-- A name has an address if an operand that is that name has a value. -/
lemma Symbols.exists_address_of_evaluate {t : Symbols} {text name : Text} {value : Nat}
    (h : t.evaluate text = .ok value) (hname : Operand.parse text = .ok (.symbol name)) :
    ∃ address, t.address? name = some address := by
  rw [t.evaluate_of_symbol hname, resolve] at h
  cases haddress : t.address? name with
  | none =>
    rw [haddress] at h
    cases h
  | some address => exact ⟨address, rfl⟩

/-- A statement that has values refers to labels only. -/
lemma Statement.exists_address_of_values {t : Symbols} {s : Statement} {values : List Nat}
    (h : s.values t = .ok values) {name : Text} (hname : s.RefersTo name) :
    ∃ address, t.address? name = some address := by
  cases hname with
  | instruction hop hparse =>
    rw [Statement.values, if_pos hop] at h
    obtain ⟨value, hvalue, -⟩ := Except.map_eq_ok_iff.1 h
    exact Symbols.exists_address_of_evaluate hvalue hparse
  | item hitems hitem hparse =>
    obtain ⟨items, hitems', hvalues⟩ := Except.bind_eq_ok_iff.1 h
    rw [hitems] at hitems'
    cases hitems'
    obtain ⟨value, hvalue⟩ := Except.exists_of_mapM_eq_ok hvalues hitem
    exact Symbols.exists_address_of_evaluate hvalue hparse

namespace Program

variable {statements : List Numbered} {t t' : Symbols}

/-- **A program that is encoded** refers to labels only. -/
theorem exists_address_of_encode {image : Image} (h : encode ⟨t, statements⟩ = .ok image)
    {name : Text} (hname : Numbered.ReferTo statements name) :
    ∃ address, t.address? name = some address := by
  obtain ⟨s, hs, hname⟩ := hname
  obtain ⟨final, hrun, -⟩ := Except.map_eq_ok_iff.1 h
  obtain ⟨emissions, hemissions, -⟩ := Encoder.shows_of_addAll Image.shows_empty hrun
  obtain ⟨own, -, hown, -⟩ := Numbered.length_emissions_of_mem hemissions hs 0
  obtain ⟨values, hvalues, -⟩ := Except.map_eq_ok_iff.1 hown
  exact Statement.exists_address_of_values hvalues hname

/-- Tables that agree on all references give the same image, or the same diagnostic. -/
lemma encode_congr
    (h : ∀ name, Numbered.ReferTo statements name → t.address? name = t'.address? name) :
    encode ⟨t, statements⟩ = encode ⟨t', statements⟩ := by
  have hagree : (sharing (Numbered.ReferTo statements)).Agree t t' := by
    intro name name' hsame
    obtain ⟨rfl, hname⟩ := hsame
    exact h name hname
  have hstatements : List.Forall₂ (sharing (Numbered.ReferTo statements)).SameNumbered
      statements statements := by
    apply List.forall₂_same.2
    intro s hs
    refine ⟨rfl, (Statement.SameButIgnored.same s.statement).sameStatement ?_⟩
    intro name hname
    exact ⟨s, hs, hname⟩
  have hstart : (sharing (Numbered.ReferTo statements)).SameEncoder .start .start := ⟨rfl, rfl⟩
  have hrun := rel_addAll hagree hstart hstatements
  exact ((hrun.map fun e e' he => he.image).imp (fun _ _ hd => hd.eq_of_sharing)
    fun _ _ himage => himage).eq

/-- **The second pass sees a table of labels only through the names that it refers to.** Two tables
that have the same address for each of these names give the same image, or the same diagnostic. So
the order of the labels, the lines that define them and labels that nobody refers to do not matter;
and a program that is encoded with a table is encoded to the same image with every table that
extends it. -/
theorem encode_sees_only_references (statements : List Numbered) (t t' : Symbols) :
    ((∀ name, Numbered.ReferTo statements name → t.address? name = t'.address? name) →
      encode ⟨t, statements⟩ = encode ⟨t', statements⟩) ∧
    ((t.toList.map Symbol.name).Nodup → (t'.toList.map Symbol.name).Nodup →
      (∀ name, Numbered.ReferTo statements name → ∀ address,
        (∃ line, ⟨name, line, address⟩ ∈ t.toList) ↔ ∃ line, ⟨name, line, address⟩ ∈ t'.toList) →
      encode ⟨t, statements⟩ = encode ⟨t', statements⟩) ∧
    ∀ image, encode ⟨t, statements⟩ = .ok image →
      (∀ name address, t.address? name = some address → t'.address? name = some address) →
      encode ⟨t', statements⟩ = .ok image := by
  refine ⟨encode_congr, ?_, ?_⟩
  · intro hnodup hnodup' h
    apply encode_congr
    intro name hname
    apply Option.ext
    intro address
    rw [Symbols.address?_eq_some_iff hnodup, Symbols.address?_eq_some_iff hnodup']
    exact h name hname address
  · intro image himage hextends
    rw [← himage]
    apply encode_congr
    intro name hname
    obtain ⟨address, haddress⟩ := exists_address_of_encode himage hname
    rw [haddress, hextends name address haddress]

/-- Three statements that refer to two names: with a table that has neither of them; with a table in
another order, with other lines and a label more; and with a table that goes on. -/
theorem encode_sees_only_references_reordered :
    ∃ statements : List Numbered, statements = [⟨0, .instruction .lda "x".toList⟩,
        ⟨1, .directive .byte "y, 2".toList⟩, ⟨2, .instruction .hlt "z".toList⟩] ∧
      encode ⟨{}, statements⟩ = encode ⟨⟨[⟨"z".toList, 0, 99⟩]⟩, statements⟩ ∧
      encode ⟨⟨[⟨"x".toList, 0, 3⟩, ⟨"y".toList, 1, 7⟩]⟩, statements⟩ =
        encode ⟨⟨[⟨"z".toList, 0, 99⟩, ⟨"y".toList, 5, 7⟩, ⟨"x".toList, 1, 3⟩]⟩, statements⟩ ∧
      ∃ image, encode ⟨⟨[⟨"x".toList, 0, 3⟩, ⟨"y".toList, 1, 7⟩]⟩, statements⟩ = .ok image ∧
        encode ⟨⟨[⟨"x".toList, 0, 3⟩, ⟨"y".toList, 1, 7⟩, ⟨"z".toList, 2, 2⟩]⟩, statements⟩ =
          .ok image := by
  refine ⟨_, rfl, ?_⟩
  generalize hstatements : ([⟨0, .instruction .lda "x".toList⟩,
    ⟨1, .directive .byte "y, 2".toList⟩, ⟨2, .instruction .hlt "z".toList⟩] : List Numbered) =
    statements
  have hrefer : ∀ name, Numbered.ReferTo statements name →
      name = "x".toList ∨ name = "y".toList := by
    intro name hname
    obtain ⟨s, hs, hname⟩ := hname
    rw [← hstatements] at hs
    simp only [List.mem_cons, List.not_mem_nil, or_false] at hs
    rcases hs with rfl | rfl | rfl
    · cases hname with
      | instruction hop h =>
        cases h
        exact Or.inl rfl
    · cases hname with
      | item hitems hitem h =>
        have hlist : Operand.items "y, 2".toList = .ok ["y".toList, "2".toList] := rfl
        rw [hlist] at hitems
        cases hitems
        simp only [List.mem_cons, List.not_mem_nil, or_false] at hitem
        rcases hitem with rfl | rfl
        · cases h
          exact Or.inr rfl
        · cases h
    · cases hname with
      | instruction hop h => cases hop
  have himage : ∃ image, encode ⟨⟨[⟨"x".toList, 0, 3⟩, ⟨"y".toList, 1, 7⟩]⟩, statements⟩ =
      .ok image := by
    rw [← hstatements]
    exact ⟨_, rfl⟩
  obtain ⟨image, himage⟩ := himage
  refine ⟨?_, ?_, image, himage, ?_⟩
  · apply (encode_sees_only_references statements _ _).1
    intro name hname
    rcases hrefer name hname with rfl | rfl <;> rfl
  · apply (encode_sees_only_references statements _ _).2.1
    · decide
    · decide
    · intro name hname address
      rcases hrefer name hname with rfl | rfl <;> simp
  · apply (encode_sees_only_references statements _ _).2.2 image himage
    intro name address haddress
    obtain ⟨s, hs, rfl⟩ := Option.map_eq_some_iff.1 haddress
    have hmore := Symbols.find?_of_isPrefix ⟨[⟨"z".toList, 2, 2⟩], rfl⟩ hs
    exact Option.map_eq_some_iff.2 ⟨s, hmore, rfl⟩

end Program

/-! ## Operands that nobody looks at -/

/-- Texts that are the same but for an ignored operand are read alike. -/
lemma Source.SameButIgnored.sameText {raw raw' : Text} (h : SameButIgnored raw raw') :
    (sharing fun _ => True).SameText raw raw' := by
  refine h.imp (fun _ _ he => he) ?_
  intro content content' hcontent
  cases hcontent with
  | none => exact .none
  | @some line line' hline =>
    refine .some ⟨?_, ?_⟩
    · rw [hline.label]
      cases line'.label with
      | none => exact .none
      | some name => exact .some ⟨rfl, trivial⟩
    · have hstatement := hline.statement
      generalize line.statement = s at hstatement
      generalize line'.statement = s' at hstatement
      cases hstatement with
      | none => exact .none
      | some hs => exact .some (hs.sameStatement fun _ _ => trivial)

/-- Texts are the same but for ignored operands, if the lines read from them are. -/
lemma Source.sameButIgnored_of_parse {raw raw' : Text} {line line' : Line}
    (hraw : Line.parse raw = .ok (some line)) (hraw' : Line.parse raw' = .ok (some line'))
    (h : line.SameButIgnored line') : SameButIgnored raw raw' := by
  unfold SameButIgnored
  rw [hraw, hraw']
  exact .ok (.some h)

/-- A line is the same as itself. -/
lemma Line.SameButIgnored.refl (line : Line) : SameButIgnored line line := by
  refine ⟨rfl, ?_⟩
  cases line.statement with
  | none => exact .none
  | some s => exact .some (.same s)

/-- A text is read as it is read. -/
lemma Source.SameButIgnored.refl (raw : Text) : SameButIgnored raw raw := by
  refine Except.Rel.refl (fun _ => rfl) ?_ _
  intro content
  cases content with
  | none => exact .none
  | some line => exact .some (.refl line)

/-- Sources with one and the same change, in the line between two parts. -/
lemma Source.sameButIgnored_between (before after : List Text) {raw raw' : Text}
    (h : SameButIgnored raw raw') :
    List.Forall₂ SameButIgnored (before ++ raw :: after) (before ++ raw' :: after) := by
  have hsame : ∀ lines : List Text, List.Forall₂ SameButIgnored lines lines :=
    fun lines => List.forall₂_same.2 fun line _ => .refl line
  exact List.rel_append (hsame before) (.cons h (hsame after))

namespace Assembly

/-- Sources that are the same but for ignored operands have the same labels and the same image, or
the same diagnostic. -/
lemma rel_of_sameButIgnored {source source' : List Text}
    (h : List.Forall₂ Source.SameButIgnored source source') :
    Except.Rel Eq (fun a a' => a.symbols = a'.symbols ∧ a.image = a'.image)
      (ofSource source) (ofSource source') := by
  have hsource : List.Forall₂ (sharing fun _ => True).SameText source source' :=
    h.imp fun _ _ hraw => hraw.sameText
  refine (rel_ofSource (fun _ => rfl) rfl hsource).imp (fun _ _ hd => hd.eq_of_sharing) ?_
  intro a a' ha
  exact ⟨ha.symbols.eq (fun _ _ hname => hname.1) fun _ _ hline => hline, ha.image⟩

/-- Sources that differ in ignored operands only have the same image or the same diagnostic. -/
lemma assemble_eq_of_sameButIgnored {source source' : List Text}
    (h : List.Forall₂ Source.SameButIgnored source source') : assemble source = assemble source' :=
  ((rel_of_sameButIgnored h).map fun _ _ ha => ha.2).eq

/-- **Operands that nobody looks at change nothing.** Take two sources that are read as the same
lines, but for the operands of operations without operand and the names of sections. Either both
assemble, with the same labels and the same image, or both are rejected, on the same line with the
same error. Every text that can be read as an operand may stand in such a place: none, a name that
is no label, or a number that is out of range. -/
theorem ofSource_ignores_operands :
    (∀ source source' : List Text, List.Forall₂ Source.SameButIgnored source source' →
      Except.Rel Eq (fun a a' => a.symbols = a'.symbols ∧ a.image = a'.image)
        (ofSource source) (ofSource source') ∧
      assemble source = assemble source') ∧
    ∀ (before after : List Text) (s s' : Statement), s.WellFormed → s'.WellFormed →
      s.SameButIgnored s' →
      assemble (before ++ s.plain :: after) = assemble (before ++ s'.plain :: after) := by
  refine ⟨?_, ?_⟩
  · intro source source' h
    exact ⟨rel_of_sameButIgnored h, assemble_eq_of_sameButIgnored h⟩
  · intro before after s s' hs hs' h
    apply assemble_eq_of_sameButIgnored
    apply Source.sameButIgnored_between
    exact Source.sameButIgnored_of_parse (Line.parse_plain hs) (Line.parse_plain hs')
      ⟨rfl, .some h⟩

/-- No operand, a name that is no label, and a numeral that is out of range, all in a place where
nobody looks: in a source that assembles, and in one that does not. -/
theorem ofSource_ignores_junk :
    (∃ image, assemble ["x: hlt".toList, ".segment".toList, "lda x".toList] = .ok image) ∧
    assemble ["x: hlt".toList, ".segment".toList, "lda x".toList] =
      assemble ["x: hlt nowhere".toList, ".segment $g,, x".toList, "lda x".toList] ∧
    assemble ["lda y".toList, "nop".toList] = .error ⟨0, .undefinedLabel "y".toList⟩ ∧
    assemble ["lda y".toList, "nop".toList] =
      assemble ["lda y".toList, "nop 99999999999999999999".toList] := by
  refine ⟨⟨_, rfl⟩, ?_, rfl, ?_⟩
  · have hhlt : Line.parse "x: hlt".toList =
        .ok (some ⟨some "x".toList, some (.instruction .hlt [])⟩) := rfl
    have hhlt' : Line.parse "x: hlt nowhere".toList =
        .ok (some ⟨some "x".toList, some (.instruction .hlt "nowhere".toList)⟩) := rfl
    have hsegment : Line.parse ".segment".toList =
        .ok (some ⟨none, some (.directive .segment [])⟩) := rfl
    have hsegment' : Line.parse ".segment $g,, x".toList =
        .ok (some ⟨none, some (.directive .segment "$g,, x".toList)⟩) := rfl
    refine (ofSource_ignores_operands.1 _ _ (.cons ?_ (.cons ?_ (.cons (.refl _) .nil)))).2
    · exact Source.sameButIgnored_of_parse hhlt hhlt' ⟨rfl, .some (.instruction rfl _ _)⟩
    · exact Source.sameButIgnored_of_parse hsegment hsegment' ⟨rfl, .some (.segment _ _)⟩
  · refine ofSource_ignores_operands.2 ["lda y".toList] [] (.instruction .nop [])
      (.instruction .nop "99999999999999999999".toList) (Or.inl rfl) (Or.inr ?_)
      (.instruction rfl _ _)
    exact ⟨_, Or.inl rfl, by decide, List.all_eq_true.1 (by decide)⟩

end Assembly

end SapOne

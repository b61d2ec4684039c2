import SapOne.Proofs.Assembly.Checks

set_option relaxedAutoImplicit false
set_option autoImplicit false

/-!
# Two runs of the assembler side by side

Sources that differ in the names of their labels, in the numbers of their lines or in the way
their operands are written are assembled in the same way. This module says once what such sources
may differ in: a correspondence relates names, lines, operands, errors and images, and respects
the elementary operations on them. Both passes then respect it as a whole, step by step and run
by run.

## Main definitions

* `SapOne.Layout.addNumbered` — the first pass over lines that carry their numbers.
* `SapOne.Correspondence` — what two runs may differ in.
* `SapOne.Correspondence.SameStatement`, `SapOne.Correspondence.SameLine` — statements and lines
  that correspond to each other.
* `SapOne.Correspondence.SameLayout`, `SapOne.Correspondence.SameEncoder` — states of the two
  passes that correspond to each other.

## Main results

* `SapOne.Correspondence.rel_addLine`, `SapOne.Correspondence.rel_addNumbered` — a line and a run
  of the first pass respect a correspondence.
* `SapOne.Correspondence.rel_add`, `SapOne.Correspondence.rel_addAll` — a statement and a run of
  the second pass respect a correspondence.
* `SapOne.Correspondence.rel_ofSource` — corresponding sources are assembled alike.
-/

namespace SapOne

/-- Operands that are the same number, or names that are related. -/
inductive Operand.Rel (name : Text → Text → Prop) : Operand → Operand → Prop
  | literal (value : Nat) : Rel name (.literal value) (.literal value)
  | symbol {n n' : Text} (h : name n n') : Rel name (.symbol n) (.symbol n')

namespace Layout

/-- Reads lines one after the other, each under its own number. -/
def addNumbered (l : Layout) (lines : List (Text × Nat)) : Except Diagnostic Layout :=
  lines.foldlM (fun l (raw, line) => atLine line (l.addLine line raw)) l

/-- The first of numbered lines is read, and then the others. -/
lemma addNumbered_cons (l : Layout) (x : Text × Nat) (lines : List (Text × Nat)) :
    l.addNumbered (x :: lines) =
      (atLine x.2 (l.addLine x.2 x.1) >>= fun l => l.addNumbered lines) := rfl

end Layout

/-- What two runs of the assembler may differ in. The relations have to respect the elementary
operations: names are told apart in one run as in the other, operands are read alike, and writes
keep images related. -/
structure Correspondence where
  name : Text → Text → Prop
  line : Nat → Nat → Prop
  /-- Texts of operands, and of the items of a list. -/
  operand : Text → Text → Prop
  error : Error → Error → Prop
  image : Image → Image → Prop
  name_eq_iff : ∀ {m m' n n'}, name m m' → name n n' → (m = n ↔ m' = n')
  redefinedLabel : ∀ {n n' i i'}, name n n' → line i i' →
    error (.redefinedLabel n i) (.redefinedLabel n' i')
  undefinedLabel : ∀ {n n'}, name n n' → error (.undefinedLabel n) (.undefinedLabel n')
  addressOutOfRange : ∀ {a a'}, a = a' → error (.addressOutOfRange a) (.addressOutOfRange a')
  operandOutOfRange : ∀ {o o'}, operand o o' → ∀ v,
    error (.operandOutOfRange o v) (.operandOutOfRange o' v)
  byteOutOfRange : ∀ {o o'}, operand o o' → ∀ v, error (.byteOutOfRange o v) (.byteOutOfRange o' v)
  parse : ∀ {o o'}, operand o o' →
    Except.Rel error (Operand.Rel name) (Operand.parse o) (Operand.parse o')
  write : ∀ {m m' i i'}, image m m' → line i i' → ∀ a b,
    Except.Rel error image (m.write a b i) (m'.write a b i')

namespace Correspondence

variable (k : Correspondence)

/-! ## What corresponds to each other -/

/-- Statements of the same kind whose operands correspond. Operands that nobody looks at are
free. -/
inductive SameStatement : Statement → Statement → Prop
  | org {o o' : Text} (h : Except.Rel k.error Eq (Number.parse o) (Number.parse o')) :
    SameStatement (.directive .org o) (.directive .org o')
  | segment (o o' : Text) : SameStatement (.directive .segment o) (.directive .segment o')
  | byte {o o' : Text}
    (h : Except.Rel k.error (List.Forall₂ k.operand) (Operand.items o) (Operand.items o')) :
    SameStatement (.directive .byte o) (.directive .byte o')
  | instruction {op : Opcode} {o o' : Text} (h : op.takesOperand = true → k.operand o o') :
    SameStatement (.instruction op o) (.instruction op o')

/-- Lines whose labels and statements correspond. -/
structure SameLine (l l' : Line) : Prop where
  label : Option.Rel k.name l.label l'.label
  statement : Option.Rel k.SameStatement l.statement l'.statement

/-- Corresponding statements on corresponding lines. -/
structure SameNumbered (s s' : Numbered) : Prop where
  line : k.line s.line s'.line
  statement : k.SameStatement s.statement s'.statement

/-- Labels at the same address whose names and lines correspond. -/
structure SameSymbol (s s' : Symbol) : Prop where
  name : k.name s.name s'.name
  line : k.line s.line s'.line
  address : s.address = s'.address

/-- Tables with corresponding labels, in the same order. -/
def SameSymbols (t t' : Symbols) : Prop :=
  List.Forall₂ k.SameSymbol t.toList t'.toList

/-- States of the first pass at the same location counter. -/
structure SameLayout (l l' : Layout) : Prop where
  symbols : k.SameSymbols l.symbols l'.symbols
  statements : List.Forall₂ k.SameNumbered l.statements l'.statements
  counter : l.counter = l'.counter

/-- States of the second pass at the same location counter. -/
structure SameEncoder (e e' : Encoder) : Prop where
  counter : e.counter = e'.counter
  image : k.image e.image e'.image

/-- Corresponding errors on corresponding lines. -/
structure SameDiagnostic (d d' : Diagnostic) : Prop where
  line : k.line d.line d'.line
  error : k.error d.error d'.error

/-- Texts that are read as corresponding lines, or with corresponding errors. -/
def SameText (raw raw' : Text) : Prop :=
  Except.Rel k.error (Option.Rel k.SameLine) (Line.parse raw) (Line.parse raw')

/-- Tables in which corresponding names have the same address. -/
def Agree (t t' : Symbols) : Prop :=
  ∀ n n', k.name n n' → t.address? n = t'.address? n'

variable {k}

/-- Runs that stop with corresponding errors on corresponding lines stop with corresponding
diagnostics. -/
lemma rel_atLine {α β : Type} {R : α → β → Prop} {i i' : Nat} {x : Except Error α}
    {y : Except Error β} (hi : k.line i i') (h : Except.Rel k.error R x y) :
    Except.Rel k.SameDiagnostic R (atLine i x) (atLine i' y) := by
  cases h with
  | error h => exact .error ⟨hi, h⟩
  | ok h => exact .ok h

/-- A statement corresponds to itself where errors and operands do. -/
lemma SameStatement.refl (herror : ∀ e, k.error e e) (hoperand : ∀ o, k.operand o o)
    (s : Statement) : k.SameStatement s s := by
  match s with
  | .directive .org o => exact .org (.refl herror (fun _ => rfl) _)
  | .directive .segment o => exact .segment o o
  | .directive .byte o =>
    exact .byte (.refl herror (fun items => List.forall₂_same.2 fun o _ => hoperand o) _)
  | .instruction op o => exact .instruction fun _ => hoperand o

/-! ## The first pass -/

/-- Corresponding statements make the same step. -/
lemma SameStatement.rel_step {s s' : Statement} (h : k.SameStatement s s') :
    Except.Rel k.error Eq s.step s'.step := by
  cases h with
  | org h => exact h.map fun a b hab => by rw [hab]
  | segment => exact .ok rfl
  | byte h => exact h.map fun items items' hitems => by rw [hitems.length_eq]
  | instruction => exact .ok rfl

/-- Corresponding statements move the location counter to the same place. -/
lemma SameStatement.rel_advance {s s' : Statement} (h : k.SameStatement s s') (counter : Nat) :
    Except.Rel k.error Eq (s.advance counter) (s'.advance counter) := by
  refine h.rel_step.bind ?_
  rintro step _ rfl
  cases step with
  | stay => exact .ok rfl
  | jump address => exact .ok rfl
  | advance n =>
    rw [Step.apply]
    cases Arithmetic.words.add? counter n with
    | none => exact .error (k.addressOutOfRange rfl)
    | some a => exact .ok rfl

/-- Under corresponding names corresponding labels are found. -/
lemma SameSymbols.rel_find? {t t' : Symbols} (h : k.SameSymbols t t') {n n' : Text}
    (hn : k.name n n') : Option.Rel k.SameSymbol (t.find? n) (t'.find? n') := by
  refine SapOne.rel_find? h ?_
  intro s s' hs
  simp only [k.name_eq_iff hs.name hn]

/-- Corresponding tables are the same where names and lines are. -/
lemma SameSymbols.eq {t t' : Symbols} (h : k.SameSymbols t t')
    (hname : ∀ n n', k.name n n' → n = n') (hline : ∀ i i', k.line i i' → i = i') : t = t' := by
  have hsame : List.Forall₂ Eq t.toList t'.toList := by
    refine List.Forall₂.imp ?_ h
    intro s s' hs
    exact Symbol.ext (hname _ _ hs.name) (hline _ _ hs.line) hs.address
  rw [List.forall₂_eq_eq_eq] at hsame
  exact Symbols.ext hsame

/-- Corresponding tables have the same addresses. -/
lemma SameSymbols.agree {t t' : Symbols} (h : k.SameSymbols t t') : k.Agree t t' := by
  intro n n' hn
  have hfind := h.rel_find? hn
  unfold Symbols.address?
  generalize t.find? n = s at hfind ⊢
  generalize t'.find? n' = s' at hfind ⊢
  cases hfind with
  | none => rfl
  | some hs => exact congrArg some hs.address

/-- A name is refused in both tables, or appended to both. -/
lemma SameSymbols.rel_define {t t' : Symbols} (h : k.SameSymbols t t') {n n' : Text}
    (hn : k.name n n') {i i' : Nat} (hi : k.line i i') (address : Nat) :
    Except.Rel k.error k.SameSymbols (t.define n i address) (t'.define n' i' address) := by
  have hfind := h.rel_find? hn
  unfold Symbols.define
  generalize t.find? n = s at hfind ⊢
  generalize t'.find? n' = s' at hfind ⊢
  cases hfind with
  | none => exact .ok (List.rel_append h (.cons ⟨hn, hi, rfl⟩ .nil))
  | some hs => exact .error (k.redefinedLabel hn hs.line)

/-- Corresponding labels are bound alike. -/
lemma rel_addLabel {l l' : Layout} (h : k.SameLayout l l') {i i' : Nat} (hi : k.line i i')
    {label label' : Option Text} (hlabel : Option.Rel k.name label label') :
    Except.Rel k.error k.SameLayout (l.addLabel i label) (l'.addLabel i' label') := by
  cases hlabel with
  | none => exact .ok h
  | some hn =>
    unfold Layout.addLabel
    rw [h.counter]
    refine (h.symbols.rel_define hn hi l'.counter).bind ?_
    intro t t' ht
    exact .ok ⟨ht, h.statements, rfl⟩

/-- Corresponding statements are appended alike. -/
lemma rel_addStatement {l l' : Layout} (h : k.SameLayout l l') {i i' : Nat} (hi : k.line i i')
    {s s' : Option Statement} (hs : Option.Rel k.SameStatement s s') :
    Except.Rel k.error k.SameLayout (l.addStatement i s) (l'.addStatement i' s') := by
  cases hs with
  | none => exact .ok h
  | some hs =>
    unfold Layout.addStatement
    rw [h.counter]
    refine (hs.rel_advance l'.counter).bind ?_
    rintro counter _ rfl
    exact .ok ⟨h.symbols, List.rel_append h.statements (.cons ⟨hi, hs⟩ .nil), rfl⟩

/-- **A line of the first pass** respects a correspondence. -/
theorem rel_addLine {l l' : Layout} (h : k.SameLayout l l') {i i' : Nat} (hi : k.line i i')
    {raw raw' : Text} (hraw : k.SameText raw raw') :
    Except.Rel k.error k.SameLayout (l.addLine i raw) (l'.addLine i' raw') := by
  refine hraw.bind ?_
  rintro _ _ (hcontent | _)
  · refine (rel_addLabel h hi hcontent.label).bind ?_
    intro m m' hm
    exact rel_addStatement hm hi hcontent.statement
  · exact .ok h

/-- **A run of the first pass** over numbered lines respects a correspondence. -/
theorem rel_addNumbered {lines lines' : List (Text × Nat)}
    (hlines : List.Forall₂ (fun x x' => k.line x.2 x'.2 ∧ k.SameText x.1 x'.1) lines lines')
    {l l' : Layout} (h : k.SameLayout l l') :
    Except.Rel k.SameDiagnostic k.SameLayout (l.addNumbered lines) (l'.addNumbered lines') := by
  induction hlines generalizing l l' with
  | nil => exact .ok h
  | cons hx _ ih =>
    rw [Layout.addNumbered_cons, Layout.addNumbered_cons]
    refine (rel_atLine hx.1 (rel_addLine h hx.1 hx.2)).bind ?_
    intro m m' hm
    exact ih hm

/-- The same for all lines of two sources, counted alike. -/
lemma rel_addLines (hline : ∀ i, k.line i i) {source source' : List Text}
    (hsource : List.Forall₂ k.SameText source source') {l l' : Layout} (h : k.SameLayout l l')
    (first : Nat) :
    Except.Rel k.SameDiagnostic k.SameLayout (l.addLines source first)
      (l'.addLines source' first) := by
  refine rel_addNumbered ?_ h
  induction hsource generalizing first with
  | nil => exact .nil
  | cons hraw _ ih => exact .cons ⟨hline first, hraw⟩ (ih (first + 1))

/-! ## The second pass -/

section Encoder

variable {t t' : Symbols}

/-- Corresponding operands have the same value. -/
lemma Agree.rel_evaluate (ht : k.Agree t t') {o o' : Text} (ho : k.operand o o') :
    Except.Rel k.error Eq (t.evaluate o) (t'.evaluate o') := by
  refine (k.parse ho).bind ?_
  intro p p' hp
  cases hp with
  | literal value => exact .ok rfl
  | @symbol n n' hn =>
    show Except.Rel k.error Eq (t.resolve n) (t'.resolve n')
    unfold Symbols.resolve
    rw [ht n n' hn]
    cases t'.address? n' with
    | none => exact .error (k.undefinedLabel hn)
    | some a => exact .ok rfl

/-- Corresponding items stand for the same byte. -/
lemma Agree.rel_itemByte (ht : k.Agree t t') {o o' : Text} (ho : k.operand o o') :
    Except.Rel k.error Eq (t.itemByte o) (t'.itemByte o') := by
  refine (ht.rel_evaluate ho).bind ?_
  rintro value _ rfl
  cases Number.toByte? value with
  | none => exact .error (k.byteOutOfRange ho value)
  | some byte => exact .ok rfl

/-- Corresponding instructions stand for the same byte. -/
lemma Agree.rel_instructionByte (ht : k.Agree t t') {op : Opcode} {o o' : Text}
    (ho : op.takesOperand = true → k.operand o o') :
    Except.Rel k.error Eq (t.instructionByte op o) (t'.instructionByte op o') := by
  by_cases hop : op.takesOperand = true
  · rw [Symbols.instructionByte, Symbols.instructionByte, if_pos hop, if_pos hop]
    refine (ht.rel_evaluate (ho hop)).bind ?_
    rintro value _ rfl
    cases (Number.toByte? value).bind (Instruction.make? op) with
    | none => exact .error (k.operandOutOfRange (ho hop) value)
    | some i => exact .ok rfl
  · rw [Symbols.instructionByte, Symbols.instructionByte, if_neg hop, if_neg hop]
    exact .ok rfl

/-- Corresponding items are written alike. -/
lemma Agree.rel_writeItem (ht : k.Agree t t') {o o' : Text} (ho : k.operand o o')
    {i i' : Nat} (hi : k.line i i') {m m' : Image} (hm : k.image m m') (counter offset : Nat) :
    Except.Rel k.error k.image (Encoder.writeItem t counter i m o offset)
      (Encoder.writeItem t' counter i' m' o' offset) := by
  refine (ht.rel_itemByte ho).bind ?_
  rintro byte _ rfl
  cases Arithmetic.words.add? counter offset with
  | none => exact .error (k.addressOutOfRange rfl)
  | some address => exact k.write hm hi address byte

/-- Corresponding lists are written alike, item by item. -/
lemma Agree.rel_writeItems (ht : k.Agree t t') {items items' : List Text}
    (hitems : List.Forall₂ k.operand items items') {i i' : Nat} (hi : k.line i i')
    {m m' : Image} (hm : k.image m m') (counter offset : Nat) :
    Except.Rel k.error k.image
      ((items.zipIdx offset).foldlM
        (fun m (o, offset) => Encoder.writeItem t counter i m o offset) m)
      ((items'.zipIdx offset).foldlM
        (fun m (o, offset) => Encoder.writeItem t' counter i' m o offset) m') := by
  induction hitems generalizing m m' offset with
  | nil => exact .ok hm
  | cons ho _ ih =>
    rw [List.zipIdx_cons, List.foldlM_cons, List.zipIdx_cons, List.foldlM_cons]
    refine (ht.rel_writeItem ho hi hm counter offset).bind ?_
    intro n n' hn
    exact ih hn (offset + 1)

/-- Corresponding statements are written alike. -/
lemma rel_write (ht : k.Agree t t') {e e' : Encoder} (he : k.SameEncoder e e') {i i' : Nat}
    (hi : k.line i i') {s s' : Statement} (hs : k.SameStatement s s') :
    Except.Rel k.error k.image (e.write t i s) (e'.write t' i' s') := by
  cases hs with
  | org => exact .ok he.image
  | segment => exact .ok he.image
  | byte h =>
    rw [Encoder.write, Encoder.write, he.counter]
    refine h.bind ?_
    intro items items' hitems
    exact ht.rel_writeItems hitems hi he.image e'.counter 0
  | instruction h =>
    rw [Encoder.write, Encoder.write, he.counter]
    refine (ht.rel_instructionByte h).bind ?_
    rintro byte _ rfl
    exact k.write he.image hi e'.counter byte

/-- **A statement of the second pass** respects a correspondence. -/
theorem rel_add (ht : k.Agree t t') {e e' : Encoder} (he : k.SameEncoder e e')
    {s s' : Numbered} (hs : k.SameNumbered s s') :
    Except.Rel k.error k.SameEncoder (e.add t s) (e'.add t' s') := by
  refine (rel_write ht he hs.line hs.statement).bind ?_
  intro m m' hm
  rw [he.counter]
  refine (hs.statement.rel_advance e'.counter).bind ?_
  rintro counter _ rfl
  exact .ok ⟨rfl, hm⟩

/-- **A run of the second pass** respects a correspondence. -/
theorem rel_addAll (ht : k.Agree t t') {e e' : Encoder} (he : k.SameEncoder e e')
    {statements statements' : List Numbered}
    (hs : List.Forall₂ k.SameNumbered statements statements') :
    Except.Rel k.SameDiagnostic k.SameEncoder (e.addAll t statements)
      (e'.addAll t' statements') := by
  induction hs generalizing e e' with
  | nil => exact .ok he
  | cons hs _ ih =>
    rw [Encoder.addAll_cons, Encoder.addAll_cons]
    refine (rel_atLine hs.line (rel_add ht he hs)).bind ?_
    intro m m' hm
    exact ih hm

end Encoder

/-! ## Both passes -/

/-- Results of the assembler that correspond to each other. -/
structure SameAssembly (k : Correspondence) (a a' : Assembly) : Prop where
  symbols : k.SameSymbols a.symbols a'.symbols
  image : k.image a.image a'.image

/-- Sources on which the first pass ends alike are assembled alike. -/
lemma rel_ofSource_of_rel_addLines (himage : k.image Image.empty Image.empty)
    {source source' : List Text}
    (h : Except.Rel k.SameDiagnostic k.SameLayout (Layout.start.addLines source 0)
      (Layout.start.addLines source' 0)) :
    Except.Rel k.SameDiagnostic k.SameAssembly (Assembly.ofSource source)
      (Assembly.ofSource source') := by
  have hprogram : Except.Rel k.SameDiagnostic
      (fun p p' => k.SameSymbols p.symbols p'.symbols ∧
        List.Forall₂ k.SameNumbered p.statements p'.statements)
      (Program.ofSource source) (Program.ofSource source') :=
    h.map fun l l' hl => ⟨hl.symbols, hl.statements⟩
  refine hprogram.bind ?_
  rintro p p' ⟨hsymbols, hstatements⟩
  have hencoder : k.SameEncoder Encoder.start Encoder.start := ⟨rfl, himage⟩
  refine ((rel_addAll hsymbols.agree hencoder hstatements).map fun e e' he => he.image).bind ?_
  intro m m' hm
  exact .ok ⟨hsymbols, hm⟩

/-- Both runs of the first pass begin in the same state. -/
lemma sameLayout_start : k.SameLayout Layout.start Layout.start := ⟨.nil, .nil, rfl⟩

/-- **Corresponding sources are assembled alike.** -/
theorem rel_ofSource (hline : ∀ i, k.line i i) (himage : k.image Image.empty Image.empty)
    {source source' : List Text} (hsource : List.Forall₂ k.SameText source source') :
    Except.Rel k.SameDiagnostic k.SameAssembly (Assembly.ofSource source)
      (Assembly.ofSource source') :=
  rel_ofSource_of_rel_addLines himage (rel_addLines hline hsource sameLayout_start 0)

end Correspondence

end SapOne

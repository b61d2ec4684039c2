import SapOne.Proofs.Assembly.Simulation
import SapOne.Proofs.Source.Items
import SapOne.Proofs.Source.Rendering

set_option relaxedAutoImplicit false
set_option autoImplicit false

/-!
# Renaming labels

The names of labels carry no meaning. If all names of a source are replaced by others, different
ones by different ones, it is assembled to the same image, and a source that is rejected is
rejected on the same line for the same reason.

## Main definitions

* `SapOne.IsName` — the texts that can name a label in an operand.
* `SapOne.Renaming` — a replacement of names that keeps different names apart.
* `SapOne.Renaming.RenamesText` — a line of a source and the same line with its names replaced.
* `SapOne.Renaming.RenamesError` — an error and the same error with its names replaced.

## Main results

* `SapOne.Operand.parse_of_isName`, `SapOne.Operand.isName_of_parse` — what is read as a name.
* `SapOne.Renaming.rel_items` — lists are taken apart alike before and after.
* `SapOne.Renaming.ofSource_of_renames` — the names of labels carry no meaning.
-/

namespace SapOne

open Grammar

/-! ## Names -/

/-- A name: a run of ASCII letters and digits that begins with a letter. -/
def IsName (s : Text) : Prop :=
  (∃ c ∈ s.head?, c.isAlpha = true) ∧ ∀ c ∈ s, c.isAlphanum = true

/-- A name is not empty. -/
lemma IsName.ne_nil {s : Text} (h : IsName s) : s ≠ [] := by
  rintro rfl
  obtain ⟨⟨c, hc, -⟩, -⟩ := h
  cases hc

/-- A word is a name. -/
lemma IsName.of_isWord {s : Text} (h : IsWord s) : IsName s := by
  obtain ⟨c, cs, rfl⟩ := List.exists_cons_of_ne_nil h.1
  refine ⟨⟨c, rfl, h.2 c List.mem_cons_self⟩, ?_⟩
  intro b hb
  simp [Char.isAlphanum, h.2 b hb]

namespace Operand

/-- A letter is not a digit. -/
lemma isDigit_of_isAlpha {c : Char} (h : c.isAlpha = true) : c.isDigit = false := by
  have hrange : (decide (65 ≤ c.val ∧ c.val ≤ 90) ||
      (decide (97 ≤ c.val) && decide (c.val ≤ 122))) = true := h
  simp only [Bool.or_eq_true, Bool.and_eq_true, decide_eq_true_eq, UInt32.le_iff_toNat_le] at hrange
  have hnat : 65 ≤ c.toNat ∧ c.toNat ≤ 90 ∨ 97 ≤ c.toNat ∧ c.toNat ≤ 122 := hrange
  have hdigit : c.isDigit = (decide (48 ≤ c.toNat) && decide (c.toNat ≤ 57)) := rfl
  simp only [hdigit, Bool.and_eq_false_iff, decide_eq_false_iff_not]
  omega

/-- A name is read as itself. -/
lemma parse_of_isName {n : Text} (h : IsName n) : parse n = .ok (.symbol n) := by
  obtain ⟨⟨c, hc, halpha⟩, hall⟩ := h
  have htrim : Text.trim n = n := Text.trim_eq_self_iff.2
    ⟨fun b hb => isBlank_of_isAlphanum (hall b (List.mem_of_mem_head? hb)),
      fun b hb => isBlank_of_isAlphanum (hall b (List.mem_of_getLast? hb))⟩
  cases n with
  | nil => cases hc
  | cons b n =>
    cases hc
    have hsign : c ≠ Numeral.hexSign := by
      rintro rfl
      exact absurd halpha (by decide)
    rw [parse, htrim]
    simp only [isDigit_of_isAlpha halpha, hsign, decide_false, Bool.or_false, Bool.false_eq_true,
      if_false]
    rw [if_pos (List.all_eq_true.2 hall)]

/-- Whatever is read as a name is a name. -/
lemma isName_of_parse {o n : Text} (h : parse o = .ok (.symbol n)) : IsName n := by
  rw [parse] at h
  split at h
  · cases h
  · next c t _ =>
    split at h
    · obtain ⟨value, -, h⟩ := Except.map_eq_ok_iff.1 h
      cases h
    · next hnumber =>
      split at h
      · next hall =>
        cases h
        rw [List.all_eq_true] at hall
        refine ⟨⟨c, rfl, ?_⟩, hall⟩
        have hc := hall c List.mem_cons_self
        simp only [Bool.or_eq_true, not_or] at hnumber
        simpa [Char.isAlphanum, hnumber.1] using hc
      · cases h

end Operand

/-! ## Replacing names -/

/-- A replacement of names by names that keeps different names apart. A name with a digit in it may
become one without, or the other way round: a label is read off both texts, so that it is a word
before and after. -/
structure Renaming where
  toFun : Text → Text
  isName : ∀ {n}, IsName n → IsName (toFun n)
  injective : ∀ {m n}, IsName m → IsName n → toFun m = toFun n → m = n

namespace Renaming

variable (ρ : Renaming)

/-- The text of an operand, replaced if it is read as a name. -/
def operand (o : Text) : Text :=
  match Operand.parse o with
  | .ok (.symbol n) => ρ.toFun n
  | _ => o

/-- A statement, and the same statement with the names in its operand replaced. In a list the
blanks around the items are free. -/
inductive RenamesStatement : Statement → Statement → Prop
  | org (o : Text) : RenamesStatement (.directive .org o) (.directive .org o)
  | segment (o : Text) : RenamesStatement (.directive .segment o) (.directive .segment o)
  | byte {o o' : Text} (h : (Text.split ',' o').map Text.trim =
      ((Text.split ',' o).map Text.trim).map ρ.operand) :
    RenamesStatement (.directive .byte o) (.directive .byte o')
  | instruction (op : Opcode) (o : Text) :
    RenamesStatement (.instruction op o) (.instruction op (ρ.operand o))

/-- A line, and the same line with its label and the names in its operand replaced. -/
structure RenamesLine (l l' : Line) : Prop where
  label : l'.label = l.label.map ρ.toFun
  statement : Option.Rel ρ.RenamesStatement l.statement l'.statement

/-- Two texts that can be read, the second one as the first one with its names replaced. -/
def RenamesText (raw raw' : Text) : Prop :=
  ∃ content content', Line.parse raw = .ok content ∧ Line.parse raw' = .ok content' ∧
    Option.Rel ρ.RenamesLine content content'

/-- An error, and the same error with its names replaced. Of a malformed list it is not said how
it is quoted. -/
inductive RenamesError : Error → Error → Prop
  | same (e : Error) : RenamesError e e
  | malformed (o o' : Text) : RenamesError (.malformed o) (.malformed o')
  | undefinedLabel (n : Text) : RenamesError (.undefinedLabel n) (.undefinedLabel (ρ.toFun n))
  | redefinedLabel (n : Text) (first : Nat) :
    RenamesError (.redefinedLabel n first) (.redefinedLabel (ρ.toFun n) first)
  | operandOutOfRange (o : Text) (value : Nat) :
    RenamesError (.operandOutOfRange o value) (.operandOutOfRange (ρ.operand o) value)
  | byteOutOfRange (o : Text) (value : Nat) :
    RenamesError (.byteOutOfRange o value) (.byteOutOfRange (ρ.operand o) value)

/-! ## Operands and lists -/

variable {ρ}

/-- An operand that is a name is replaced by the new name. -/
lemma operand_of_parse {o n : Text} (h : Operand.parse o = .ok (.symbol n)) :
    ρ.operand o = ρ.toFun n := by
  rw [operand, h]

/-- An operand that is not a name stays as it is. -/
lemma operand_of_ne {o : Text} (h : ∀ n, Operand.parse o ≠ .ok (.symbol n)) :
    ρ.operand o = o := by
  unfold operand
  split
  · next n hn => exact absurd hn (h n)
  · rfl

/-- A renaming neither makes an operand empty nor fills an empty one. -/
lemma operand_eq_nil_iff {o : Text} : ρ.operand o = [] ↔ o = [] := by
  by_cases h : ∃ n, Operand.parse o = .ok (.symbol n)
  · obtain ⟨n, hn⟩ := h
    have hne : o ≠ [] := by
      rintro rfl
      cases hn
    rw [operand_of_parse hn]
    simp [hne, (ρ.isName (Operand.isName_of_parse hn)).ne_nil]
  · rw [operand_of_ne (by simpa using h)]

/-- An operand with its name replaced is read as the operand with its name replaced. -/
lemma rel_parse (o : Text) :
    Except.Rel ρ.RenamesError (Operand.Rel fun n n' => IsName n ∧ n' = ρ.toFun n)
      (Operand.parse o) (Operand.parse (ρ.operand o)) := by
  by_cases h : ∃ n, Operand.parse o = .ok (.symbol n)
  · obtain ⟨n, hn⟩ := h
    have hname := Operand.isName_of_parse hn
    rw [operand_of_parse hn, hn, Operand.parse_of_isName (ρ.isName hname)]
    exact .ok (.symbol ⟨hname, rfl⟩)
  · rw [operand_of_ne (by simpa using h)]
    cases hparse : Operand.parse o with
    | error e => exact .error (.same e)
    | ok p =>
      cases p with
      | literal value => exact .ok (.literal value)
      | symbol n => exact absurd ⟨n, hparse⟩ h

/-- Lists with corresponding pieces are taken apart alike. -/
lemma rel_items {o o' : Text} (h : (Text.split ',' o').map Text.trim =
    ((Text.split ',' o).map Text.trim).map ρ.operand) :
    Except.Rel ρ.RenamesError (List.Forall₂ fun p p' => p' = ρ.operand p)
      (Operand.items o) (Operand.items o') :=
  Operand.rel_items .same .malformed (fun _ => operand_eq_nil_iff) h

/-! ## The two runs -/

/-- A renaming as a correspondence of runs: lines and images are the same. -/
def correspondence (ρ : Renaming) : Correspondence where
  name n n' := IsName n ∧ n' = ρ.toFun n
  line := Eq
  operand o o' := o' = ρ.operand o
  error := ρ.RenamesError
  image := Eq
  name_eq_iff := by
    rintro m _ n _ ⟨hm, rfl⟩ ⟨hn, rfl⟩
    exact ⟨fun h => h ▸ rfl, ρ.injective hm hn⟩
  redefinedLabel := by
    rintro n _ i _ ⟨-, rfl⟩ rfl
    exact .redefinedLabel n i
  undefinedLabel := by
    rintro n _ ⟨-, rfl⟩
    exact .undefinedLabel n
  addressOutOfRange := by
    rintro a _ rfl
    exact .same _
  operandOutOfRange := by
    rintro o _ rfl value
    exact .operandOutOfRange o value
  byteOutOfRange := by
    rintro o _ rfl value
    exact .byteOutOfRange o value
  parse := by
    rintro o _ rfl
    exact rel_parse o
  write := by
    rintro m _ i _ rfl rfl a b
    exact .refl .same (fun _ => rfl) _

/-- Statements with renamed labels correspond to each other. -/
lemma RenamesStatement.sameStatement {s s' : Statement} (h : ρ.RenamesStatement s s') :
    ρ.correspondence.SameStatement s s' := by
  cases h with
  | org o => exact .org (.refl .same (fun _ => rfl) _)
  | segment o => exact .segment o o
  | byte h => exact .byte (rel_items h)
  | instruction op o => exact .instruction fun _ => rfl

/-- A text with its names replaced corresponds to it. That the label is a name follows from its
having been read. -/
lemma RenamesText.sameText {raw raw' : Text} (h : ρ.RenamesText raw raw') :
    ρ.correspondence.SameText raw raw' := by
  obtain ⟨content, content', hparse, hparse', hrel⟩ := h
  rw [Correspondence.SameText, hparse, hparse']
  refine .ok ?_
  cases hrel with
  | none => exact .none
  | @some l l' hl =>
    have hlabel : Option.Rel ρ.correspondence.name l.label l'.label := by
      rw [hl.label]
      cases hname : l.label with
      | none => exact .none
      | some name =>
        have hword := (Line.exists_render_of_parse hparse).1.label name hname
        exact .some ⟨IsName.of_isWord hword, rfl⟩
    refine .some ⟨hlabel, ?_⟩
    have hstatement := hl.statement
    generalize l.statement = s at hstatement ⊢
    generalize l'.statement = s' at hstatement ⊢
    cases hstatement with
    | none => exact .none
    | some hs => exact .some hs.sameStatement

/-- Tables that correspond are the same up to the renaming. -/
lemma map_name_of_sameSymbols {t t' : Symbols} (h : ρ.correspondence.SameSymbols t t') :
    t'.toList = t.toList.map fun s => { s with name := ρ.toFun s.name } := by
  unfold Correspondence.SameSymbols at h
  generalize t.toList = symbols at h ⊢
  generalize t'.toList = symbols' at h ⊢
  induction h with
  | nil => rfl
  | cons hs _ ih =>
    rw [List.map_cons, ← ih]
    congr 1
    exact Symbol.ext hs.name.2 hs.line.symm hs.address.symm

/-- **The names of labels carry no meaning.** Take a source all of whose lines can be read, and a
second one that is read as the first one with its names replaced, line by line. Either both
assemble, to the same image and with the same labels in the same order up to the renaming, or both
are rejected, on the same line with the same error up to the renaming. -/
theorem ofSource_of_renames (ρ : Renaming) {source source' : List Text}
    (h : List.Forall₂ ρ.RenamesText source source') :
    Except.Rel (fun d d' => d'.line = d.line ∧ ρ.RenamesError d.error d'.error)
      (fun a a' => a'.image = a.image ∧
        a'.symbols.toList = a.symbols.toList.map fun s => { s with name := ρ.toFun s.name })
      (Assembly.ofSource source) (Assembly.ofSource source') := by
  have hsame : List.Forall₂ ρ.correspondence.SameText source source' :=
    h.imp fun _ _ => RenamesText.sameText
  have hrel := Correspondence.rel_ofSource (k := ρ.correspondence) (fun _ => rfl) rfl hsame
  exact hrel.imp (fun _ _ hd => ⟨hd.line.symm, hd.error⟩)
    fun _ _ ha => ⟨ha.image.symm, map_name_of_sameSymbols ha.symbols⟩

/-- The renaming that puts one letter more in front of every name. -/
def extend (c : Char) (hc : c.isAlpha = true) : Renaming where
  toFun n := c :: n
  isName h := by
    refine ⟨⟨c, rfl, hc⟩, ?_⟩
    intro b hb
    rcases List.mem_cons.1 hb with rfl | hb
    · simp [Char.isAlphanum, hc]
    · exact h.2 b hb
  injective _ _ h := (List.cons.inj h).2

/-- One letter more in front of every name makes a mnemonic of one of them. There is a reference
in each direction, a name in a list, and an operand that nobody looks at. -/
theorem ofSource_renames_to_mnemonic :
    ∃ a a', Assembly.ofSource ["da: lda x".toList, [], " hlt da ; end".toList,
        "x: .byte da , $3,x".toList] = .ok a ∧
      Assembly.ofSource ["lda: LDA lx".toList, "  ; none".toList, "hlt lda".toList,
        "lx: .byte lda, $3, lx".toList] = .ok a' ∧
      a'.image = a.image ∧ a.symbols.toList = [⟨"da".toList, 0, 0⟩, ⟨"x".toList, 3, 2⟩] ∧
      a'.symbols.toList = [⟨"lda".toList, 0, 0⟩, ⟨"lx".toList, 3, 2⟩] := by
  have hrenames : List.Forall₂ (extend 'l' rfl).RenamesText
      ["da: lda x".toList, [], " hlt da ; end".toList, "x: .byte da , $3,x".toList]
      ["lda: LDA lx".toList, "  ; none".toList, "hlt lda".toList,
        "lx: .byte lda, $3, lx".toList] := by
    refine .cons ⟨_, _, rfl, rfl, .some ⟨rfl, .some (.instruction _ _)⟩⟩ <|
      .cons ⟨_, _, rfl, rfl, .none⟩ <|
      .cons ⟨_, _, rfl, rfl, .some ⟨rfl, .some (.instruction _ _)⟩⟩ <|
      .cons ⟨_, _, rfl, rfl, .some ⟨rfl, .some (.byte ?_)⟩⟩ .nil
    decide
  have h := ofSource_of_renames (extend 'l' rfl) hrenames
  have hok : Assembly.ofSource ["da: lda x".toList, [], " hlt da ; end".toList,
      "x: .byte da , $3,x".toList] =
      .ok ⟨⟨⟨[⟨"da".toList, 0, 0⟩, ⟨"x".toList, 3, 2⟩]⟩,
          [⟨0, .instruction .lda "x".toList⟩, ⟨2, .instruction .hlt "da".toList⟩,
            ⟨3, .directive .byte "da , $3,x".toList⟩]⟩,
        ⟨#v[0x12, 0xF0, 0, 3, 2, 0, 0, 0, 0, 0, 0, 0, 0, 0, 0, 0],
          #v[some 0, some 2, some 3, some 3, some 3, none, none, none, none, none, none, none,
            none, none, none, none]⟩⟩ := by
    decide +kernel
  rw [hok] at h
  generalize hrun : Assembly.ofSource ["lda: LDA lx".toList, "  ; none".toList, "hlt lda".toList,
    "lx: .byte lda, $3, lx".toList] = run at h
  cases h with
  | ok ha => exact ⟨_, _, hok, rfl, ha.1, rfl, ha.2⟩

end Renaming

end SapOne

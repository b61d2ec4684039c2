import SapOne.Proofs.Assembly.Concatenation
import SapOne.Proofs.Assembly.Simulation

set_option relaxedAutoImplicit false
set_option autoImplicit false

/-!
# Blocks in any order

A block of lines that begins by setting the location counter does not depend on what stands before
it. Two such blocks that write different addresses can be exchanged: the image, the addresses of
all labels and the line of text behind each cell stay the same.

## Main definitions

* `SapOne.Source.BeginsAtOrg` — a block whose first line with any content sets the location
  counter.
* `SapOne.Source.IsBlock` — the same, for lines that can be read: blank lines, or blank lines, a
  jump and anything behind it.
* `SapOne.Source.swapLine` — where a line goes when two blocks are exchanged.

## Main results

* `SapOne.Source.IsBlock.exists_advanceAll`, `SapOne.Encoder.exists_addAll_of_isBlock` — whether
  the passes get through a block does not depend on what was before it.
* `SapOne.Source.address?_append` — the labels of a block do not depend on what stands before it.
* `SapOne.Image.cell_of_shows_swap` — disjoint writes commute.
* `SapOne.Assembly.ofSource_swap_blocks` — independent blocks may be written in any order.
-/

namespace SapOne

/-! ## Jumps -/

/-- Only the directive for it moves the location counter to an address, and it emits nothing. -/
lemma Statement.exists_org_of_step {s : Statement} {address : Nat}
    (h : s.step = .ok (.jump address)) :
    ∃ operand, s = .directive .org operand := by
  match s with
  | .directive .org operand => exact ⟨operand, rfl⟩
  | .directive .segment operand => cases h
  | .directive .byte operand =>
    obtain ⟨items, -, h⟩ := Except.map_eq_ok_iff.1 h
    cases h
  | .instruction op operand => cases h

namespace Numbered

/-- Statements the first of which moves the location counter to an address. -/
def BeginsAt (address : Nat) (statements : List Numbered) : Prop :=
  ∃ s rest, statements = s :: rest ∧ s.statement.step = .ok (.jump address)

variable {address : Nat} {statements : List Numbered}

/-- On later lines statements begin at the same address. -/
lemma BeginsAt.map_shift (h : BeginsAt address statements) (n : Nat) :
    BeginsAt address (statements.map (shift n)) := by
  obtain ⟨s, rest, rfl, hs⟩ := h
  exact ⟨s.shift n, rest.map (shift n), rfl, hs⟩

/-- Statements that begin at an address end at the same place, wherever the location counter stood
before them. -/
lemma BeginsAt.advanceAll_eq (h : BeginsAt address statements) (counter counter' : Nat) :
    advanceAll counter statements = advanceAll counter' statements := by
  obtain ⟨s, rest, rfl, hs⟩ := h
  rw [advanceAll_cons, advanceAll_cons, Statement.advance, Statement.advance, hs]
  rfl

/-- The same holds for the location counter that knows no limit. -/
lemma BeginsAt.foldl_next_eq (h : BeginsAt address statements) (counter counter' : Nat) :
    statements.foldl (fun counter s => s.statement.next counter) counter =
      statements.foldl (fun counter s => s.statement.next counter) counter' := by
  obtain ⟨s, rest, rfl, hs⟩ := h
  rw [List.foldl_cons, List.foldl_cons, Statement.next, Statement.next, hs]

/-- Statements that begin at an address emit the same values at the same addresses, wherever the
location counter stood before them. -/
lemma BeginsAt.emissionsAll_eq (h : BeginsAt address statements) (t : Symbols)
    (counter counter' : Nat) :
    emissionsAll t counter statements = emissionsAll t counter' statements := by
  obtain ⟨s, rest, rfl, hs⟩ := h
  obtain ⟨operand, horg⟩ := Statement.exists_org_of_step hs
  have hemissions : ∀ c, s.emissions t c = .ok [] := by
    intro c
    rw [emissions, horg]
    rfl
  rw [emissionsAll, emissionsAll, hemissions, hemissions, Statement.advance, Statement.advance,
    hs]
  rfl

/-- Statements that begin at an address are encoded alike, wherever the location counter stood
before them. -/
lemma BeginsAt.addAll_eq (h : BeginsAt address statements) (t : Symbols) (e : Encoder)
    (counter : Nat) : e.addAll t statements = { e with counter }.addAll t statements := by
  obtain ⟨⟨line, s⟩, rest, rfl, hs⟩ := h
  obtain ⟨operand, rfl⟩ := Statement.exists_org_of_step hs
  have hadd : ∀ e : Encoder, e.add t ⟨line, .directive .org operand⟩ = .ok ⟨address, e.image⟩ := by
    intro e
    refine Encoder.add_eq_ok_iff.2 ⟨rfl, ?_⟩
    rw [Statement.advance, hs]
    rfl
  rw [Encoder.addAll_cons, Encoder.addAll_cons, hadd, hadd]

end Numbered

/-! ## Blocks -/

namespace Source

/-- The first line of a source that is not blank, if there is one, has no label and sets the
location counter. -/
def BeginsAtOrg (source : List Text) : Prop :=
  ∀ raw ∈ source.find? (fun raw => Line.parse raw ≠ .ok none),
    ∃ operand, Line.parse raw = .ok (some ⟨none, some (.directive .org operand)⟩)

/-- A block: blank lines, or blank lines, a jump without label and anything behind it. -/
inductive IsBlock : List Text → Prop
  | blank {source : List Text} (h : ∀ raw ∈ source, Line.parse raw = .ok none) : IsBlock source
  | jump {before rest : List Text} {raw : Text} {s : Statement} {address : Nat}
    (hblank : ∀ raw ∈ before, Line.parse raw = .ok none) (hlabel : label? raw = none)
    (hs : statement? raw = some s) (hstep : s.step = .ok (.jump address)) :
    IsBlock (before ++ raw :: rest)

/-- What a line says is what is read from it. -/
lemma content?_of_parse {raw : Text} {content : Option Line} (h : Line.parse raw = .ok content) :
    content? raw = content := by
  rw [content?, h]

/-- A blank line has no label. -/
lemma label?_of_blank {raw : Text} (h : Line.parse raw = .ok none) : label? raw = none := by
  rw [label?, content?_of_parse h]
  rfl

/-- Blank lines have no statements. -/
lemma statements_of_blank {source : List Text} (h : ∀ raw ∈ source, Line.parse raw = .ok none) :
    statements source = [] := by
  refine List.filterMap_eq_nil_iff.2 ?_
  rintro ⟨raw, line⟩ hmem
  have hraw := h raw (List.fst_mem_of_mem_zipIdx hmem)
  simp [statement?, content?_of_parse hraw]

/-- Behind blank lines the first statement is that of the first other line. -/
lemma statements_append_cons {before : List Text}
    (hblank : ∀ raw ∈ before, Line.parse raw = .ok none) {raw : Text} {s : Statement}
    (hs : statement? raw = some s) (rest : List Text) :
    ∃ later, statements (before ++ raw :: rest) = ⟨before.length, s⟩ :: later := by
  have hfirst : statements (before ++ [raw]) = [⟨before.length, s⟩] := by
    rw [statements_concat, statements_of_blank hblank, hs]
    rfl
  have hsplit : before ++ raw :: rest = (before ++ [raw]) ++ rest := by simp
  rw [hsplit, statements_append, hfirst]
  exact ⟨_, rfl⟩

/-- Lines that begin by setting the location counter are a block, if they can be read. -/
lemma BeginsAtOrg.isBlock {source : List Text} (h : BeginsAtOrg source) {counter next : Nat}
    (hnext : Numbered.advanceAll counter (statements source) = .ok next) : IsBlock source := by
  cases hfind : source.find? (fun raw => Line.parse raw ≠ .ok none) with
  | none =>
    refine .blank ?_
    intro raw hraw
    simpa using List.find?_eq_none.1 hfind raw hraw
  | some raw =>
    obtain ⟨operand, hraw⟩ := h raw hfind
    obtain ⟨-, before, rest, rfl, hbefore⟩ := List.find?_eq_some_iff_append.1 hfind
    have hblank : ∀ raw ∈ before, Line.parse raw = .ok none := by
      intro raw hraw
      simpa using hbefore raw hraw
    have hlabel : label? raw = none := by
      rw [label?, content?_of_parse hraw]
      rfl
    have hs : statement? raw = some (.directive .org operand) := by
      rw [statement?, content?_of_parse hraw]
      rfl
    obtain ⟨later, hlater⟩ := statements_append_cons hblank hs rest
    rw [hlater, Numbered.advanceAll_cons] at hnext
    obtain ⟨middle, hmiddle, -⟩ := Except.bind_eq_ok_iff.1 hnext
    -- the address can be read, because the location counter has got past the directive
    obtain ⟨step, hstep, -⟩ := Except.bind_eq_ok_iff.1 hmiddle
    obtain ⟨address, haddress, hjump⟩ := Except.map_eq_ok_iff.1 hstep
    exact .jump hblank hlabel hs (hstep.trans (by rw [hjump]))

namespace IsBlock

variable {source : List Text}

/-- The statements of a block set the location counter first, if there are any. -/
lemma statements_eq (h : IsBlock source) :
    statements source = [] ∨ ∃ address, Numbered.BeginsAt address (statements source) := by
  cases h with
  | blank h => exact Or.inl (statements_of_blank h)
  | @jump before rest raw s address hblank hlabel hs hstep =>
    obtain ⟨later, hlater⟩ := statements_append_cons hblank hs rest
    exact Or.inr ⟨address, _, later, hlater, hstep⟩

/-- Whether the location counter gets through a block does not depend on where it was before. -/
lemma exists_advanceAll (h : IsBlock source) {counter next : Nat}
    (hnext : Numbered.advanceAll counter (statements source) = .ok next) (counter' : Nat) :
    ∃ next', Numbered.advanceAll counter' (statements source) = .ok next' := by
  rcases h.statements_eq with hnil | ⟨address, hjump⟩
  · rw [hnil]
    exact ⟨counter', rfl⟩
  · exact ⟨next, (hjump.advanceAll_eq counter' counter).trans hnext⟩

/-- Every label of a block stands behind its jump. -/
lemma beginsAt_of_label (h : IsBlock source) {line : Nat} {name : Text}
    (hlabel : (line, name) ∈ labels source) :
    ∃ address, Numbered.BeginsAt address (statements (source.take line)) := by
  obtain ⟨text, htext, hname⟩ := mem_labels_iff.1 hlabel
  have hsome : label? text ≠ none := by rw [hname]; simp
  cases h with
  | blank h => exact absurd (label?_of_blank (h text (List.mem_of_getElem? htext))) hsome
  | @jump before rest raw s address hblank hraw hs hstep =>
    have hbehind : before.length < line := by
      by_contra hle
      rcases Nat.lt_or_ge line before.length with hlt | hge
      · rw [List.getElem?_append_left hlt] at htext
        exact hsome (label?_of_blank (hblank text (List.mem_of_getElem? htext)))
      · obtain rfl : line = before.length := by omega
        rw [List.getElem?_append_right (Nat.le_refl _), Nat.sub_self] at htext
        cases htext
        exact hsome hraw
    obtain ⟨n, rfl⟩ : ∃ n, line = before.length + (n + 1) :=
      ⟨line - before.length - 1, by omega⟩
    rw [List.take_length_add_append, List.take_succ_cons]
    obtain ⟨later, hlater⟩ := statements_append_cons hblank hs (rest.take n)
    exact ⟨address, _, later, hlater, hstep⟩

end IsBlock

/-- **The labels of a block** do not depend on what stands before it. -/
lemma address?_append (a : List Text) {b : List Text} (hb : IsBlock b) (name : Text) :
    address? (a ++ b) name = (address? a name).or (address? b name) := by
  unfold address?
  rw [labelLine?_append]
  cases ha : labelLine? a name with
  | some line =>
    have hlt := lt_of_labelLine?_eq_some ha
    simp [List.take_append_of_le_length (Nat.le_of_lt hlt)]
  | none =>
    cases hline : labelLine? b name with
    | none => rfl
    | some line =>
      obtain ⟨label, hlabel, rfl⟩ := Option.map_eq_some_iff.1 hline
      obtain ⟨address, hjump⟩ := hb.beginsAt_of_label (List.mem_of_find?_eq_some hlabel)
      have htake : (a ++ b).take (label.1 + a.length) = a ++ b.take label.1 := by
        rw [Nat.add_comm, List.take_length_add_append]
      simp only [Option.map_some, Option.none_or, Option.map_none, htake]
      rw [statements_append, Numbered.locate_append_map_shift, hjump.foldl_next_eq _ 0]
      rfl

end Source

/-! ## The second pass -/

/-- Tables with the same addresses give operands the same values. -/
lemma Symbols.evaluate_congr {t t' : Symbols} (ht : ∀ name, t.address? name = t'.address? name)
    (text : Text) : t.evaluate text = t'.evaluate text := by
  rw [evaluate, evaluate]
  congr 1
  funext operand
  cases operand with
  | literal value => rfl
  | symbol name => rw [Operand.resolve, Operand.resolve, resolve, resolve, ht]

namespace Encoder

/-- Runs over the same statements, on any lines and over any images. -/
def sameStatements : Correspondence where
  name := Eq
  line _ _ := True
  operand := Eq
  error _ _ := True
  image _ _ := True
  name_eq_iff := by
    rintro m _ n _ rfl rfl
    rfl
  redefinedLabel _ _ := trivial
  undefinedLabel _ := trivial
  addressOutOfRange _ := trivial
  operandOutOfRange _ _ := trivial
  byteOutOfRange _ _ := trivial
  parse := by
    rintro o _ rfl
    refine .refl (fun _ => trivial) ?_ _
    intro p
    cases p with
    | literal value => exact .literal value
    | symbol n => exact .symbol rfl
  write := by
    rintro m m' i i' - - a b
    by_cases h : a < memorySize
    · rw [Image.write_of_lt m h, Image.write_of_lt m' h]
      exact .ok trivial
    · have hle := Nat.le_of_not_lt h
      rw [Image.write_eq_error_iff.2 ⟨hle, rfl⟩, Image.write_eq_error_iff.2 ⟨hle, rfl⟩]
      exact .error trivial

/-- Whether the second pass goes through depends neither on the lines of the statements nor on the
image before it. -/
lemma exists_addAll_of_counter_eq {t t' : Symbols}
    (ht : ∀ name, t.address? name = t'.address? name) {e e' f : Encoder}
    (hcounter : e.counter = f.counter) {statements statements' : List Numbered}
    (hs : List.Forall₂ (fun s s' => s.statement = s'.statement) statements statements')
    (h : e.addAll t statements = .ok e') : ∃ f', f.addAll t' statements' = .ok f' := by
  have hagree : sameStatements.Agree t t' := by
    rintro n _ rfl
    exact ht n
  have hsame : List.Forall₂ sameStatements.SameNumbered statements statements' := by
    refine hs.imp ?_
    intro s s' hs
    refine ⟨trivial, ?_⟩
    rw [hs]
    exact .refl (fun _ => trivial) (fun _ => rfl) _
  have hrel := Correspondence.rel_addAll hagree (e := e) ⟨hcounter, trivial⟩ hsame
  rw [h] at hrel
  generalize f.addAll t' statements' = run at hrel ⊢
  cases hrel with
  | @ok _ f' _ => exact ⟨f', rfl⟩

/-- **The second pass over a block** goes through from any state if it does from one. -/
lemma exists_addAll_of_isBlock {t t' : Symbols}
    (ht : ∀ name, t.address? name = t'.address? name) {statements statements' : List Numbered}
    (hblock : statements = [] ∨ ∃ address, Numbered.BeginsAt address statements)
    (hs : List.Forall₂ (fun s s' => s.statement = s'.statement) statements statements')
    {e e' : Encoder} (h : e.addAll t statements = .ok e') (f : Encoder) :
    ∃ f', f.addAll t' statements' = .ok f' := by
  rcases hblock with rfl | ⟨address, hjump⟩
  · cases hs
    exact ⟨f, rfl⟩
  · have hcounter : ({ e with counter := f.counter } : Encoder).counter = f.counter := rfl
    rw [hjump.addAll_eq t e f.counter] at h
    exact exists_addAll_of_counter_eq ht hcounter hs h

/-- Shifting lines leaves the statements themselves alone. -/
lemma forall₂_statement_map_shift (n : Nat) (statements : List Numbered) :
    List.Forall₂ (fun s s' => s.statement = s'.statement) statements
      (statements.map (Numbered.shift n)) := by
  rw [List.forall₂_map_right_iff]
  exact List.forall₂_same.2 fun _ _ => rfl

end Encoder

/-! ## Exchanging two blocks -/

namespace Source

/-- Where a line goes when a source `a` and a source `b` behind it are exchanged. -/
def swapLine (a b : List Text) (line : Nat) : Nat :=
  if line < a.length then line + b.length else line - a.length

/-- Where a line goes when the blocks change places, there its text is found again. -/
lemma getElem?_swapLine {a b : List Text} {line : Nat} (h : line < (a ++ b).length) :
    (b ++ a)[swapLine a b line]? = (a ++ b)[line]? := by
  rw [List.length_append] at h
  unfold swapLine
  by_cases hline : line < a.length
  · rw [if_pos hline, List.getElem?_append_left hline, List.getElem?_append_right (by omega)]
    congr 1
    omega
  · have hle : a.length ≤ line := Nat.le_of_not_lt hline
    have hlt : line - a.length < b.length := by omega
    rw [if_neg hline, List.getElem?_append_left hlt, List.getElem?_append_right hle]

/-- A name that has an address is a label of the source. -/
lemma mem_labels_of_address?_eq_some {source : List Text} {name : Text} {address : Nat}
    (h : address? source name = some address) : name ∈ (labels source).map Prod.snd := by
  obtain ⟨line, hline, -⟩ := Option.map_eq_some_iff.1 h
  obtain ⟨label, hlabel, -⟩ := Option.map_eq_some_iff.1 hline
  have hname : label.2 = name := by simpa using List.find?_some hlabel
  exact List.mem_map.2 ⟨label, List.mem_of_find?_eq_some hlabel, hname⟩

/-- The labels of two sources are those of the first one and then those of the second one. -/
lemma map_snd_labels_append (a b : List Text) :
    (labels (a ++ b)).map Prod.snd = (labels a).map Prod.snd ++ (labels b).map Prod.snd := by
  simp [labels_append, Function.comp_def]

variable {a b : List Text}

/-- No label changes its address. -/
lemma address?_swap (ha : IsBlock a) (hb : IsBlock b)
    (hnodup : ((labels (a ++ b)).map Prod.snd).Nodup) (name : Text) :
    address? (b ++ a) name = address? (a ++ b) name := by
  rw [address?_append a hb, address?_append b ha]
  cases hx : address? a name with
  | none => simp
  | some x =>
    cases hy : address? b name with
    | none => simp
    | some y =>
      rw [map_snd_labels_append, List.nodup_append] at hnodup
      exact absurd rfl (hnodup.2.2 name (mem_labels_of_address?_eq_some hx) name
        (mem_labels_of_address?_eq_some hy))

/-- The first pass goes through in both orders. -/
lemma exists_addLines_swap (ha : IsBlock a) (hb : IsBlock b)
    (h : ∃ l, Layout.start.addLines (a ++ b) 0 = .ok l) :
    ∃ l, Layout.start.addLines (b ++ a) 0 = .ok l := by
  rw [Layout.exists_addLines_iff] at h ⊢
  obtain ⟨hread, hnodup, counter, hcounter⟩ := h
  refine ⟨?_, ?_, ?_⟩
  · intro raw hraw
    exact hread raw (List.mem_append.2 (List.mem_append.1 hraw).symm)
  · rw [map_snd_labels_append] at hnodup ⊢
    exact List.perm_append_comm.nodup_iff.1 hnodup
  · rw [statements_append, Numbered.advanceAll_append, Except.bind_eq_ok_iff] at hcounter
    obtain ⟨middle, hmiddle, hcounter⟩ := hcounter
    rw [Numbered.advanceAll_map_shift] at hcounter
    obtain ⟨first, hfirst⟩ := hb.exists_advanceAll hcounter 0
    obtain ⟨last, hlast⟩ := ha.exists_advanceAll hmiddle first
    refine ⟨last, ?_⟩
    rw [statements_append, Numbered.advanceAll_append, Except.bind_eq_ok_iff]
    exact ⟨first, hfirst, by rw [Numbered.advanceAll_map_shift, hlast]⟩

/-- The second pass goes through in both orders, with any tables that have the same addresses. -/
lemma exists_addAll_swap {t t' : Symbols} (ht : ∀ name, t.address? name = t'.address? name)
    (ha : IsBlock a) (hb : IsBlock b) {e : Encoder}
    (h : Encoder.start.addAll t (statements (a ++ b)) = .ok e) :
    ∃ e', Encoder.start.addAll t' (statements (b ++ a)) = .ok e' := by
  rw [statements_append, Encoder.addAll_append, Except.bind_eq_ok_iff] at h
  obtain ⟨middle, hmiddle, hlast⟩ := h
  have hb' : (statements b).map (Numbered.shift a.length) = [] ∨
      ∃ address, Numbered.BeginsAt address ((statements b).map (Numbered.shift a.length)) := by
    rcases hb.statements_eq with hnil | ⟨address, hjump⟩
    · exact Or.inl (by rw [hnil]; rfl)
    · exact Or.inr ⟨address, hjump.map_shift a.length⟩
  have hback := (Encoder.forall₂_statement_map_shift a.length (statements b)).flip.imp
    fun _ _ h => Eq.symm h
  obtain ⟨f, hf⟩ := Encoder.exists_addAll_of_isBlock ht hb' hback hlast Encoder.start
  obtain ⟨f', hf'⟩ := Encoder.exists_addAll_of_isBlock ht ha.statements_eq
    (Encoder.forall₂_statement_map_shift b.length (statements a)) hmiddle f
  refine ⟨f', ?_⟩
  rw [statements_append, Encoder.addAll_append, Except.bind_eq_ok_iff]
  exact ⟨f, hf, hf'⟩

/-- The emissions of two blocks are those of each of them, in either order. -/
lemma emissionsAll_of_isBlock {t : Symbols} (hb : IsBlock b) {all : List Emission}
    (h : Numbered.emissionsAll t 0 (statements (a ++ b)) = .ok all) :
    ∃ first later, Numbered.emissionsAll t 0 (statements a) = .ok first ∧
      Numbered.emissionsAll t 0 (statements b) = .ok later ∧
      all = first ++ later.map (Emission.shift a.length) := by
  rw [statements_append, Numbered.emissionsAll_append_eq_ok_iff] at h
  obtain ⟨first, next, shifted, hfirst, -, hlater, rfl⟩ := h
  rw [Numbered.emissionsAll_map_shift, Except.map_eq_ok_iff] at hlater
  obtain ⟨later, hlater, rfl⟩ := hlater
  refine ⟨first, later, hfirst, ?_, rfl⟩
  rcases hb.statements_eq with hnil | ⟨address, hjump⟩
  · rw [hnil] at hlater ⊢
    exact hlater
  · rw [hjump.emissionsAll_eq t 0 next, hlater]

end Source

/-- **Disjoint writes commute.** Two images that show the emissions of two sources in either order
have the same bytes, each from the line to which its line goes. -/
lemma Image.cell_of_shows_swap {a b : List Text} {m m' : Image} {first later : List Emission}
    (hm : m.Shows (first ++ later.map (Emission.shift a.length)))
    (hm' : m'.Shows (later ++ first.map (Emission.shift b.length)))
    (hline : ∀ e ∈ first, e.line < a.length)
    (hdisjoint : ∀ e ∈ first, ∀ e' ∈ later, e.address ≠ e'.address) (address : Nat) :
    m'.byteAt address = m.byteAt address ∧
      m'.lineAt address = (m.lineAt address).map (Source.swapLine a b) := by
  rw [hm.byteAt_eq, hm.lineAt_eq, hm'.byteAt_eq, hm'.lineAt_eq, Emission.lastAt_append,
    Emission.lastAt_append, Emission.lastAt_map_shift, Emission.lastAt_map_shift]
  cases hfirst : Emission.lastAt first address with
  | none =>
    cases Emission.lastAt later address with
    | none => exact ⟨rfl, rfl⟩
    | some e =>
      have hge : ¬ e.line + a.length < a.length := by omega
      simp [Emission.shift, Source.swapLine, hge]
  | some e =>
    obtain ⟨hmem, haddress⟩ := Emission.mem_of_lastAt_eq_some hfirst
    cases hlater : Emission.lastAt later address with
    | none => simp [Emission.shift, Source.swapLine, hline e hmem]
    | some e' =>
      obtain ⟨hmem', haddress'⟩ := Emission.mem_of_lastAt_eq_some hlater
      exact absurd (haddress.trans haddress'.symm) (hdisjoint e hmem e' hmem')

namespace Assembly

variable {source : List Text} {p : Assembly}

/-- A source that assembles has gone through the first pass, whose last state describes it. -/
lemma exists_describes (h : ofSource source = .ok p) :
    ∃ l, Layout.start.addLines source 0 = .ok l ∧ l.Describes source ∧
      l.toProgram = p.toProgram := by
  obtain ⟨l, hl, hprogram⟩ := Except.map_eq_ok_iff.1 (ofSource_eq_ok_iff.1 h).1
  exact ⟨l, hl, Layout.describes_of_addLines hl, hprogram⟩

/-- The statements of an assembled program are those of its source. -/
lemma statements_eq (h : ofSource source = .ok p) : p.statements = Source.statements source := by
  obtain ⟨l, -, hdesc, hprogram⟩ := exists_describes h
  rw [← hprogram, hdesc.statements_eq]

/-- The addresses of an assembled program are those of its source. -/
lemma address?_eq (h : ofSource source = .ok p) (name : Text) :
    p.symbols.address? name = Source.address? source name := by
  obtain ⟨l, -, hdesc, hprogram⟩ := exists_describes h
  rw [← hprogram, hdesc.address?_eq]

/-- The image shows what the statements of the source emit. -/
lemma exists_shows (h : ofSource source = .ok p) :
    ∃ all, Numbered.emissionsAll p.symbols 0 (Source.statements source) = .ok all ∧
      p.image.Shows all := by
  obtain ⟨e, he, himage⟩ := Except.map_eq_ok_iff.1 (ofSource_eq_ok_iff.1 h).2
  obtain ⟨all, hall, hshows⟩ := Encoder.shows_of_addAll Image.shows_empty he
  rw [himage, List.nil_append] at hshows
  rw [statements_eq h] at hall
  exact ⟨all, hall, hshows⟩

/-- Every cell was written by a line of the source. -/
lemma lt_of_lineAt_eq_some (h : ofSource source = .ok p) {address line : Nat}
    (hline : p.image.lineAt address = some line) : line < source.length := by
  obtain ⟨all, hall, hshows⟩ := exists_shows h
  rw [hshows.lineAt_eq] at hline
  obtain ⟨e, he, rfl⟩ := Option.map_eq_some_iff.1 hline
  obtain ⟨s, hs, hse⟩ :=
    Numbered.exists_line_of_mem_emissionsAll hall (Emission.mem_of_lastAt_eq_some he).1
  have hlt := Source.line_lt_of_mem_statements hs
  rw [← hse] at hlt
  exact hlt

/-- Lines that begin by setting the location counter are blocks, if they assemble. -/
lemma isBlock_of_ofSource {a b : List Text} (ha : Source.BeginsAtOrg a)
    (hb : Source.BeginsAtOrg b) (h : ofSource (a ++ b) = .ok p) :
    Source.IsBlock a ∧ Source.IsBlock b := by
  obtain ⟨l, -, hdesc, -⟩ := exists_describes h
  have hcounter := hdesc.counter_eq
  rw [Source.statements_append, Numbered.advanceAll_append, Except.bind_eq_ok_iff] at hcounter
  obtain ⟨middle, hmiddle, hlast⟩ := hcounter
  rw [Numbered.advanceAll_map_shift] at hlast
  exact ⟨ha.isBlock hmiddle, hb.isBlock hlast⟩

/-- Two blocks assemble in both orders, with the same addresses. -/
lemma exists_ofSource_swap {a b : List Text} (ha : Source.IsBlock a) (hb : Source.IsBlock b)
    (h : ofSource (a ++ b) = .ok p) :
    ∃ p', ofSource (b ++ a) = .ok p' ∧
      ∀ name, p'.symbols.address? name = p.symbols.address? name := by
  obtain ⟨l, hl, hdesc, hprogram⟩ := exists_describes h
  obtain ⟨-, hnodup, -⟩ := Layout.exists_addLines_iff.1 ⟨l, hl⟩
  obtain ⟨l', hl'⟩ := Source.exists_addLines_swap ha hb ⟨l, hl⟩
  have hdesc' := Layout.describes_of_addLines hl'
  have haddress : ∀ name, p.symbols.address? name = l'.symbols.address? name := by
    intro name
    rw [address?_eq h, hdesc'.address?_eq, Source.address?_swap ha hb hnodup]
  obtain ⟨e, he, -⟩ := Except.map_eq_ok_iff.1 (ofSource_eq_ok_iff.1 h).2
  rw [statements_eq h] at he
  obtain ⟨e', he'⟩ := Source.exists_addAll_swap haddress ha hb he
  rw [← hdesc'.statements_eq] at he'
  refine ⟨⟨l'.toProgram, e'.image⟩, ofSource_eq_ok_iff.2 ⟨?_, ?_⟩, fun name => ?_⟩
  · exact Except.map_eq_ok_iff.2 ⟨l', hl', rfl⟩
  · exact Except.map_eq_ok_iff.2 ⟨e', he', rfl⟩
  · exact (haddress name).symm

/-- Two blocks emit the same in both orders, but for the order. -/
lemma exists_shows_swap {a b : List Text} (ha : Source.IsBlock a) (hb : Source.IsBlock b)
    {p' : Assembly} (h : ofSource (a ++ b) = .ok p) (h' : ofSource (b ++ a) = .ok p')
    (haddress : ∀ name, p'.symbols.address? name = p.symbols.address? name) :
    ∃ first later, (∀ e ∈ first, e.line < a.length) ∧
      Numbered.emissionsAll p.symbols 0 p.statements =
        .ok (first ++ later.map (Emission.shift a.length)) ∧
      p.image.Shows (first ++ later.map (Emission.shift a.length)) ∧
      p'.image.Shows (later ++ first.map (Emission.shift b.length)) := by
  obtain ⟨all, hall, hshows⟩ := exists_shows h
  obtain ⟨all', hall', hshows'⟩ := exists_shows h'
  rw [Numbered.emissionsAll_congr (Symbols.evaluate_congr haddress)] at hall'
  obtain ⟨first, later, hfirst, hlater, rfl⟩ := Source.emissionsAll_of_isBlock hb hall
  obtain ⟨later', first', hlater', hfirst', rfl⟩ := Source.emissionsAll_of_isBlock ha hall'
  rw [hfirst] at hfirst'
  rw [hlater] at hlater'
  cases hfirst'
  cases hlater'
  refine ⟨first, later, ?_, by rw [statements_eq h, hall], hshows, hshows'⟩
  intro e he
  obtain ⟨s, hs, hse⟩ := Numbered.exists_line_of_mem_emissionsAll hfirst he
  rw [hse]
  exact Source.line_lt_of_mem_statements hs

/-- **Independent blocks may be written in any order.** Take two blocks of lines, each of which
begins by setting the location counter. If they assemble one behind the other, and if no address
is written by a statement of both, then they assemble in the other order, too: to the same bytes,
with every label at the same address, and with every cell written by the same line of text,
wherever that has gone.

**Proof sketch.** The location counter in a block depends on nothing before it, so that both
passes go through in the other order and all labels keep their addresses. What the blocks emit is
then the same but for the order of the blocks, and disjoint writes commute. -/
theorem ofSource_swap_blocks {a b : List Text} (ha : Source.BeginsAtOrg a)
    (hb : Source.BeginsAtOrg b) {p : Assembly} (h : ofSource (a ++ b) = .ok p)
    {emissions : List Emission}
    (hemissions : Numbered.emissionsAll p.symbols 0 p.statements = .ok emissions)
    (hdisjoint : ∀ e ∈ emissions, ∀ e' ∈ emissions, e.line < a.length → a.length ≤ e'.line →
      e.address ≠ e'.address) :
    ∃ p', ofSource (b ++ a) = .ok p' ∧ p'.image.bytes = p.image.bytes ∧
      (∀ name, p'.symbols.address? name = p.symbols.address? name) ∧
      ∀ address,
        p'.image.lineAt address = (p.image.lineAt address).map (Source.swapLine a b) ∧
        ∀ line, p.image.lineAt address = some line →
          ∃ text, (a ++ b)[line]? = some text ∧
            (b ++ a)[Source.swapLine a b line]? = some text := by
  obtain ⟨ha, hb⟩ := isBlock_of_ofSource ha hb h
  obtain ⟨p', hp', haddress⟩ := exists_ofSource_swap ha hb h
  obtain ⟨first, later, hline, hall, hshows, hshows'⟩ := exists_shows_swap ha hb h hp' haddress
  rw [hall] at hemissions
  cases hemissions
  have hapart : ∀ e ∈ first, ∀ e' ∈ later, e.address ≠ e'.address := by
    intro e he e' he'
    exact hdisjoint e (List.mem_append_left _ he) (e'.shift a.length)
      (List.mem_append_right _ (List.mem_map_of_mem he')) (hline e he) (Nat.le_add_left _ _)
  have hcell := Image.cell_of_shows_swap hshows hshows' hline hapart
  refine ⟨p', hp', ?_, haddress, fun address => ⟨(hcell address).2, ?_⟩⟩
  · exact Image.bytes_congr fun address => (hcell address).1
  · intro line hwritten
    have hlt := lt_of_lineAt_eq_some h hwritten
    refine ⟨_, List.getElem?_eq_getElem hlt, ?_⟩
    rw [Source.getElem?_swapLine hlt, List.getElem?_eq_getElem hlt]

/-- Two blocks that refer to each other, behind blank lines and with the later addresses first. -/
theorem ofSource_swap_crossing_blocks :
    ∃ p p', ofSource (["; high".toList, ".ORG 9".toList, "top: jmp low".toList] ++
        [".org 2".toList, "low: .byte top, 5".toList]) = .ok p ∧
      ofSource ([".org 2".toList, "low: .byte top, 5".toList] ++
        ["; high".toList, ".ORG 9".toList, "top: jmp low".toList]) = .ok p' ∧
      p'.image.bytes = p.image.bytes ∧ p.image.lineAt 3 = some 4 ∧ p'.image.lineAt 3 = some 1 := by
  have h : ofSource (["; high".toList, ".ORG 9".toList, "top: jmp low".toList] ++
      [".org 2".toList, "low: .byte top, 5".toList]) =
      .ok ⟨⟨⟨[⟨"top".toList, 2, 9⟩, ⟨"low".toList, 4, 2⟩]⟩,
          [⟨1, .directive .org "9".toList⟩, ⟨2, .instruction .jmp "low".toList⟩,
            ⟨3, .directive .org "2".toList⟩, ⟨4, .directive .byte "top, 5".toList⟩]⟩,
        ⟨#v[0, 0, 9, 5, 0, 0, 0, 0, 0, 0x62, 0, 0, 0, 0, 0, 0],
          #v[none, none, some 4, some 4, none, none, none, none, none, some 2, none, none, none,
            none, none, none]⟩⟩ := by
    decide +kernel
  have ha : Source.BeginsAtOrg ["; high".toList, ".ORG 9".toList, "top: jmp low".toList] := by
    rintro raw hraw
    obtain rfl : ".ORG 9".toList = raw := Option.some.inj hraw
    exact ⟨"9".toList, rfl⟩
  have hb : Source.BeginsAtOrg [".org 2".toList, "low: .byte top, 5".toList] := by
    rintro raw hraw
    obtain rfl : ".org 2".toList = raw := Option.some.inj hraw
    exact ⟨"2".toList, rfl⟩
  have hemissions : Numbered.emissionsAll
      ⟨[⟨"top".toList, 2, 9⟩, ⟨"low".toList, 4, 2⟩]⟩ 0
      [⟨1, .directive .org "9".toList⟩, ⟨2, .instruction .jmp "low".toList⟩,
        ⟨3, .directive .org "2".toList⟩, ⟨4, .directive .byte "top, 5".toList⟩] =
      .ok [⟨9, 0x62, 2⟩, ⟨2, 9, 4⟩, ⟨3, 5, 4⟩] := by
    decide +kernel
  obtain ⟨p', hp', hbytes, -, hlines⟩ := ofSource_swap_blocks ha hb h hemissions (by decide)
  refine ⟨_, p', h, hp', hbytes, by decide +kernel, ?_⟩
  rw [(hlines 3).1]
  decide +kernel

end Assembly

end SapOne

import SapOne.Proofs.Assembly.Layout

set_option relaxedAutoImplicit false
set_option autoImplicit false

/-!
# Reading further

The first pass reads a source line by line, and all it ever does is to add: a label or a statement
that was found stays where it is, whatever follows. An error ends the pass at once, so that it does
not depend on the lines below it either.

## Main definitions

* `SapOne.Program.Extends` — a program that begins with all that another one has.

## Main results

* `SapOne.Layout.extends_of_addLine`, `SapOne.Layout.extends_of_addLines` — a line and a run of the
  first pass only add to what was found.
* `SapOne.Layout.exists_line_of_addLines_eq_error` — an error belongs to one line, and all lines
  above it were read.
* `SapOne.Program.ofSource_only_extends` — lines that follow change nothing above them.
-/

namespace SapOne

/-! ## Programs that go on -/

/-- The program `q` begins with all labels and statements of `p`, in the same order. -/
structure Program.Extends (q p : Program) : Prop where
  symbols : p.symbols.toList <+: q.symbols.toList
  statements : p.statements <+: q.statements

namespace Program.Extends

variable {p q r : Program}

/-- Every program extends itself. -/
lemma refl (p : Program) : p.Extends p := ⟨List.prefix_rfl, List.prefix_rfl⟩

/-- An extension of an extension is an extension. -/
lemma trans (hr : r.Extends q) (hq : q.Extends p) : r.Extends p :=
  ⟨hq.symbols.trans hr.symbols, hq.statements.trans hr.statements⟩

/-- A name that is bound keeps its line and its address. -/
lemma find?_eq_some (h : q.Extends p) {name : Text} {s : Symbol}
    (hs : p.symbols.find? name = some s) : q.symbols.find? name = some s :=
  Symbols.find?_of_isPrefix h.symbols hs

end Program.Extends

/-! ## One line and many -/

namespace Layout

/-- **One more line** only adds to what was found. -/
theorem extends_of_addLine {l m : Layout} {line : Nat} {raw : Text}
    (h : l.addLine line raw = .ok m) : m.toProgram.Extends l.toProgram := by
  rw [addLine_eq] at h
  obtain ⟨_, -, h⟩ := Except.bind_eq_ok_iff.1 h
  obtain ⟨k, hlabel, hstatement⟩ := Except.bind_eq_ok_iff.1 h
  obtain ⟨hstatements, -, hsymbols, -⟩ := addLabel_eq_ok hlabel
  obtain ⟨hsame, hmore, -⟩ := addStatement_eq_ok hstatement
  constructor
  · rw [hsame, hsymbols]
    apply List.prefix_append
  · rw [hmore, hstatements]
    apply List.prefix_append

/-- **A run of the first pass** only adds to what was found. -/
theorem extends_of_addLines {l m : Layout} {source : List Text} {first : Nat}
    (h : l.addLines source first = .ok m) : m.toProgram.Extends l.toProgram := by
  induction source generalizing l first with
  | nil =>
    cases h
    exact .refl _
  | cons raw source ih =>
    rw [addLines_cons, Except.bind_eq_ok_iff] at h
    obtain ⟨k, hk, hrest⟩ := h
    exact (ih hrest).trans (extends_of_addLine (atLine_eq_ok_iff.1 hk))

/-- **An error belongs to one line**: the lines above it were read, and it is this line that cannot
be added to them. -/
theorem exists_line_of_addLines_eq_error {l : Layout} {source : List Text} {first : Nat}
    {d : Diagnostic} (h : l.addLines source first = .error d) :
    ∃ before raw after m, source = before ++ raw :: after ∧ d.line = first + before.length ∧
      l.addLines before first = .ok m ∧ m.addLine d.line raw = .error d.error := by
  induction source generalizing l first with
  | nil => cases h
  | cons raw source ih =>
    rw [addLines_cons] at h
    cases hline : l.addLine first raw with
    | error e =>
      rw [hline] at h
      cases h
      exact ⟨[], raw, source, l, rfl, rfl, rfl, hline⟩
    | ok m =>
      rw [hline] at h
      obtain ⟨before, bad, after, k, rfl, hd, hk, hbad⟩ := ih h
      refine ⟨raw :: before, bad, after, k, rfl, ?_, ?_, hbad⟩
      · simp only [List.length_cons]
        omega
      · rw [addLines_cons, hline]
        exact hk

end Layout

/-! ## The whole first pass -/

namespace Program

/-- The first lines of a source that cannot be read: those above the reported line can, and
together with that line they are rejected in the same way as all. -/
lemma ofSource_take_of_error {source : List Text} {d : Diagnostic}
    (h : ofSource source = .error d) :
    ofSource (source.take (d.line + 1)) = .error d ∧
      ∀ n ≤ d.line, ∃ p, ofSource (source.take n) = .ok p := by
  obtain ⟨before, raw, after, m, rfl, hd, hm, hbad⟩ :=
    Layout.exists_line_of_addLines_eq_error (Except.map_eq_error_iff.1 h)
  rw [Nat.zero_add] at hd
  constructor
  · have htake : (before ++ raw :: after).take (d.line + 1) = before ++ [raw] := by
      rw [hd, List.take_length_add_append]
      rfl
    rw [htake, ofSource, Except.map_eq_error_iff, Layout.addLines_append, hm, Nat.zero_add, ← hd]
    show (atLine d.line (m.addLine d.line raw) >>= _) = _
    rw [hbad]
    rfl
  · intro n hn
    have htake : (before ++ raw :: after).take n = before.take n :=
      List.take_append_of_le_length (by omega)
    obtain ⟨k, hk⟩ := Layout.exists_addLines_take hm n
    rw [htake, ofSource, hk]
    exact ⟨k.toProgram, rfl⟩

/-- **Reading only ever extends.** An error in the lines `a` is the error of `a ++ b`, whatever the
lines `b` are. If both can be read, then the labels and statements of `a` are the first ones of
`a ++ b`, and every name that `a` binds keeps its line and its address. If only `a` can be read,
then the error is on a line of `b`. The reported line is the first one up to which the source
cannot be read. -/
theorem ofSource_only_extends (a b : List Text) :
    (∀ d, ofSource a = .error d → ofSource (a ++ b) = .error d) ∧
    (∀ p q, ofSource a = .ok p → ofSource (a ++ b) = .ok q →
      q.Extends p ∧ ∀ name s, p.symbols.find? name = some s → q.symbols.find? name = some s) ∧
    (∀ p d, ofSource a = .ok p → ofSource (a ++ b) = .error d →
      a.length ≤ d.line ∧ d.line < a.length + b.length) ∧
    ∀ d, ofSource a = .error d → ofSource (a.take (d.line + 1)) = .error d ∧
      ∀ n ≤ d.line, ∃ p, ofSource (a.take n) = .ok p := by
  refine ⟨?_, ?_, ?_, fun d => ofSource_take_of_error⟩
  · intro d h
    rw [ofSource, Except.map_eq_error_iff] at h ⊢
    rw [Layout.addLines_append, h]
    rfl
  · intro p q hp hq
    obtain ⟨l, hl, rfl⟩ := Except.map_eq_ok_iff.1 hp
    obtain ⟨m, hm, rfl⟩ := Except.map_eq_ok_iff.1 hq
    rw [Layout.addLines_append, hl] at hm
    have hextends := Layout.extends_of_addLines hm
    exact ⟨hextends, fun name s => hextends.find?_eq_some⟩
  · intro p d hp hd
    obtain ⟨l, hl, rfl⟩ := Except.map_eq_ok_iff.1 hp
    rw [ofSource, Except.map_eq_error_iff, Layout.addLines_append, hl] at hd
    obtain ⟨before, raw, after, m, rfl, hline, -, -⟩ := Layout.exists_line_of_addLines_eq_error hd
    simp only [List.length_append, List.length_cons]
    omega

/-- A source that goes on behind its first two lines and then binds a label a second time, with a
line below that cannot be read on its own. -/
theorem ofSource_only_extends_to_redefinition :
    ∃ p q, ofSource ["x: lda y".toList, ".org 9".toList] = .ok p ∧
      ofSource (["x: lda y".toList, ".org 9".toList] ++ [[], "y: hlt".toList]) = .ok q ∧
      q.Extends p ∧ p.symbols.find? "x".toList = some ⟨"x".toList, 0, 0⟩ ∧
      q.symbols.find? "x".toList = some ⟨"x".toList, 0, 0⟩ ∧
      ofSource (["x: lda y".toList, ".org 9".toList] ++ [[], "x: hlt".toList, "?".toList]) =
        .error ⟨3, .redefinedLabel "x".toList 0⟩ ∧
      (2 ≤ 3 ∧ 3 < 2 + 3) ∧ ∀ n ≤ 3, ∃ r, ofSource (["x: lda y".toList, ".org 9".toList, [],
        "x: hlt".toList, "?".toList].take n) = .ok r := by
  have hp : ofSource ["x: lda y".toList, ".org 9".toList] =
      .ok ⟨⟨[⟨"x".toList, 0, 0⟩]⟩, [⟨0, .instruction .lda "y".toList⟩,
        ⟨1, .directive .org "9".toList⟩]⟩ := by
    decide +kernel
  have hq : ofSource (["x: lda y".toList, ".org 9".toList] ++ [[], "y: hlt".toList]) =
      .ok ⟨⟨[⟨"x".toList, 0, 0⟩, ⟨"y".toList, 3, 9⟩]⟩, [⟨0, .instruction .lda "y".toList⟩,
        ⟨1, .directive .org "9".toList⟩, ⟨3, .instruction .hlt []⟩]⟩ := by
    decide +kernel
  have hd : ofSource (["x: lda y".toList, ".org 9".toList] ++ [[], "x: hlt".toList, "?".toList]) =
      .error ⟨3, .redefinedLabel "x".toList 0⟩ := by
    decide +kernel
  have hx : Symbols.find? ⟨[⟨"x".toList, 0, 0⟩]⟩ "x".toList = some ⟨"x".toList, 0, 0⟩ := rfl
  obtain ⟨hextends, hfind⟩ := (ofSource_only_extends _ _).2.1 _ _ hp hq
  exact ⟨_, _, hp, hq, hextends, hx, hfind _ _ hx, hd,
    (ofSource_only_extends _ _).2.2.1 _ _ hp hd, ((ofSource_only_extends _ []).2.2.2 _ hd).2⟩

end Program

end SapOne

import SapOne.Proofs.Source.Items
import SapOne.Proofs.Source.Rendering

set_option relaxedAutoImplicit false
set_option autoImplicit false

/-!
# Lists that are put together

A list of items is written with a comma between each two of them and with blanks wherever one
likes. Taking a list apart is the inverse of this: it succeeds exactly on the texts that were put
together from items, and finds the items again. How many there are can be told from the commas
alone, so that a list of bytes takes its cells whatever its items stand for.

## Main definitions

* `SapOne.Text.IsPiece` — a stretch of a text from one separator to the next.

## Main results

* `SapOne.Text.mem_split_iff` — splitting finds exactly these stretches.
* `SapOne.Operand.items_eq_ok_iff_joined` — a list has the items that it was put together from.
* `SapOne.Operand.items_invert_joining` — when a list is taken apart, and into what.
-/

namespace SapOne

open Grammar

namespace Text

variable {sep : Char}

/-- A stretch of a text from one separator to the next, where the ends of the text count as
separators. -/
def IsPiece (sep : Char) (s piece : Text) : Prop :=
  ∃ before after, s = before ++ piece ++ after ∧ sep ∉ piece ∧
    (∀ c ∈ before.getLast?, c = sep) ∧ ∀ c ∈ after.head?, c = sep

/-! ## Pieces of a text -/

/-- Splitting goes on behind a separator as if nothing stood before it. -/
lemma split_append_separator (a b : Text) :
    split sep (a ++ sep :: b) = split sep a ++ split sep b := by
  induction a with
  | nil => simp [split]
  | cons c a ih =>
    obtain ⟨p, pieces, hp⟩ := List.exists_cons_of_ne_nil (split_ne_nil sep a)
    rw [List.cons_append, split, split, ih, hp]
    split <;> rfl

/-- No piece has a separator in it. -/
lemma not_mem_of_mem_split {s p : Text} (h : p ∈ split sep s) : sep ∉ p := by
  induction s generalizing p with
  | nil => simp_all [split]
  | cons c s ih =>
    obtain ⟨q, pieces, hq⟩ := List.exists_cons_of_ne_nil (split_ne_nil sep s)
    rw [hq] at ih
    rw [split, hq] at h
    by_cases hc : c = sep
    · rw [if_pos hc] at h
      rcases List.mem_cons.1 h with rfl | h
      · simp
      · exact ih h
    · rw [if_neg hc, List.modifyHead_cons] at h
      rcases List.mem_cons.1 h with rfl | h
      · have hrest := ih List.mem_cons_self
        simp [hrest, Ne.symm hc]
      · exact ih (List.mem_cons_of_mem q h)

/-- Each of the texts that are joined is a piece of what they make up. -/
lemma isPiece_intercalate {pieces : List Text} {p : Text} (h : p ∈ pieces) (hsep : sep ∉ p) :
    IsPiece sep ([sep].intercalate pieces) p := by
  induction pieces with
  | nil => cases h
  | cons q pieces ih =>
    cases pieces with
    | nil =>
      obtain rfl := List.mem_singleton.1 h
      exact ⟨[], [], by simp [List.intercalate], hsep, by simp, by simp⟩
    | cons r pieces =>
      rw [List.intercalate_cons_cons]
      rcases List.mem_cons.1 h with rfl | h
      · refine ⟨[], sep :: [sep].intercalate (r :: pieces), by simp, hsep, by simp, ?_⟩
        rintro c ⟨⟩
        rfl
      · obtain ⟨before, after, hjoined, -, hbefore, hafter⟩ := ih h
        refine ⟨q ++ [sep] ++ before, after, by simp [hjoined], hsep, ?_, hafter⟩
        intro c hc
        rw [List.getLast?_append] at hc
        cases hlast : before.getLast? with
        | none => simpa [hlast, eq_comm] using hc
        | some b =>
          rw [hlast] at hc
          cases hc
          exact hbefore c hlast

/-- **Splitting finds exactly the pieces.** -/
theorem mem_split_iff {s p : Text} : p ∈ split sep s ↔ IsPiece sep s p := by
  constructor
  · intro h
    have hpiece := isPiece_intercalate h (not_mem_of_mem_split h)
    rwa [intercalate_split] at hpiece
  · intro h
    obtain ⟨before, after, rfl, hsep, hbefore, hafter⟩ := h
    have hfirst : p ∈ split sep (p ++ after) := by
      cases after with
      | nil => simp [split_eq_singleton hsep]
      | cons c after =>
        obtain rfl : c = sep := hafter c rfl
        simp [split_append_cons hsep]
    rcases List.eq_nil_or_concat before with rfl | ⟨front, c, rfl⟩
    · simpa using hfirst
    · obtain rfl : c = sep := hbefore c (by simp)
      have hshape : front ++ [c] ++ p ++ after = front ++ c :: (p ++ after) := by simp
      rw [List.concat_eq_append, hshape, split_append_separator]
      exact List.mem_append_right _ hfirst

/-- A text without a separator is a piece of itself. -/
lemma isPiece_self {s : Text} (h : sep ∉ s) : IsPiece sep s s :=
  ⟨[], [], by simp, h, by simp, by simp⟩

end Text

/-! ## Items -/

namespace Operand

variable {s : Text}

/-- Some piece of a list is blank. -/
def HasBlankPiece (s : Text) : Prop :=
  ∃ piece, Text.IsPiece ',' s piece ∧ IsBlanks piece

/-- A piece between commas is blank exactly if trimming leaves nothing of it. -/
lemma hasBlankPiece_iff :
    HasBlankPiece s ↔ ((Text.split ',' s).map Text.trim).any List.isEmpty = true := by
  simp only [HasBlankPiece, List.any_map, List.any_eq_true, Function.comp_apply, List.isEmpty_iff,
    Text.trim_eq_nil_iff, Text.mem_split_iff, IsBlanks]

/-- A list that is blank throughout has one piece, and that is blank. -/
lemma hasBlankPiece_of_isBlanks (h : IsBlanks s) : HasBlankPiece s := by
  have hcomma : ',' ∉ s := fun hmem => absurd (h _ hmem) (by decide)
  exact ⟨s, Text.isPiece_self hcomma, h⟩

/-- **What becomes of a list**: nothing is there, or a piece is blank, or it is taken apart. -/
lemma items_cases (s : Text) :
    IsBlanks s ∧ items s = .error .missingArgument ∨
    (¬ IsBlanks s ∧ HasBlankPiece s) ∧ items s = .error (.malformed (Text.trim s)) ∨
    (¬ IsBlanks s ∧ ¬ HasBlankPiece s) ∧ items s = .ok ((Text.split ',' s).map Text.trim) := by
  by_cases hs : IsBlanks s
  · left
    exact ⟨hs, by simp [items, Text.trim_eq_nil_iff.2 hs]⟩
  have hne : Text.trim s ≠ [] := fun hnil => hs (Text.trim_eq_nil_iff.1 hnil)
  by_cases hpiece : HasBlankPiece s
  · right; left
    refine ⟨⟨hs, hpiece⟩, ?_⟩
    simp only [items, List.isEmpty_iff, hne, hasBlankPiece_iff.1 hpiece, if_true, if_false]
  · right; right
    refine ⟨⟨hs, hpiece⟩, ?_⟩
    rw [hasBlankPiece_iff] at hpiece
    simp only [items, List.isEmpty_iff, hne, hpiece, if_false, Bool.false_eq_true]

/-- A list is taken apart exactly if none of its pieces is blank. -/
lemma items_eq_ok_iff {list : List Text} :
    items s = .ok list ↔ ¬ HasBlankPiece s ∧ list = (Text.split ',' s).map Text.trim := by
  rcases items_cases s with ⟨hs, h⟩ | ⟨⟨-, hpiece⟩, h⟩ | ⟨⟨-, hpiece⟩, h⟩
  · simp [h, hasBlankPiece_of_isBlanks hs]
  · simp [h, hpiece]
  · simp [h, hpiece, eq_comm]

/-- An item that can stand in a list. -/
structure IsItem (item : Text) : Prop where
  ne_nil : item ≠ []
  trimmed : IsTrimmed item
  comma_not_mem : ',' ∉ item

/-- **A list has the items that it was put together from**, and every list that has items was put
together from them. -/
theorem items_eq_ok_iff_joined {list : List Text} :
    items s = .ok list ↔ list ≠ [] ∧ (∀ item ∈ list, IsItem item) ∧
      ∃ pieces, List.Forall₂ IsTrim pieces list ∧ s = [','].intercalate pieces := by
  constructor
  · intro h
    obtain ⟨hpiece, rfl⟩ := items_eq_ok_iff.1 h
    refine ⟨by simp, ?_, Text.split ',' s, ?_, (Text.intercalate_split ',' s).symm⟩
    · intro item hitem
      obtain ⟨p, hp, rfl⟩ := List.mem_map.1 hitem
      obtain ⟨front, back, hcut, -, -, htrimmed⟩ := trim_eq_iff.1 (rfl : Text.trim p = _)
      refine ⟨?_, htrimmed, ?_⟩
      · intro hnil
        exact hpiece ⟨p, Text.mem_split_iff.1 hp, Text.trim_eq_nil_iff.1 hnil⟩
      · intro hmem
        apply Text.not_mem_of_mem_split hp
        rw [hcut]
        simp [hmem]
    · rw [List.forall₂_map_right_iff]
      exact List.forall₂_same.2 fun p _ => trim_eq_iff.1 rfl
  · intro h
    obtain ⟨hne, hitems, pieces, hpieces, rfl⟩ := h
    have htrim : pieces.map Text.trim = list := by
      rw [← List.forall₂_eq_eq_eq, List.forall₂_map_left_iff]
      exact hpieces.imp fun _ _ h => trim_eq_iff.2 h
    have hitem : ∀ p ∈ pieces, IsItem (Text.trim p) := by
      intro p hp
      apply hitems
      rw [← htrim]
      exact List.mem_map_of_mem hp
    rw [← htrim]
    apply items_intercalate
    · intro hnil
      rw [hnil] at htrim
      exact hne htrim.symm
    · intro p hp
      exact (trim_eq_iff.1 rfl : IsTrim p _).not_mem (by decide) (hitem p hp).comma_not_mem
    · intro p hp
      exact (hitem p hp).ne_nil

/-- A list has one item more than it has commas. -/
lemma length_of_items {list : List Text} (h : items s = .ok list) :
    list.length = s.count ',' + 1 := by
  obtain ⟨-, rfl⟩ := items_eq_ok_iff.1 h
  rw [List.length_map, Text.length_split]

/-- A list of bytes takes one cell more than it has commas, if it can be taken apart at all. -/
lemma step_byte_eq_ok_iff {step : Step} :
    (Statement.directive .byte s).step = .ok step ↔
      ¬ HasBlankPiece s ∧ step = .advance (s.count ',' + 1) := by
  rw [Statement.step, Except.map_eq_ok_iff]
  constructor
  · intro h
    obtain ⟨list, hlist, rfl⟩ := h
    exact ⟨(items_eq_ok_iff.1 hlist).1, by rw [length_of_items hlist]⟩
  · intro h
    obtain ⟨hpiece, rfl⟩ := h
    have hlist := items_eq_ok_iff.2 ⟨hpiece, rfl⟩
    exact ⟨_, hlist, by rw [length_of_items hlist]⟩

/-- **Taking a list apart is exactly the inverse of putting it together.** A text that is blank
throughout is a missing argument, and a text that is not, but has a blank piece, is malformed as a
whole. Any other text is taken apart, into one item more than it has commas. The items are texts
without comma that are not empty and have no blanks at their ends; and a text has certain items
exactly if it is these items with any blanks around each, joined by commas. So a list of bytes takes
as many cells as its commas say, whatever its items stand for. -/
theorem items_invert_joining :
    (∀ s : Text,
      (items s = .error .missingArgument ↔ IsBlanks s) ∧
      (items s = .error (.malformed (Text.trim s)) ↔ ¬ IsBlanks s ∧ HasBlankPiece s) ∧
      (¬ IsBlanks s → ¬ HasBlankPiece s → ∃ list, items s = .ok list ∧
        list.length = s.count ',' + 1 ∧ ∀ item ∈ list, IsItem item)) ∧
    (∀ (s : Text) (list : List Text), items s = .ok list ↔
      list ≠ [] ∧ (∀ item ∈ list, IsItem item) ∧
        ∃ pieces, List.Forall₂ IsTrim pieces list ∧ s = [','].intercalate pieces) ∧
    ∀ (s : Text) (step : Step), (Statement.directive .byte s).step = .ok step ↔
      ¬ HasBlankPiece s ∧ step = .advance (s.count ',' + 1) := by
  refine ⟨fun s => ?_, fun s list => items_eq_ok_iff_joined, fun s step => step_byte_eq_ok_iff⟩
  rcases items_cases s with ⟨hs, h⟩ | ⟨⟨hs, hpiece⟩, h⟩ | ⟨⟨hs, hpiece⟩, h⟩
  · simp [h, hs]
  · simp [h, hs, hpiece]
  · refine ⟨by simp [h, hs], by simp [h, hpiece], fun _ _ => ⟨_, h, length_of_items h, ?_⟩⟩
    exact (items_eq_ok_iff_joined.1 h).2.1

/-- Items with blanks of several kinds around them, one of which is no operand at all, and a list
with nothing behind its last comma. -/
theorem items_invert_joining_spread_out :
    (∃ list, items " $0a\t,\u00a0a b? ,x".toList = .ok list ∧
      list = ["$0a".toList, "a b?".toList, "x".toList] ∧ list.length = 2 + 1) ∧
    (Statement.directive .byte " $0a\t,\u00a0a b? ,x".toList).step = .ok (.advance 3) ∧
    items "1,2,\n".toList = .error (.malformed "1,2,".toList) := by
  obtain ⟨hcases, hjoined, hstep⟩ := items_invert_joining
  have hblank : ∀ s : Text, '1' ∈ s ∨ 'x' ∈ s → ¬ IsBlanks s := by
    rintro s (h | h) hs
    · exact absurd (hs _ h) (by decide)
    · exact absurd (hs _ h) (by decide)
  have hpiece : ¬ HasBlankPiece " $0a\t,\u00a0a b? ,x".toList := by
    rw [hasBlankPiece_iff]
    decide
  have hlist : items " $0a\t,\u00a0a b? ,x".toList =
      .ok ["$0a".toList, "a b?".toList, "x".toList] := by
    refine (hjoined _ _).2 ⟨by decide, ?_,
      [" $0a\t".toList, "\u00a0a b? ".toList, "x".toList], ?_, by decide⟩
    · intro item hitem
      simp only [List.mem_cons, List.not_mem_nil, or_false] at hitem
      rcases hitem with rfl | rfl | rfl <;>
        exact ⟨by decide, Text.trim_eq_self_iff.1 (by decide), by decide⟩
    · exact .cons (trim_eq_iff.1 (by decide)) (.cons (trim_eq_iff.1 (by decide))
        (.cons (trim_eq_iff.1 (by decide)) .nil))
  refine ⟨?_, (hstep _ _).2 ⟨hpiece, by decide⟩, ?_⟩
  · obtain ⟨list, h, hlength, -⟩ := (hcases _).2.2 (hblank _ (by decide)) hpiece
    rw [hlist] at h
    cases h
    exact ⟨_, hlist, rfl, hlength⟩
  · refine (hcases _).2.1.2 ⟨hblank _ (by decide), ?_⟩
    exact ⟨"\n".toList, Text.mem_split_iff.1 (by decide), Text.trim_eq_nil_iff.1 (by decide)⟩

end Operand

end SapOne

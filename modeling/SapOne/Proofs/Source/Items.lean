import Mathlib.Data.List.Forall2
import SapOne.Proofs.Outcome
import SapOne.Proofs.Source.Grammar

set_option relaxedAutoImplicit false
set_option autoImplicit false

/-!
# Lists of items

A list of operands is cut at its commas, and the blanks around each piece are trimmed off. This
module says what the pieces of a text are, and that lists whose pieces agree are taken apart alike.

## Main results

* `SapOne.Text.split_intercalate` — texts without separator that are joined by it are the pieces.
* `SapOne.Text.map_trim_split` — blanks around a text are blanks around its pieces.
* `SapOne.Operand.trim_eq_nil_iff_pieces` — when a list is blank as a whole.
* `SapOne.Operand.rel_items` — lists with corresponding pieces have corresponding items.
* `SapOne.Operand.items_trim`, `SapOne.Operand.items_intercalate` — blanks around a list do not
  matter, and the items of a list that was put together are its pieces.
-/

namespace SapOne

open Grammar

namespace Text

variable {sep : Char}

/-- A text without separator is one piece. -/
lemma split_eq_singleton {s : Text} (h : sep ∉ s) : split sep s = [s] := by
  induction s with
  | nil => rfl
  | cons c s ih =>
    have hc : c ≠ sep := fun hc => h (hc ▸ List.mem_cons_self)
    rw [split, if_neg hc, ih fun hs => h (List.mem_cons_of_mem c hs)]
    rfl

/-- A text without separator in front of the first separator is the first piece. -/
lemma split_append_cons {s : Text} (h : sep ∉ s) (rest : Text) :
    split sep (s ++ sep :: rest) = s :: split sep rest := by
  induction s with
  | nil =>
    rw [List.nil_append, split, if_pos rfl]
  | cons c s ih =>
    have hc : c ≠ sep := fun hc => h (hc ▸ List.mem_cons_self)
    rw [List.cons_append, split, if_neg hc, ih fun hs => h (List.mem_cons_of_mem c hs)]
    rfl

/-- Texts without separator that are joined by it are the pieces of what they make up. -/
lemma split_intercalate {pieces : List Text} (hne : pieces ≠ []) (h : ∀ p ∈ pieces, sep ∉ p) :
    split sep ([sep].intercalate pieces) = pieces := by
  induction pieces with
  | nil => exact absurd rfl hne
  | cons p pieces ih =>
    have hp : sep ∉ p := h p List.mem_cons_self
    cases pieces with
    | nil => simpa [List.intercalate] using split_eq_singleton hp
    | cons q pieces =>
      have hrest := ih (List.cons_ne_nil q pieces) fun r hr => h r (List.mem_cons_of_mem p hr)
      have hjoin : [sep].intercalate (p :: q :: pieces) =
          p ++ sep :: [sep].intercalate (q :: pieces) := by
        simp [List.intercalate]
      rw [hjoin, split_append_cons hp, hrest]

/-- A character of joined texts is the separator, or stands in one of them. -/
lemma eq_or_mem_of_mem_intercalate {pieces : List Text} {c : Char}
    (h : c ∈ [sep].intercalate pieces) : c = sep ∨ ∃ p ∈ pieces, c ∈ p := by
  induction pieces with
  | nil => simp [List.intercalate] at h
  | cons p pieces ih =>
    cases pieces with
    | nil => exact Or.inr ⟨p, List.mem_cons_self, by simpa [List.intercalate] using h⟩
    | cons q pieces =>
      rw [List.intercalate_cons_cons, List.mem_append, List.mem_append, List.mem_singleton] at h
      rcases h with (hp | hsep) | hrest
      · exact Or.inr ⟨p, List.mem_cons_self, hp⟩
      · exact Or.inl hsep
      · rcases ih hrest with hsep | ⟨r, hr, hc⟩
        · exact Or.inl hsep
        · exact Or.inr ⟨r, List.mem_cons_of_mem p hr, hc⟩

/-- Joined texts of one length, with a separator behind each but the last one. -/
lemma length_intercalate (sep : Char) {n : Nat} {pieces : List Text} (hne : pieces ≠ [])
    (h : ∀ p ∈ pieces, p.length = n) :
    ([sep].intercalate pieces).length + 1 = pieces.length * (n + 1) := by
  induction pieces with
  | nil => exact absurd rfl hne
  | cons p pieces ih =>
    have hp := h p List.mem_cons_self
    cases pieces with
    | nil => simp [List.intercalate, hp]
    | cons q pieces =>
      have hrest := ih (List.cons_ne_nil q pieces) fun r hr => h r (List.mem_cons_of_mem p hr)
      rw [List.intercalate_cons_cons, List.length_append, List.length_append, List.length_singleton,
        hp, List.length_cons, Nat.add_mul]
      omega

/-- What stands in front of a text, without separator, belongs to the first piece. -/
lemma split_append {a : Text} (h : sep ∉ a) (s : Text) :
    split sep (a ++ s) = (split sep s).modifyHead (a ++ ·) := by
  obtain ⟨p, pieces, hs⟩ := List.exists_cons_of_ne_nil (split_ne_nil sep s)
  induction a with
  | nil => simp [hs]
  | cons c a ih =>
    have hc : c ≠ sep := fun hc => h (hc ▸ List.mem_cons_self)
    rw [List.cons_append, split, if_neg hc, ih fun ha => h (List.mem_cons_of_mem c ha), hs]
    rfl

/-- What stands behind a text, without separator, belongs to the last piece. -/
lemma forall₂_split_append {b : Text} (h : sep ∉ b) (s : Text) :
    List.Forall₂ (fun p p' => p' = p ∨ p' = p ++ b) (split sep s) (split sep (s ++ b)) := by
  induction s with
  | nil =>
    rw [List.nil_append, split_eq_singleton h]
    exact .cons (Or.inr rfl) .nil
  | cons c s ih =>
    rw [List.cons_append, split, split]
    split
    · exact .cons (Or.inl rfl) ih
    · generalize split sep s = pieces, split sep (s ++ b) = pieces' at ih
      cases ih with
      | nil => exact .nil
      | cons hp hrest =>
        refine .cons ?_ hrest
        rcases hp with rfl | rfl
        · exact Or.inl rfl
        · exact Or.inr rfl

/-- **Blanks around a text are blanks around its pieces**, if the separator is none. -/
lemma map_trim_split (hsep : isBlank sep = false) (s : Text) :
    (split sep (trim s)).map trim = (split sep s).map trim := by
  obtain ⟨front, back, hs, hfront, hback, -⟩ := trim_eq_iff.1 (rfl : trim s = trim s)
  have hnot : ∀ blanks, IsBlanks blanks → sep ∉ blanks := by
    intro blanks hblanks hmem
    rw [hblanks sep hmem] at hsep
    cases hsep
  have hbehind : (split sep (front ++ trim s ++ back)).map trim =
      (split sep (front ++ trim s)).map trim := by
    rw [← List.forall₂_eq_eq_eq, List.forall₂_map_left_iff, List.forall₂_map_right_iff]
    refine (forall₂_split_append (hnot back hback) (front ++ trim s)).flip.imp ?_
    rintro p p' (rfl | rfl)
    · rfl
    · simpa using trim_append_append (a := []) (by simp) hback p'
  obtain ⟨p, pieces, hp⟩ := List.exists_cons_of_ne_nil (split_ne_nil sep (trim s))
  have hbefore : trim (front ++ p) = trim p := by
    simpa using trim_append_append hfront (b := []) (by simp) p
  calc (split sep (trim s)).map trim
      = (split sep (front ++ trim s)).map trim := by
        rw [split_append (hnot front hfront), hp]
        simp [hbefore]
    _ = (split sep (front ++ trim s ++ back)).map trim := hbehind.symm
    _ = (split sep s).map trim := by rw [← hs]

end Text

namespace Operand

/-- A list is blank exactly if it has one piece and that is blank. -/
lemma trim_eq_nil_iff_pieces {o : Text} :
    Text.trim o = [] ↔ (Text.split ',' o).map Text.trim = [[]] := by
  constructor
  · intro h
    have hcomma : ',' ∉ o := fun hmem =>
      absurd (Text.trim_eq_nil_iff.1 h _ hmem) (by decide)
    rw [Text.split_eq_singleton hcomma, List.map_singleton, h]
  · intro h
    obtain ⟨p, hp, htrim⟩ := List.map_eq_singleton_iff.1 h
    have ho := Text.intercalate_split ',' o
    rw [hp] at ho
    rw [← ho]
    simpa [List.intercalate] using htrim

/-- **Lists with corresponding pieces are taken apart alike.** The correspondence `f` of pieces
keeps blank pieces blank and others not; errors correspond if they are the same, or if both lists
are malformed. -/
lemma rel_items {E : Error → Error → Prop} (hsame : ∀ e, E e e)
    (hmalformed : ∀ o o', E (.malformed o) (.malformed o')) {f : Text → Text}
    (hf : ∀ p, f p = [] ↔ p = []) {o o' : Text}
    (h : (Text.split ',' o').map Text.trim = ((Text.split ',' o).map Text.trim).map f) :
    Except.Rel E (List.Forall₂ fun p p' => p' = f p) (items o) (items o') := by
  have hblank : Text.trim o' = [] ↔ Text.trim o = [] := by
    rw [trim_eq_nil_iff_pieces, trim_eq_nil_iff_pieces, h]
    constructor
    · intro hone
      obtain ⟨p, hp, hnil⟩ := List.map_eq_singleton_iff.1 hone
      rw [hp, (hf p).1 hnil]
    · intro hone
      rw [hone, List.map_singleton, (hf []).2 rfl]
  have hany : ((Text.split ',' o').map Text.trim).any List.isEmpty =
      ((Text.split ',' o).map Text.trim).any List.isEmpty := by
    rw [h, List.any_map]
    congr 1
    funext p
    exact Bool.eq_iff_iff.2 (by simp [hf])
  unfold items
  simp only [hany, List.isEmpty_iff, hblank]
  split
  · exact .error (hsame _)
  split
  · exact .error (hmalformed _ _)
  · refine .ok ?_
    rw [h, List.forall₂_map_right_iff]
    exact List.forall₂_same.2 fun _ _ => rfl

/-- Blanks around a list do not matter. -/
lemma items_trim (s : Text) : items (Text.trim s) = items s := by
  unfold items
  rw [Text.trim_trim, Text.map_trim_split (by decide)]

/-- The items of a list that was put together are its pieces, without the blanks around them. -/
lemma items_intercalate {pieces : List Text} (hne : pieces ≠ []) (hcomma : ∀ p ∈ pieces, ',' ∉ p)
    (hblank : ∀ p ∈ pieces, Text.trim p ≠ []) :
    items ([','].intercalate pieces) = .ok (pieces.map Text.trim) := by
  have hsplit := Text.split_intercalate hne hcomma
  have hpieces : [] ∉ pieces.map Text.trim := by
    intro hmem
    obtain ⟨p, hp, hnil⟩ := List.mem_map.1 hmem
    exact hblank p hp hnil
  have htrim : Text.trim ([','].intercalate pieces) ≠ [] := by
    intro hnil
    rw [trim_eq_nil_iff_pieces, hsplit] at hnil
    exact hpieces (by simp [hnil])
  have hany : (pieces.map Text.trim).any List.isEmpty = false := by
    rw [List.any_eq_false]
    intro p hp hempty
    rw [List.isEmpty_iff.1 hempty] at hp
    exact hpieces hp
  simp only [items, List.isEmpty_iff, htrim, hsplit, hany, if_false, Bool.false_eq_true]

end Operand

end SapOne

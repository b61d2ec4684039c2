import SapOne.Text.Basic

set_option relaxedAutoImplicit false
set_option autoImplicit false

/-!
# Pieces and lines

Cutting a text at a separator, and cutting the content of a file into lines.

## Main definitions

* `SapOne.Text.split` — the pieces of a text between the occurrences of a separator.
* `SapOne.Text.lines` — the lines of a file, under either convention for line ends.

## Main results

* `SapOne.Text.length_split` — one piece more than there are separators.
* `SapOne.Text.intercalate_split` — joining the pieces gives the text back.
-/

namespace SapOne.Text

/-! ## Separators -/

/-- The pieces of a text between the occurrences of `sep`: always at least one, and an empty
one where two separators meet or where one stands at an end. -/
def split (sep : Char) : Text → List Text
  | [] => [[]]
  | c :: s => if c = sep then [] :: split sep s else (split sep s).modifyHead (c :: ·)

/-- There is always at least one piece. -/
@[simp]
theorem split_ne_nil (sep : Char) (s : Text) : split sep s ≠ [] := by
  induction s with
  | nil => simp [split]
  | cons c s ih =>
    unfold split
    split
    · simp
    · cases h : split sep s <;> simp_all

/-- There is one piece more than there are separators. -/
theorem length_split (sep : Char) (s : Text) : (split sep s).length = s.count sep + 1 := by
  induction s with
  | nil => rfl
  | cons c s ih =>
    unfold split
    split
    · simp_all
    · simp_all

/-- Joining the pieces with the separator gives the text back. -/
theorem intercalate_split (sep : Char) (s : Text) : [sep].intercalate (split sep s) = s := by
  induction s with
  | nil => rfl
  | cons c s ih =>
    unfold split
    obtain ⟨p, ps, h⟩ := List.exists_cons_of_ne_nil (split_ne_nil sep s)
    rw [h] at ih ⊢
    split
    · simp_all [List.intercalate]
    · cases ps <;> simp_all [List.intercalate]

/-! ## Lines -/

/-- The text without one carriage return at its end. -/
def chopReturn (s : Text) : Text :=
  if s.getLast? = some '\r' then s.dropLast else s

/-- The lines of a file. A line ends at a line feed, and one carriage return right before the
line feed belongs to the line end. What follows the last line feed is a line only if it is not
empty, and keeps its carriage return. -/
def lines (s : Text) : List Text :=
  let pieces := split '\n' s
  pieces.dropLast.map chopReturn ++ pieces.getLast?.toList.filter (! ·.isEmpty)

end SapOne.Text

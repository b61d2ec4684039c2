set_option relaxedAutoImplicit false
set_option autoImplicit false

/-!
# Text and blanks

A text is a list of characters. Blanks separate the parts of a line and mean nothing at its ends,
where they are trimmed off.

## Main definitions

* `SapOne.Text` — a text, as the list of its characters.
* `SapOne.Text.isBlank` — the Unicode property White_Space.
* `SapOne.Text.trim`, `SapOne.Text.trimEnd` — a text without the blanks at its ends.

## Main results

* `SapOne.Text.trim_eq_self_iff` — the texts that are trimmed already.
* `SapOne.Text.trim_trim` — trimming twice is trimming once.
-/

namespace SapOne

/-- A text, as the list of its characters. -/
abbrev Text := List Char

namespace Text

/-! ## Blanks -/

/-- The code points with the Unicode property White_Space, as closed ranges in ascending
order. -/
def blankRanges : List (Nat × Nat) :=
  [(0x9, 0xD), (0x20, 0x20), (0x85, 0x85), (0xA0, 0xA0), (0x1680, 0x1680), (0x2000, 0x200A),
    (0x2028, 0x2029), (0x202F, 0x202F), (0x205F, 0x205F), (0x3000, 0x3000)]

/-- A character is blank if it has the Unicode property White_Space. Zero-width spaces and
the byte order mark are not blank. -/
def isBlank (c : Char) : Bool :=
  blankRanges.any fun r => r.1 ≤ c.toNat && c.toNat ≤ r.2

/-! ## Trimming -/

/-- The text without the blanks at its beginning. -/
def trimStart (s : Text) : Text :=
  s.dropWhile isBlank

/-- The text without the blanks at its end. -/
def trimEnd (s : Text) : Text :=
  (s.reverse.dropWhile isBlank).reverse

/-- The text without the blanks at its two ends. -/
def trim (s : Text) : Text :=
  trimEnd (trimStart s)

/-- Blanks in front of a text are trimmed off. -/
theorem trimStart_append {a : Text} (h : ∀ c ∈ a, isBlank c = true) (s : Text) :
    trimStart (a ++ s) = trimStart s := by
  simp [trimStart, List.dropWhile_append_of_pos h]

/-- Blanks behind a text are trimmed off. -/
theorem trimEnd_append {b : Text} (h : ∀ c ∈ b, isBlank c = true) (s : Text) :
    trimEnd (s ++ b) = trimEnd s := by
  have h' : ∀ c ∈ b.reverse, isBlank c = true := fun c hc => h c (List.mem_reverse.1 hc)
  simp [trimEnd, List.dropWhile_append_of_pos h']

/-- Trimming leaves a text alone that does not begin with a blank. -/
theorem trimStart_eq_self {s : Text} (h : ∀ c ∈ s.head?, isBlank c = false) : trimStart s = s := by
  cases s with
  | nil => rfl
  | cons c s => simp [trimStart, h c rfl]

/-- Trimming leaves a text alone that does not end with a blank. -/
theorem trimEnd_eq_self {s : Text} (h : ∀ c ∈ s.getLast?, isBlank c = false) : trimEnd s = s := by
  have : s.reverse.dropWhile isBlank = s.reverse :=
    trimStart_eq_self (s := s.reverse) (by simpa using h)
  simp [trimEnd, this]

/-- What is left of a text does not begin with a blank. -/
theorem isBlank_of_head?_trimStart {s : Text} {c : Char} (h : c ∈ (trimStart s).head?) :
    isBlank c = false := by
  have := List.head?_dropWhile_not isBlank s
  rw [show s.dropWhile isBlank = trimStart s from rfl, Option.mem_def.1 h] at this
  simpa using this

/-- What is left of a text does not end with a blank. -/
theorem isBlank_of_getLast?_trimEnd {s : Text} {c : Char} (h : c ∈ (trimEnd s).getLast?) :
    isBlank c = false :=
  isBlank_of_head?_trimStart (s := s.reverse) (by simpa [trimEnd, trimStart] using h)

/-- Trimming the end of a text keeps its beginning, unless nothing is left. -/
theorem head?_trimEnd {s : Text} {c : Char} (h : c ∈ (trimEnd s).head?) : c ∈ s.head? := by
  have : trimEnd s <+: s := by
    have := List.dropWhile_suffix isBlank (l := s.reverse)
    simpa [trimEnd] using List.reverse_prefix.2 this
  obtain ⟨t, ht⟩ := this
  cases hs : trimEnd s with
  | nil => simp [hs] at h
  | cons a r =>
    rw [hs] at ht h
    rw [← ht]
    simpa using h

/-- A text is trimmed exactly if no blank stands at its ends. -/
theorem trim_eq_self_iff {s : Text} :
    trim s = s ↔ (∀ c ∈ s.head?, isBlank c = false) ∧ ∀ c ∈ s.getLast?, isBlank c = false := by
  constructor
  · intro h
    constructor
    · intro c hc
      rw [← h] at hc
      exact isBlank_of_head?_trimStart (head?_trimEnd hc)
    · intro c hc
      rw [← h] at hc
      exact isBlank_of_getLast?_trimEnd hc
  · rintro ⟨h₁, h₂⟩
    rw [trim, trimStart_eq_self h₁, trimEnd_eq_self h₂]

/-- Trimming twice is trimming once. -/
@[simp]
theorem trim_trim (s : Text) : trim (trim s) = trim s :=
  trim_eq_self_iff.2 ⟨fun _ hc => isBlank_of_head?_trimStart (head?_trimEnd hc),
    fun _ hc => isBlank_of_getLast?_trimEnd hc⟩

end Text

end SapOne

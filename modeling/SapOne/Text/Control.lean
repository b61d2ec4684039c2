import SapOne.Text.Basic

set_option relaxedAutoImplicit false
set_option autoImplicit false

/-!
# Control sequences

A terminal takes some characters as commands. Single control characters are commands by
themselves; an escape character begins a sequence, whose kind decides where it ends. Text that
goes to a plain stream is freed of all this: `SapOne.Control.strip` reads it the way a terminal
does and keeps what a terminal would show.

Of the control characters only tab, line feed, form feed and carriage return are kept. They are
kept inside an escape sequence or a control sequence too, where they suspend the sequence: what
follows is text, up to the next character that is not kept, and from there on the sequence goes
on. Inside the longer kinds, whose content is a string for the terminal, nothing is kept.

## Main definitions

* `SapOne.Control.State` — the kind of sequence that a terminal is in.
* `SapOne.Control.State.next`, `SapOne.Control.State.keeps` — what a character does there.
* `SapOne.Control.strip` — a text without its control sequences.

## Main results

* `SapOne.Control.isPlain_of_mem_strip` — only plain characters are left.
* `SapOne.Control.strip_eq_self` — a text of plain characters stays as it is.
-/

namespace SapOne.Control

/-- A control character that only arranges text: tab, line feed, form feed or carriage
return. -/
def isLayout (c : Char) : Bool :=
  c = '\t' || c = '\n' || c = '\x0c' || c = '\r'

/-- A character that stands for itself outside of all sequences. -/
def isPlain (c : Char) : Bool :=
  isLayout c || (0x20 ≤ c.toNat && c.toNat ≠ 0x7F)

/-- The kind of sequence that a terminal is in. -/
inductive State where
  /-- In none. -/
  | ground
  /-- Behind an escape character. -/
  | escape
  /-- In an escape sequence, behind its first character. -/
  | escapeTail
  /-- In a control sequence. -/
  | sequence
  /-- At the beginning of a device string. -/
  | deviceStart
  /-- In the parameters of a device string. -/
  | deviceParameters
  /-- Behind the parameters of a device string. -/
  | deviceTail
  /-- In a command to the operating system. -/
  | command
  /-- In the content of a device string, or in a string of another kind. -/
  | content
deriving DecidableEq

namespace State

/-- Whether a character is kept: in no sequence every plain character, in an escape sequence or
a control sequence the layout, and in a string nothing. -/
def keeps : State → Char → Bool
  | ground, c => isPlain c
  | escape, c | escapeTail, c | sequence, c => isLayout c
  | _, _ => false

/-- The state behind a character of a sequence. The two cancelling characters end every sequence
and an escape character begins a new one; otherwise control characters and characters beyond
ASCII do not matter, except that the bell ends a command, and that a string ends at the byte
`0x9C`, also where that is part of the encoding of a character. -/
def next (q : State) (c : Char) : State :=
  let n := c.toNat
  if n = 0x18 || n = 0x1A then ground
  else if n = 0x1B then escape
  else
    match q with
    | ground => ground
    | escape =>
      if n < 0x20 || 0x7F ≤ n then escape
      else if n < 0x30 then escapeTail
      else if c = '[' then sequence
      else if c = ']' then command
      else if c = 'P' then deviceStart
      else if c = 'X' || c = '^' || c = '_' then content
      else ground
    | escapeTail => if n < 0x30 || 0x7F ≤ n then escapeTail else ground
    | sequence => if n < 0x40 || 0x7F ≤ n then sequence else ground
    | deviceStart =>
      if n < 0x20 || 0x7F ≤ n then deviceStart
      else if n < 0x30 then deviceTail
      else if n < 0x40 then deviceParameters
      else content
    | deviceParameters =>
      if n < 0x20 || 0x7F ≤ n then deviceParameters
      else if n < 0x30 then deviceTail
      else if n < 0x3C then deviceParameters
      else content
    | deviceTail => if n < 0x30 || 0x7F ≤ n then deviceTail else content
    | command => if n = 0x07 then ground else command
    | content => if (String.utf8EncodeChar c).contains 0x9C then ground else content

/-- What is kept of a text that begins in a state. If `suspended` holds, the sequence of that
state is suspended; a kept character beyond ASCII ends it for good. -/
def strip (q : State) (suspended : Bool) : Text → Text
  | [] => []
  | c :: s =>
    if (if suspended then ground else q).keeps c then
      c :: strip (if c.toNat < 0x80 then q else ground) true s
    else strip (q.next c) false s

end State

/-- The text without control sequences and control characters. -/
def strip (s : Text) : Text :=
  State.ground.strip false s

/-! ## Laws -/

/-- Whatever is kept in some state is plain. -/
theorem State.isPlain_of_keeps {q : State} {c : Char} (h : q.keeps c = true) :
    isPlain c = true := by
  cases q <;> simp_all [State.keeps, isPlain]

/-- Only plain characters are left of a text. -/
theorem State.isPlain_of_mem_strip {q : State} {suspended : Bool} {s : Text} {c : Char}
    (h : c ∈ q.strip suspended s) : isPlain c = true := by
  induction s generalizing q suspended with
  | nil => cases h
  | cons d s ih =>
    by_cases hd : (if suspended then ground else q).keeps d = true
    · rw [State.strip, if_pos hd] at h
      rcases List.mem_cons.1 h with rfl | h
      · exact State.isPlain_of_keeps hd
      · exact ih h
    · rw [State.strip, if_neg hd] at h
      exact ih h

/-- Only plain characters are left of a text. -/
theorem isPlain_of_mem_strip {s : Text} {c : Char} (h : c ∈ strip s) : isPlain c = true :=
  State.isPlain_of_mem_strip h

/-- Outside of all sequences plain characters are kept. -/
theorem State.strip_ground {suspended : Bool} {s : Text} (h : ∀ c ∈ s, isPlain c = true) :
    ground.strip suspended s = s := by
  induction s generalizing suspended with
  | nil => rfl
  | cons c s ih =>
    have hc : isPlain c = true := h c List.mem_cons_self
    simp [State.strip, State.keeps, hc, ih fun d hd => h d (List.mem_cons_of_mem c hd)]

/-- A text of plain characters stays as it is. -/
theorem strip_eq_self {s : Text} (h : ∀ c ∈ s, isPlain c = true) : strip s = s :=
  State.strip_ground h

/-- Stripping twice is stripping once. -/
@[simp]
theorem strip_strip (s : Text) : strip (strip s) = strip s :=
  strip_eq_self fun _ => isPlain_of_mem_strip

end SapOne.Control

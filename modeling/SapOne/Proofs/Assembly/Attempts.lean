import SapOne.Proofs.Assembly.Arithmetic
import SapOne.Proofs.Source.Numerals

set_option relaxedAutoImplicit false
set_option autoImplicit false

/-!
# What the second pass attempts

Besides finding bytes, the second pass attempts four things that can fail: to add up the address of
an item, to write, to find the step of a statement, and to move the location counter. This module
records the attempts in their order, up to the end of the run, and says which of them ever fail.
Sums of addresses and moves never do, because all that was attempted before has gone into the
memory. Steps fail only where a statement sets the location counter, and not at all if the first
pass has been there. A write fails outside the memory and nowhere else, and is then the last
attempt.

## Main definitions

* `SapOne.Attempt`, `SapOne.Attempt.error?` — an attempt, and the error if it fails.
* `SapOne.Program.attempts` — all attempts of the second pass, in order.
* `SapOne.Honest` — a computation fails where an attempt does, and complains about an address only
  after it has attempted to write there.

## Main results

* `SapOne.Honest.bind` — a sequence of honest computations is honest.
* `SapOne.Encoder.honest_writeItems` — so are the items of a list,
* `SapOne.Encoder.honest_add`, `SapOne.Encoder.honest_addAll` — a statement, and a run.
* `SapOne.Program.encode_errors_honest` — which attempts of the second pass can fail.
-/

namespace SapOne

/-! ## Attempts -/

/-- A thing that the second pass attempts. -/
inductive Attempt where
  /-- The address of an item, `offset` cells behind the location counter. -/
  | sum (counter offset : Nat)
  /-- A write at an address. -/
  | write (address : Nat)
  /-- The step of a statement. -/
  | step (s : Statement)
  /-- The move of the location counter by a step. -/
  | move (counter : Nat) (s : Step)
deriving DecidableEq

namespace Attempt

/-- The error with which an attempt fails. -/
def error? : Attempt → Option Error
  | sum counter offset =>
    if (Number.add? counter offset).isSome then none else some (.addressOutOfRange counter)
  | write address => if address < memorySize then none else some (.addressOutOfRange address)
  | step s => s.step.error?
  | move counter s => (s.apply counter).error?

/-- The attempts that may fail: writes, and steps of statements that set the location counter. -/
def MayFail : Attempt → Prop
  | sum _ _ => False
  | write _ => True
  | step s => ∃ operand, s = .directive .org operand
  | move _ _ => False

end Attempt

/-- What is attempted after a computation: nothing, if the computation fails. -/
def attemptsAfter {ε α : Type} (x : Except ε α) (later : α → List Attempt) : List Attempt :=
  match x with
  | .ok a => later a
  | .error _ => []

namespace Encoder

/-- The attempts to write an item. -/
def itemAttempts (t : Symbols) (counter : Nat) (item : Text) (offset : Nat) : List Attempt :=
  attemptsAfter (t.itemByte item) fun _ =>
    .sum counter offset ::
      match Number.add? counter offset with
      | some address => [.write address]
      | none => []

/-- The attempts to write items, each with its offset. -/
def itemsAttempts (t : Symbols) (counter line : Nat) : Image → List (Text × Nat) → List Attempt
  | _, [] => []
  | image, (item, offset) :: rest =>
    itemAttempts t counter item offset ++
      attemptsAfter (writeItem t counter line image item offset) fun image =>
        itemsAttempts t counter line image rest

/-- The attempts to write a statement. -/
def writeAttempts (t : Symbols) (e : Encoder) (line : Nat) : Statement → List Attempt
  | .directive .org _ => []
  | .directive .segment _ => []
  | .directive .byte operand =>
    attemptsAfter (Operand.items operand) fun items =>
      itemsAttempts t e.counter line e.image items.zipIdx
  | .instruction op operand =>
    attemptsAfter (t.instructionByte op operand) fun _ => [.write e.counter]

/-- The attempts to encode a statement. -/
def attempts (t : Symbols) (e : Encoder) (s : Numbered) : List Attempt :=
  e.writeAttempts t s.line s.statement ++
    attemptsAfter (e.write t s.line s.statement) fun _ =>
      .step s.statement ::
        attemptsAfter s.statement.step fun step => [.move e.counter step]

/-- The attempts to encode statements one after the other. -/
def attemptsAll (t : Symbols) : Encoder → List Numbered → List Attempt
  | _, [] => []
  | e, s :: rest => e.attempts t s ++ attemptsAfter (e.add t s) fun e => attemptsAll t e rest

end Encoder

/-- All attempts of the second pass, in order. -/
def Program.attempts (p : Program) : List Attempt :=
  Encoder.start.attemptsAll p.symbols p.statements

/-! ## Honest computations -/

section Honest

variable {α β : Type} {x : Except Error α} {attempts : List Attempt}

/-- A computation fails with any of its attempts, and only such attempts fail that may. If it
complains about an address, then its last attempt was a write there, outside the memory, and all
writes before were in the memory. -/
structure Honest (attempts : List Attempt) (x : Except Error α) : Prop where
  fails : ∀ attempt ∈ attempts, ∀ e, attempt.error? = some e → x = .error e ∧ attempt.MayFail
  last : ∀ address, x = .error (.addressOutOfRange address) → memorySize ≤ address ∧
    ∃ earlier, attempts = earlier ++ [.write address] ∧ ∀ a, .write a ∈ earlier → a < memorySize

namespace Honest

/-- Without attempts, being honest is not to complain about an address. -/
lemma of_ne (h : ∀ address, x ≠ .error (.addressOutOfRange address)) : Honest [] x where
  fails := by simp
  last address hx := absurd hx (h address)

/-- A success without attempts is honest. -/
lemma ok (a : α) : Honest [] (.ok a) :=
  of_ne (by simp)

/-- A last step that cannot fail keeps a computation honest. -/
lemma map (h : Honest attempts x) (f : α → β) : Honest attempts (x.map f) where
  fails r hr e he := ⟨Except.map_eq_error_iff.2 (h.fails r hr e he).1, (h.fails r hr e he).2⟩
  last address hx := h.last address (Except.map_eq_error_iff.1 hx)

/-- The writes of an honest computation that succeeds are in the memory. -/
lemma lt_of_write_mem {a : α} (h : Honest attempts (.ok a)) {address : Nat}
    (hmem : .write address ∈ attempts) : address < memorySize := by
  by_contra hout
  have herror := (h.fails _ hmem (.addressOutOfRange address) (by simp [Attempt.error?, hout])).1
  cases herror

/-- **A sequence of honest computations is honest.** -/
lemma bind {f : α → Except Error β} {later : α → List Attempt} (hx : Honest attempts x)
    (hf : ∀ a, x = .ok a → Honest (later a) (f a)) :
    Honest (attempts ++ attemptsAfter x later) (x >>= f) := by
  cases x with
  | error e =>
    have hnone : attempts ++ attemptsAfter (.error e : Except Error α) later = attempts :=
      List.append_nil attempts
    rw [hnone]
    exact ⟨fun r hr e' he => ⟨(Except.error.inj (hx.fails r hr e' he).1) ▸ rfl,
      (hx.fails r hr e' he).2⟩, fun address h => hx.last address ((Except.error.inj h) ▸ rfl)⟩
  | ok a =>
    have ha := hf a rfl
    refine ⟨?_, ?_⟩
    · intro r hr e he
      rcases List.mem_append.1 hr with hr | hr
      · -- an attempt of the first part cannot have failed, because that part succeeded
        cases (hx.fails r hr e he).1
      · exact ha.fails r hr e he
    · intro address h
      obtain ⟨hout, earlier, hlast, hearlier⟩ := ha.last address h
      refine ⟨hout, attempts ++ earlier, ?_, ?_⟩
      · show attempts ++ later a = _
        rw [hlast, List.append_assoc]
      · intro b hb
        rcases List.mem_append.1 hb with hb | hb
        · exact hx.lt_of_write_mem hb
        · exact hearlier b hb

/-- An attempt that succeeds, in front of an honest computation. -/
lemma cons {r : Attempt} (hr : r.error? = none) (h : Honest attempts x) :
    Honest (r :: attempts) x := by
  refine ⟨?_, ?_⟩
  · intro r' hr' e he
    rcases List.mem_cons.1 hr' with rfl | hr'
    · rw [hr] at he
      cases he
    · exact h.fails r' hr' e he
  · intro address hx
    obtain ⟨hout, earlier, hlast, hearlier⟩ := h.last address hx
    refine ⟨hout, r :: earlier, by rw [hlast, List.cons_append], ?_⟩
    intro a ha
    rcases List.mem_cons.1 ha with rfl | ha
    · by_contra hge
      simp [Attempt.error?, hge] at hr
    · exact hearlier a ha

/-- A sequence that attempts nothing. -/
lemma bind_nil {f : α → Except Error β} (hx : Honest [] x) (hf : ∀ a, Honest [] (f a)) :
    Honest [] (x >>= f) := by
  have h : Honest ([] ++ attemptsAfter x fun _ => []) (x >>= f) := hx.bind fun a _ => hf a
  have hnone : attemptsAfter x (fun _ => []) = [] := by cases x <;> rfl
  rwa [List.nil_append, hnone] at h

end Honest

end Honest

/-! ## Texts and values -/

/-- Reading a numeral attempts nothing, and complains about no address. -/
lemma Number.honest_parse (s : Text) : Honest [] (parse s) := by
  refine .of_ne fun address h => ?_
  unfold parse at h
  dsimp only at h
  repeat' split at h
  all_goals cases h

namespace Operand

/-- Reading an operand attempts nothing, and complains about no address. -/
lemma honest_parse (s : Text) : Honest [] (parse s) := by
  unfold parse
  split
  · exact .of_ne (by simp)
  · split
    · exact (Number.honest_parse _).map _
    · split
      · exact .ok _
      · exact .of_ne (by simp)

/-- Taking a list apart attempts nothing, and complains about no address. -/
lemma honest_items (s : Text) : Honest [] (items s) := by
  unfold items
  split
  · exact .of_ne (by simp)
  · dsimp only
    split
    · exact .of_ne (by simp)
    · exact .ok _

end Operand

namespace Symbols

variable (t : Symbols)

/-- Evaluating an operand attempts nothing, and complains about no address. -/
lemma honest_evaluate (text : Text) : Honest [] (t.evaluate text) := by
  refine (Operand.honest_parse text).bind_nil fun operand => ?_
  cases operand with
  | literal value => exact .ok value
  | symbol name =>
    show Honest [] (t.resolve name)
    unfold resolve
    split
    · exact .ok _
    · exact .of_ne (by simp)

/-- Finding the byte of an item attempts nothing, and complains about no address. -/
lemma honest_itemByte (item : Text) : Honest [] (t.itemByte item) := by
  refine (t.honest_evaluate item).bind_nil fun value => ?_
  split
  · exact .ok _
  · exact .of_ne (by simp)

/-- Finding the byte of an instruction attempts nothing, and complains about no address. -/
lemma honest_instructionByte (op : Opcode) (operand : Text) :
    Honest [] (t.instructionByte op operand) := by
  by_cases hop : op.takesOperand = true
  · rw [instructionByte_of_takesOperand t hop]
    refine (t.honest_evaluate operand).bind_nil fun value => ?_
    split
    · exact .ok _
    · exact .of_ne (by simp)
  · rw [instructionByte_of_not_takesOperand t (by simpa using hop)]
    exact .ok _

end Symbols

/-! ## Writes -/

/-- A write is honest: it fails outside the memory only, and names its own address. -/
lemma Image.honest_write (m : Image) (address : Nat) (byte : UInt8) (line : Nat) :
    Honest [.write address] (m.write address byte line) := by
  refine ⟨?_, ?_⟩
  · intro r hr e he
    rw [List.mem_singleton.1 hr, Attempt.error?] at he
    split at he
    · cases he
    · next hout =>
      rw [List.mem_singleton.1 hr]
      exact ⟨write_eq_error_iff.2 ⟨by omega, (Option.some.inj he).symm⟩, trivial⟩
  · intro a h
    obtain ⟨hout, ha⟩ := write_eq_error_iff.1 h
    cases ha
    exact ⟨hout, [], rfl, by simp⟩

namespace Encoder

variable {t : Symbols}

/-- The sum of location counter and offset is a word if all items before it are in the memory. -/
lemma add?_of_offset {counter offset : Nat} (hcounter : counter < Number.limit)
    (hoffset : offset = 0 ∨ counter + offset ≤ memorySize) :
    Number.add? counter offset = some (counter + offset) := by
  have hlimit : memorySize < Number.limit := by decide
  apply if_pos
  rcases hoffset with rfl | hoffset
  · simpa using hcounter
  · omega

/-- An item is written honestly, if its offset is zero or all items before it are in the memory. -/
lemma honest_writeItem {counter offset : Nat} (hcounter : counter < Number.limit)
    (hoffset : offset = 0 ∨ counter + offset ≤ memorySize) (line : Nat) (image : Image)
    (item : Text) :
    Honest (itemAttempts t counter item offset) (writeItem t counter line image item offset) := by
  have hsum := add?_of_offset hcounter hoffset
  have hwords : Arithmetic.words.add? counter offset = some (counter + offset) := hsum
  refine (t.honest_itemByte item).bind fun byte _ => ?_
  simp only [hsum, hwords]
  exact (image.honest_write (counter + offset) byte line).cons (by simp [Attempt.error?, hsum])

/-- **The items of a list are written honestly.**

**Proof sketch.** Induction on the items, with any number of items before them. If there are some,
the last one of them was written at the address before, so that this one is at the end of the memory
at the latest. -/
theorem honest_writeItems {counter : Nat} (hcounter : counter < Number.limit) (line : Nat)
    (items : List Text) {offset : Nat} (hoffset : offset = 0 ∨ counter + offset ≤ memorySize)
    (image : Image) :
    Honest (itemsAttempts t counter line image (items.zipIdx offset))
      ((items.zipIdx offset).foldlM
        (fun image (item, offset) => writeItem t counter line image item offset) image) := by
  induction items generalizing offset image with
  | nil => exact .ok image
  | cons item items ih =>
    rw [List.zipIdx_cons, List.foldlM_cons, itemsAttempts]
    refine (honest_writeItem hcounter hoffset line image item).bind fun image' h => ?_
    obtain ⟨byte, -, hwrite⟩ := writeItem_eq_ok_iff.1 h
    have hlt : counter + offset < memorySize := Image.lt_of_write_eq_ok hwrite
    exact ih (Or.inr (by omega)) image'

/-- A statement is written honestly. -/
lemma honest_write {e : Encoder} (he : e.counter < Number.limit) (line : Nat) (s : Statement) :
    Honest (e.writeAttempts t line s) (e.write t line s) := by
  match s with
  | .directive .org operand => exact .ok e.image
  | .directive .segment operand => exact .ok e.image
  | .directive .byte operand =>
    refine (Operand.honest_items operand).bind fun items _ => ?_
    exact honest_writeItems he line items (Or.inl rfl) e.image
  | .instruction op operand =>
    refine (t.honest_instructionByte op operand).bind fun byte _ => ?_
    exact e.image.honest_write e.counter byte line

/-! ## Steps and moves -/

/-- A statement that was written has a step, unless it sets the location counter. -/
lemma exists_org_of_step_error {e : Encoder} {line : Nat} {s : Statement} {image : Image}
    (h : e.write t line s = .ok image) {error : Error} (hstep : s.step = .error error) :
    ∃ operand, s = .directive .org operand ∧ Number.parse operand = .error error := by
  match s with
  | .directive .org operand => exact ⟨operand, rfl, Except.map_eq_error_iff.1 hstep⟩
  | .directive .segment operand => cases hstep
  | .directive .byte operand =>
    -- the pass takes the list apart twice, and the first time it went well
    obtain ⟨items, hitems, -⟩ := Except.bind_eq_ok_iff.1 h
    have herror := Except.map_eq_error_iff.1 hstep
    rw [hitems] at herror
    cases herror
  | .instruction op operand => cases hstep

/-- A statement that was written moves the location counter, whatever its step is. -/
lemma exists_apply_of_write {e : Encoder} {line : Nat} {s : Statement} {image : Image}
    (h : e.write t line s = .ok image) {step : Step} (hstep : s.step = .ok step) :
    ∃ next, step.apply e.counter = .ok next := by
  have hlimit : memorySize < Number.limit := by decide
  cases step with
  | stay => exact ⟨e.counter, rfl⟩
  | jump address => exact ⟨address, rfl⟩
  | advance n =>
    have hfits := (write_of_write .words h).2 n hstep
    have hlt : e.counter + n < Number.limit := by omega
    exact ⟨e.counter + n, by simp [Step.apply, hlt]⟩

/-- The step of a statement that was written, and the move by it. -/
lemma honest_advance {e : Encoder} {line : Nat} {s : Statement} {image : Image}
    (h : e.write t line s = .ok image) :
    Honest (.step s :: attemptsAfter s.step fun step => [.move e.counter step])
      (s.advance e.counter) := by
  have hstep : Honest [.step s] s.step := by
    refine ⟨?_, ?_⟩
    · intro r hr error herror
      rw [List.mem_singleton.1 hr] at herror ⊢
      have hfails := Except.error?_eq_some_iff.1 herror
      obtain ⟨operand, hs, -⟩ := exists_org_of_step_error h hfails
      exact ⟨hfails, operand, hs⟩
    · intro address hfails
      obtain ⟨operand, -, hparse⟩ := exists_org_of_step_error h hfails
      obtain ⟨-, earlier, hnil, -⟩ := (Number.honest_parse operand).last address hparse
      simp at hnil
  refine hstep.bind fun step hok => ?_
  obtain ⟨next, hnext⟩ := exists_apply_of_write h hok
  rw [hnext]
  exact (Honest.ok next).cons (by simp [Attempt.error?, hnext, Except.error?])

/-- **A statement is encoded honestly.** -/
theorem honest_add {e : Encoder} (he : e.counter < Number.limit) (s : Numbered) :
    Honest (e.attempts t s) (e.add t s) := by
  refine (honest_write he s.line s.statement).bind fun image h => ?_
  exact (honest_advance h).map fun counter => (⟨counter, image⟩ : Encoder)

/-- The location counter stays a word. -/
lemma lt_limit_of_advance {counter next : Nat} {s : Statement} (hcounter : counter < Number.limit)
    (h : s.advance counter = .ok next) : next < Number.limit := by
  obtain ⟨step, hstep, h⟩ := Except.bind_eq_ok_iff.1 h
  cases step with
  | stay =>
    cases h
    exact hcounter
  | jump address =>
    cases h
    match s with
    | .directive .org operand =>
      obtain ⟨a, ha, hjump⟩ := Except.map_eq_ok_iff.1 hstep
      cases hjump
      exact (Number.parse_eq_ok_iff.1 ha).2
    | .directive .segment operand => cases hstep
    | .directive .byte operand =>
      obtain ⟨items, -, hjump⟩ := Except.map_eq_ok_iff.1 hstep
      cases hjump
    | .instruction op operand => cases hstep
  | advance n =>
    simp only [Step.apply, Arithmetic.add?_words] at h
    by_cases hlt : counter + n < Number.limit
    · simp only [hlt, if_true, Except.ok.injEq] at h
      omega
    · simp [hlt] at h

/-- **A run of the second pass is honest.** -/
theorem honest_addAll (statements : List Numbered) {e : Encoder} (he : e.counter < Number.limit) :
    Honest (e.attemptsAll t statements) ((e.addAll t statements).mapError Diagnostic.error) := by
  induction statements generalizing e with
  | nil => exact .ok e
  | cons s rest ih =>
    have hrun : (e.addAll t (s :: rest)).mapError Diagnostic.error =
        (e.add t s >>= fun e' => (e'.addAll t rest).mapError Diagnostic.error) := by
      rw [addAll_cons]
      cases e.add t s <;> rfl
    rw [hrun, attemptsAll]
    refine (honest_add he s).bind fun e' h => ih ?_
    exact lt_limit_of_advance he (add_eq_ok_iff.1 h).2

/-! ## Steps that the first pass has made -/

/-- What is attempted after a computation is attempted on its result. -/
lemma mem_attemptsAfter_iff {α ε : Type} {x : Except ε α} {later : α → List Attempt}
    {r : Attempt} : r ∈ attemptsAfter x later ↔ ∃ a, x = .ok a ∧ r ∈ later a := by
  cases x <;> simp [attemptsAfter]

/-- Writing items does not look for the step of a statement. -/
lemma step_not_mem_itemsAttempts {counter line : Nat} (items : List (Text × Nat)) (image : Image)
    (s : Statement) : .step s ∉ itemsAttempts t counter line image items := by
  induction items generalizing image with
  | nil => simp [itemsAttempts]
  | cons pair items ih =>
    intro h
    rcases List.mem_append.1 h with h | h
    · obtain ⟨byte, -, h⟩ := mem_attemptsAfter_iff.1 h
      split at h <;> simp at h
    · obtain ⟨image', -, h⟩ := mem_attemptsAfter_iff.1 h
      exact ih image' h

/-- The step that is attempted is that of the statement. -/
lemma eq_of_step_mem_attempts {e : Encoder} {n : Numbered} {s : Statement}
    (h : .step s ∈ e.attempts t n) : s = n.statement := by
  rcases List.mem_append.1 h with h | h
  · exfalso
    match hn : n.statement with
    | .directive .org operand => simp [hn, writeAttempts] at h
    | .directive .segment operand => simp [hn, writeAttempts] at h
    | .directive .byte operand =>
      rw [hn] at h
      obtain ⟨items, -, h⟩ := mem_attemptsAfter_iff.1 h
      exact step_not_mem_itemsAttempts _ _ _ h
    | .instruction op operand =>
      rw [hn] at h
      obtain ⟨byte, -, h⟩ := mem_attemptsAfter_iff.1 h
      simp at h
  · obtain ⟨image, -, h⟩ := mem_attemptsAfter_iff.1 h
    rcases List.mem_cons.1 h with h | h
    · exact Attempt.step.inj h
    · obtain ⟨step, -, h⟩ := mem_attemptsAfter_iff.1 h
      simp at h

/-- A run looks for the steps of its own statements only. -/
lemma exists_mem_of_step_mem_attemptsAll {statements : List Numbered} {e : Encoder}
    {s : Statement} (h : .step s ∈ e.attemptsAll t statements) :
    ∃ n ∈ statements, s = n.statement := by
  induction statements generalizing e with
  | nil => simp [attemptsAll] at h
  | cons n rest ih =>
    rcases List.mem_append.1 h with h | h
    · exact ⟨n, List.mem_cons_self, eq_of_step_mem_attempts h⟩
    · obtain ⟨e', -, h⟩ := mem_attemptsAfter_iff.1 h
      obtain ⟨m, hm, hs⟩ := ih h
      exact ⟨m, List.mem_cons_of_mem n hm, hs⟩

end Encoder

/-- Statements over which the location counter can be moved have their steps. -/
lemma Numbered.exists_step_of_advanceAll {statements : List Numbered} {counter final : Nat}
    (h : advanceAll counter statements = .ok final) {n : Numbered} (hn : n ∈ statements) :
    ∃ step, n.statement.step = .ok step := by
  induction statements generalizing counter with
  | nil => cases hn
  | cons m rest ih =>
    rw [advanceAll_cons, Except.bind_eq_ok_iff] at h
    obtain ⟨next, hnext, hrest⟩ := h
    rcases List.mem_cons.1 hn with rfl | hn
    · obtain ⟨step, hstep, -⟩ := Except.bind_eq_ok_iff.1 hnext
      exact ⟨step, hstep⟩
    · exact ih hrest hn

/-! ## The second pass of a program -/

namespace Program

/-- The second pass is honest over the whole program. -/
lemma honest_encode (p : Program) :
    Honest p.attempts (p.encode.mapError Diagnostic.error) := by
  have hrun := Encoder.honest_addAll (t := p.symbols) p.statements (e := Encoder.start) (by decide)
  have hsame : p.encode.mapError Diagnostic.error = ((Encoder.start.addAll p.symbols
      p.statements).mapError Diagnostic.error).map Encoder.image := by
    unfold encode
    cases Encoder.start.addAll p.symbols p.statements <;> rfl
  rw [hsame]
  exact hrun.map Encoder.image

/-- **Overflows cannot happen in the second pass, and complaints about addresses are honest.** For
every table and every list of statements, the sums and the moves that the second pass attempts never
fail, and a step fails only where a statement sets the location counter to something that is no
number. If the second pass complains about an address, then it has attempted to write there, outside
the memory, and all writes that it has attempted before are in the memory; and it does fail with
whatever fails of its attempts. Where the statements come from the first pass, no step fails. -/
theorem encode_errors_honest (p : Program) :
    (∀ counter offset, .sum counter offset ∈ p.attempts →
      Number.add? counter offset = some (counter + offset)) ∧
    (∀ counter step, .move counter step ∈ p.attempts → ∃ next, step.apply counter = .ok next) ∧
    (∀ s error, .step s ∈ p.attempts → s.step = .error error →
      ∃ operand, s = .directive .org operand ∧ Number.parse operand = .error error) ∧
    (∀ line address, p.encode = .error ⟨line, .addressOutOfRange address⟩ →
      memorySize ≤ address ∧ ∃ earlier, p.attempts = earlier ++ [.write address] ∧
        ∀ a, .write a ∈ earlier → a < memorySize) ∧
    (∀ attempt ∈ p.attempts, ∀ error, attempt.error? = some error →
      ∃ line, p.encode = .error ⟨line, error⟩) ∧
    ∀ source, ofSource source = .ok p → ∀ s, .step s ∈ p.attempts →
      ∃ step, s.step = .ok step := by
  have h := p.honest_encode
  refine ⟨?_, ?_, ?_, ?_, ?_, ?_⟩
  · intro counter offset hmem
    by_cases hlt : counter + offset < Number.limit
    · exact if_pos hlt
    · exact absurd (h.fails _ hmem (.addressOutOfRange counter)
        (by simp [Attempt.error?, Number.add?, hlt])).2 id
  · intro counter step hmem
    cases happly : step.apply counter with
    | ok next => exact ⟨next, rfl⟩
    | error error =>
      exact absurd (h.fails _ hmem error (by simp [Attempt.error?, happly, Except.error?])).2 id
  · intro s error hmem hstep
    obtain ⟨operand, rfl⟩ :=
      (h.fails _ hmem error (by simp [Attempt.error?, hstep, Except.error?])).2
    exact ⟨operand, rfl, Except.map_eq_error_iff.1 hstep⟩
  · intro line address hencode
    exact h.last address (by rw [hencode]; rfl)
  · intro attempt hmem error herror
    have hfails := (h.fails attempt hmem error herror).1
    cases hencode : p.encode with
    | ok image =>
      rw [hencode] at hfails
      cases hfails
    | error d =>
      rw [hencode] at hfails
      exact ⟨d.line, by rw [← Except.error.inj hfails]⟩
  · intro source hsource s hmem
    obtain ⟨n, hn, rfl⟩ := Encoder.exists_mem_of_step_mem_attemptsAll hmem
    obtain ⟨l, hl, rfl⟩ := Except.map_eq_ok_iff.1 hsource
    have hdesc := Layout.describes_of_addLines hl
    rw [hdesc.statements_eq] at hn
    exact Numbered.exists_step_of_advanceAll hdesc.counter_eq hn

/-- Three bytes of which the last one is behind the memory: its write is the last attempt.
And a location counter that is set to no number, in statements that no first pass has been over. -/
theorem encode_errors_honest_at_end :
    let p : Program := ⟨{}, [⟨0, .directive .org "14".toList⟩,
      ⟨1, .directive .byte "1, 2, 3".toList⟩, ⟨2, .instruction .hlt []⟩]⟩
    let q : Program := ⟨{}, [⟨0, .directive .org "-1".toList⟩]⟩
    ofSource [".org 14".toList, ".byte 1, 2, 3".toList, "hlt".toList] = .ok p ∧
    p.encode = .error ⟨1, .addressOutOfRange 16⟩ ∧
    (∃ earlier, p.attempts = earlier ++ [.write 16] ∧ .write 15 ∈ earlier ∧
      ∀ a, .write a ∈ earlier → a < memorySize) ∧
    Number.add? 14 2 = some 16 ∧
    (∃ next, Step.apply 0 (.jump 14) = .ok next) ∧
    (∃ step, (Statement.directive .org "14".toList).step = .ok step) ∧
    (∃ operand, Statement.directive .org "-1".toList = .directive .org operand ∧
      Number.parse operand = .error (.notANumber "-1".toList)) ∧
    ∃ line, q.encode = .error ⟨line, .notANumber "-1".toList⟩ := by
  intro p q
  have hsource : ofSource [".org 14".toList, ".byte 1, 2, 3".toList, "hlt".toList] = .ok p := by
    decide +kernel
  have hencode : p.encode = .error ⟨1, .addressOutOfRange 16⟩ := by decide +kernel
  have hattempts : p.attempts = [.step (.directive .org "14".toList), .move 0 (.jump 14),
      .sum 14 0, .write 14, .sum 14 1, .write 15, .sum 14 2, .write 16] := by decide +kernel
  have hattempt : q.attempts = [.step (.directive .org "-1".toList)] := by decide +kernel
  have hstep : (Statement.directive .org "-1".toList).step =
      .error (.notANumber "-1".toList) := by decide +kernel
  obtain ⟨hsum, hmove, -, hlast, -, hpassed⟩ := encode_errors_honest p
  obtain ⟨-, -, horg, -, hfails, -⟩ := encode_errors_honest q
  obtain ⟨-, earlier, hend, hearlier⟩ := hlast 1 16 hencode
  refine ⟨hsource, hencode, ⟨earlier, hend, ?_, hearlier⟩, ?_, ?_, ?_, ?_, ?_⟩
  · have hmem : .write 15 ∈ earlier ++ [.write 16] := by
      rw [← hend, hattempts]
      decide +kernel
    simpa using hmem
  · exact hsum 14 2 (by simp [hattempts])
  · exact hmove 0 (.jump 14) (by simp [hattempts])
  · exact hpassed _ hsource _ (by simp [hattempts])
  · exact horg _ _ (by simp [hattempt]) hstep
  · refine hfails _ (hattempt ▸ List.mem_singleton_self _) _ ?_
    rw [Attempt.error?, hstep]
    rfl

end Program

end SapOne

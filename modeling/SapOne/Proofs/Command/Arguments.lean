import SapOne.Command.Options
import SapOne.Proofs.Outcome

set_option relaxedAutoImplicit false
set_option autoImplicit false

/-!
# Arguments with and without a listing

The option `--dump` asks for a listing and for nothing else. This module compares the reading of
arguments with the option and without it: where one is a valid request, the other one is the same
request, but for the listing.

The option has one effect on the arguments around it: it ends an option `--output` before it,
whose value is checked at once and not only later. A check that is made early has the same result
as one that is made late.

## Main definitions

* `SapOne.ArgumentState.readAll` — reads arguments and makes the last check.
* `SapOne.ArgumentState.Lawful` — a step that treats the option as it should.
* `SapOne.Request.AddsDump` — arguments without the option, and with it at one place.

## Main results

* `SapOne.ArgumentState.Marked.bind` — two runs that differ in the option, step by step.
* `SapOne.ArgumentState.readAll_of_settle` — a check that is made early changes nothing.
* `SapOne.Request.AddsDump.ofArguments_iff` — the option adds a listing to a request.
* `SapOne.Request.exists_addsDump` — every request for a listing comes from the option.
-/

namespace SapOne

namespace ArgumentState

/-- Notes the request for a listing. -/
def mark (st : ArgumentState) : ArgumentState := { st with dump := true }

/-! ## Two runs that differ in the request for a listing -/

/-- What a step leaves as it is: a listing stays requested, and nothing but `--` ends the
options. -/
structure Follows (st s : ArgumentState) : Prop where
  dump : st.dump = true → s.dump = true
  operandsOnly : s.operandsOnly = st.operandsOnly

/-- The results of two runs, where the second one starts with a listing requested. They agree but
for the request, unless the first one asks for a listing itself: then the second one asks for it
twice. -/
inductive Marked : Except Stop ArgumentState → Except Stop ArgumentState → Prop
  | error (e e' : Stop) : Marked (.error e) (.error e')
  | ok {s : ArgumentState} (h : s.dump = false) : Marked (.ok s) (.ok s.mark)
  | repeated {s : ArgumentState} (h : s.dump = true) (e : Stop) : Marked (.ok s) (.error e)

/-- Marked runs go on as marked runs. -/
lemma Marked.bind {x y : Except Stop ArgumentState}
    {f : ArgumentState → Except Stop ArgumentState} (h : Marked x y)
    (hf : ∀ s, s.dump = false → Marked (f s) (f s.mark))
    (hkeep : ∀ s r, f s = .ok r → s.dump = true → r.dump = true) :
    Marked (x >>= f) (y >>= f) := by
  cases h with
  | error e e' => exact .error e e'
  | ok h => exact hf _ h
  | @repeated s h e =>
    show Marked (f s) (.error e)
    cases hs : f s with
    | error e' => exact .error e' e
    | ok r => exact .repeated (hkeep s r hs h) e

/-- The run that starts with a listing requested succeeds exactly if the other one does without
asking for a listing. -/
lemma Marked.eq_ok_iff {x y : Except Stop ArgumentState} (h : Marked x y) {s' : ArgumentState} :
    y = .ok s' ↔ ∃ s, x = .ok s ∧ s.dump = false ∧ s' = s.mark := by
  cases h with
  | error e e' => simp
  | @ok s h =>
    constructor
    · rintro ⟨⟩
      exact ⟨s, rfl, h, rfl⟩
    · rintro ⟨_, ⟨⟩, -, rfl⟩
      rfl
  | repeated h e => simp [h]

/-- A step that treats the option as it should: it keeps a request for a listing, and does the
same with it as without it. -/
structure Lawful (f : ArgumentState → Except Stop ArgumentState) : Prop where
  follows : ∀ {st s : ArgumentState}, f st = .ok s → Follows st s
  marked : ∀ {st : ArgumentState}, st.dump = false → Marked (f st) (f st.mark)

namespace Lawful

variable {f g : ArgumentState → Except Stop ArgumentState}

/-- A step that always fails is lawful. -/
lemma error (e : Stop) : Lawful fun _ => .error e where
  follows h := by cases h
  marked _ := .error e e

/-- A step that sets other fields. -/
lemma update (u : ArgumentState → ArgumentState) (hdump : ∀ st, (u st).dump = st.dump)
    (honly : ∀ st, (u st).operandsOnly = st.operandsOnly) (hmark : ∀ st, u st.mark = (u st).mark) :
    Lawful fun st => .ok (u st) where
  follows h := by
    cases h
    exact ⟨fun h => (hdump _).trans h, honly _⟩
  marked {st} h := by
    rw [hmark]
    exact .ok ((hdump st).trans h)

/-- Two lawful steps one after the other are lawful. -/
lemma bind (hf : Lawful f) (hg : Lawful g) : Lawful fun st => f st >>= g where
  follows {st s} h := by
    obtain ⟨m, hm, hs⟩ := Except.bind_eq_ok_iff.1 h
    have hfirst := hf.follows hm
    have hsecond := hg.follows hs
    exact ⟨fun h => hsecond.dump (hfirst.dump h),
      hsecond.operandsOnly.trans hfirst.operandsOnly⟩
  marked h := (hf.marked h).bind (fun _ => hg.marked) fun _ _ hr => (hg.follows hr).dump

/-- A step that does different things in different states, the request for a listing apart. -/
lemma of_cases (h : ∀ st : ArgumentState, ∃ g, Lawful g ∧ f st = g st ∧ f st.mark = g st.mark) :
    Lawful f where
  follows {st _} hs := by
    obtain ⟨g, hg, hst, -⟩ := h st
    exact hg.follows (hst ▸ hs)
  marked {st} hst := by
    obtain ⟨g, hg, hsame, hmark⟩ := h st
    rw [hsame, hmark]
    exact hg.marked hst

end Lawful

/-- Noting the name of the output file is lawful. -/
lemma lawful_setOutput (value : Text) : Lawful fun st => st.setOutput value := by
  refine .of_cases fun st => ?_
  cases hout : st.output with
  | none =>
    exact ⟨fun st => .ok { st with output := some value, pending := .none },
      .update _ (fun _ => rfl) (fun _ => rfl) (fun _ => rfl), by simp only [setOutput, hout],
      by simp only [setOutput, mark, hout]⟩
  | some first =>
    exact ⟨fun _ => .error (.usage (.repeated .output)), .error _, by simp only [setOutput, hout],
      by simp only [setOutput, mark, hout]⟩

/-- The outstanding check is lawful. -/
lemma lawful_settle : Lawful settle := by
  refine .of_cases fun st => ?_
  cases hpending : st.pending with
  | none =>
    exact ⟨.ok, .update id (fun _ => rfl) (fun _ => rfl) (fun _ => rfl),
      by simp only [settle, hpending], by simp only [settle, mark, hpending]⟩
  | awaiting =>
    exact ⟨fun _ => .error (.usage .missingValue), .error _, by simp only [settle, hpending],
      by simp only [settle, mark, hpending]⟩
  | value v =>
    exact ⟨fun st => st.setOutput v, lawful_setOutput v, by simp only [settle, hpending],
      by simp only [settle, mark, hpending]⟩

/-- Taking a flag is lawful. -/
lemma lawful_takeFlag (flag : Flag) : Lawful fun st => st.takeFlag flag := by
  refine lawful_settle.bind ?_
  cases flag with
  | help => exact .error _
  | version => exact .error _
  | dump =>
    refine ⟨?_, ?_⟩
    · intro st s h
      by_cases hdump : st.dump = true
      · simp [hdump] at h
      · simp only [hdump] at h
        cases h
        exact ⟨fun _ => rfl, rfl⟩
    · intro st h
      simp only [h, mark]
      exact .repeated rfl _

/-- Taking the option for the output file is lawful. -/
lemma lawful_takeOutput (value : Option Text) : Lawful fun st => st.takeOutput value := by
  refine lawful_settle.bind ?_
  cases value with
  | none => exact .update _ (fun _ => rfl) (fun _ => rfl) (fun _ => rfl)
  | some v => exact lawful_setOutput v

/-- Taking an operand is lawful. -/
lemma lawful_takeOperand (argument : Text) : Lawful fun st => st.takeOperand argument := by
  refine .of_cases fun st => ?_
  cases hinput : st.input with
  | none =>
    exact ⟨fun st => st.settle >>= fun st => .ok { st with input := some argument },
      lawful_settle.bind (.update _ (fun _ => rfl) (fun _ => rfl) (fun _ => rfl)),
      by simp only [takeOperand, hinput], by simp only [takeOperand, mark, hinput]⟩
  | some first =>
    exact ⟨fun _ => .error (.usage (.unexpectedArgument argument)), .error _,
      by simp only [takeOperand, hinput], by simp only [takeOperand, mark, hinput]⟩

/-- Taking an option by its long name is lawful. -/
lemma lawful_takeLong (name : Text) (value : Option Text) :
    Lawful fun st => st.takeLong name value := by
  unfold takeLong
  split
  · exact .error _
  · exact .error _
  · exact lawful_takeFlag _
  · exact lawful_takeOutput _

/-- Each name in a group is a step of its own. -/
lemma lawful_takeShort (group : Text) : Lawful fun st => st.takeShort group := by
  induction group with
  | nil => exact .update id (fun _ => rfl) (fun _ => rfl) (fun _ => rfl)
  | cons c rest ih =>
    unfold takeShort
    split
    · exact .error _
    · exact (lawful_takeFlag _).bind ih
    · split <;> exact lawful_takeOutput _

/-- Taking a word, as a value or as an operand, is lawful. -/
lemma lawful_takeWord (argument : Text) : Lawful fun st => st.takeWord argument := by
  refine .of_cases fun st => ?_
  by_cases hpending : st.pending = .awaiting
  · exact ⟨fun st => .ok { st with pending := .value argument },
      .update _ (fun _ => rfl) (fun _ => rfl) (fun _ => rfl), by simp only [takeWord, hpending],
      by simp only [takeWord, mark, hpending]⟩
  · exact ⟨fun st => st.takeOperand argument, lawful_takeOperand argument, by simp only [takeWord],
      by simp only [takeWord, mark]⟩

/-! ## Checks that are made early -/

/-- A step that first checks an option `--output` that is still to be checked. -/
def ChecksFirst (f : ArgumentState → Except Stop ArgumentState) : Prop :=
  ∀ ⦃st settled : ArgumentState⦄, st.settle = .ok settled → f st = f settled

/-- A check that succeeds records the value it has checked, if there is one, and nothing else. -/
lemma settle_eq_ok {st settled : ArgumentState} (h : st.settle = .ok settled) :
    (st.pending = .none ∧ settled = st) ∨
      ∃ v, st.pending = .value v ∧ settled = { st with output := some v, pending := .none } := by
  unfold settle at h
  split at h
  · next hpending =>
    cases h
    exact .inl ⟨hpending, rfl⟩
  · cases h
  · next v hpending =>
    unfold setOutput at h
    split at h
    · cases h
    · cases h
      exact .inr ⟨v, hpending, rfl⟩

/-- Where nothing is pending, the check changes nothing. -/
lemma settle_of_pending {st : ArgumentState} (h : st.pending = .none) : st.settle = .ok st := by
  simp only [settle, h]

/-- Nothing is left to be checked after a check. -/
lemma settle_settled {st settled : ArgumentState} (h : st.settle = .ok settled) :
    settled.settle = .ok settled := by
  rcases settle_eq_ok h with ⟨hpending, rfl⟩ | ⟨v, -, rfl⟩
  · exact h
  · exact settle_of_pending rfl

/-- A step that begins with the outstanding check makes it first. -/
lemma checksFirst_bind_settle (f : ArgumentState → Except Stop ArgumentState) :
    ChecksFirst fun st => st.settle >>= f := by
  intro st settled h
  simp only [h, settle_settled h]

/-- Taking an operand makes the outstanding check first. -/
lemma checksFirst_takeOperand (argument : Text) :
    ChecksFirst fun st => st.takeOperand argument := by
  intro st settled h
  have hinput : settled.input = st.input := by
    rcases settle_eq_ok h with ⟨-, rfl⟩ | ⟨v, -, rfl⟩ <;> rfl
  simp only [takeOperand, hinput, h, settle_settled h]

/-- Taking an option by its long name makes the outstanding check first. -/
lemma checksFirst_takeLong (name : Text) (value : Option Text) :
    ChecksFirst fun st => st.takeLong name value := by
  intro st settled h
  simp only [takeLong]
  split
  · rfl
  · rfl
  · exact checksFirst_bind_settle _ h
  · exact checksFirst_bind_settle _ h

/-- Taking options by their letters makes the outstanding check first. -/
lemma checksFirst_takeShort (c : Char) (rest : Text) :
    ChecksFirst fun st => st.takeShort (c :: rest) := by
  intro st settled h
  simp only [takeShort]
  split
  · rfl
  · next f _ => rw [show st.takeFlag f = settled.takeFlag f from checksFirst_bind_settle _ h]
  · split <;> exact checksFirst_bind_settle _ h

/-- Taking a word makes the outstanding check first. -/
lemma checksFirst_takeWord (argument : Text) : ChecksFirst fun st => st.takeWord argument := by
  intro st settled h
  have hst : st.takeWord argument = st.takeOperand argument := by
    rcases settle_eq_ok h with ⟨hpending, -⟩ | ⟨v, hpending, -⟩ <;>
      simp only [takeWord, hpending]
  have hsettled : settled.takeWord argument = settled.takeOperand argument := by
    rcases settle_eq_ok (settle_settled h) with ⟨hpending, -⟩ | ⟨v, hpending, -⟩ <;>
      simp only [takeWord, hpending]
  simp only [hst, hsettled, checksFirst_takeOperand argument h]

/-! ## One argument -/

/-- The argument that ends the options. -/
def optionsEnd : Text := ['-', '-']

/-- Behind the end of the options, every argument is an operand. -/
lemma take_of_operandsOnly {st : ArgumentState} (h : st.operandsOnly = true) (argument : Text) :
    st.take argument = st.takeOperand argument := by
  unfold take
  rw [if_pos h]

/-- The end of the options is noted, and nothing else. -/
lemma take_optionsEnd {st : ArgumentState} (h : st.operandsOnly = false) :
    st.take optionsEnd = .ok { st with operandsOnly := true } := by
  simp [take, optionsEnd, h]

/-- An argument that begins with two dashes is an option with a long name, and with a value if there
is an equals sign. -/
lemma take_long {st : ArgumentState} (h : st.operandsOnly = false) {option : Text}
    (hoption : option ≠ []) :
    st.take ('-' :: '-' :: option) =
      match option.dropWhile (· ≠ '=') with
      | [] => st.takeLong option none
      | _ :: value => st.takeLong (option.takeWhile (· ≠ '=')) (some value) := by
  unfold take
  rw [if_neg (by simp [h])]
  cases option with
  | nil => exact absurd rfl hoption
  | cons c rest => rfl

/-- An argument that begins with one dash is a row of letters. -/
lemma take_short {st : ArgumentState} (h : st.operandsOnly = false) {c : Char} (hc : c ≠ '-')
    (rest : Text) : st.take ('-' :: c :: rest) = st.takeShort (c :: rest) := by
  unfold take
  simp [h, hc]

/-- A single dash, and an argument that does not begin with a dash, is a word. -/
lemma take_word {st : ArgumentState} (h : st.operandsOnly = false) {argument : Text}
    (hword : argument = ['-'] ∨ argument.head? ≠ some '-') :
    st.take argument = st.takeWord argument := by
  match argument with
  | [] => simp [take, h]
  | [c] => by_cases hc : c = '-' <;> simp [take, h, hc]
  | c :: c' :: rest =>
    have hc : c ≠ '-' := by simpa using hword
    simp [take, h, hc]

/-- While options are taken, an argument ends them, or is a long option, a group of short ones, or
a word. This depends on its text alone. -/
lemma take_shape (argument : Text) :
    argument = optionsEnd ∨
    (∃ name value, (value = none → argument = '-' :: '-' :: name) ∧
      ∀ st : ArgumentState, st.operandsOnly = false → st.take argument = st.takeLong name value) ∨
    (∃ c rest, argument = '-' :: c :: rest ∧
      ∀ st : ArgumentState, st.operandsOnly = false → st.take argument = st.takeShort (c :: rest)) ∨
    ∀ st : ArgumentState, st.operandsOnly = false → st.take argument = st.takeWord argument := by
  by_cases hword : argument = ['-'] ∨ argument.head? ≠ some '-'
  · exact .inr (.inr (.inr fun st h => take_word h hword))
  obtain ⟨hminus, hhead⟩ := not_or.1 hword
  match argument with
  | [] => simp at hhead
  | [c] => simp_all
  | c :: c' :: rest =>
    obtain rfl : c = '-' := by simpa using hhead
    by_cases hc' : c' = '-'
    · subst hc'
      by_cases hrest : rest = []
      · exact .inl (by rw [hrest, optionsEnd])
      refine .inr (.inl ?_)
      cases hvalue : rest.dropWhile (· ≠ '=') with
      | nil => exact ⟨rest, none, fun _ => rfl, fun st h => by rw [take_long h hrest, hvalue]⟩
      | cons e value =>
        exact ⟨rest.takeWhile (· ≠ '='), some value, by simp,
          fun st h => by rw [take_long h hrest, hvalue]⟩
    · exact .inr (.inr (.inl ⟨c', rest, rfl, fun st h => take_short h hc' rest⟩))

/-- Unless an argument ends the options, it is a lawful step that makes the outstanding check
first. -/
lemma take_cases (argument : Text) (only : Bool) :
    (∃ step, Lawful step ∧ ChecksFirst step ∧
      ∀ st : ArgumentState, st.operandsOnly = only → st.take argument = step st) ∨
    argument = optionsEnd ∧ only = false := by
  cases only with
  | true =>
    exact .inl ⟨_, lawful_takeOperand argument, checksFirst_takeOperand argument,
      fun st h => take_of_operandsOnly h argument⟩
  | false =>
    rcases take_shape argument with hend | ⟨name, value, -, h⟩ | ⟨c, rest, -, h⟩ | h
    · exact .inr ⟨hend, rfl⟩
    · exact .inl ⟨_, lawful_takeLong name value, checksFirst_takeLong name value, h⟩
    · exact .inl ⟨_, lawful_takeShort (c :: rest), checksFirst_takeShort c rest, h⟩
    · exact .inl ⟨_, lawful_takeWord argument, checksFirst_takeWord argument, h⟩

/-- The end of the options does not hide what is still to be checked. -/
lemma settle_operandsOnly {st settled : ArgumentState} (h : st.settle = .ok settled) :
    { st with operandsOnly := true }.settle = .ok { settled with operandsOnly := true } := by
  obtain ⟨input, output, dump, pending, operandsOnly⟩ := st
  cases pending with
  | none =>
    cases h
    rfl
  | awaiting => cases h
  | value v =>
    cases output with
    | none =>
      cases h
      rfl
    | some first => cases h

/-- One argument treats a request for a listing as it should. -/
lemma marked_take {st : ArgumentState} (h : st.dump = false) (argument : Text) :
    Marked (st.take argument) (st.mark.take argument) := by
  rcases take_cases argument st.operandsOnly with ⟨step, hlawful, -, htake⟩ | ⟨rfl, honly⟩
  · rw [htake st rfl, htake st.mark rfl]
    exact hlawful.marked h
  · have hmark : st.mark.take optionsEnd = .ok { st.mark with operandsOnly := true } :=
      take_optionsEnd honly
    rw [take_optionsEnd honly, hmark]
    exact .ok (s := { st with operandsOnly := true }) h

/-- After one argument, a listing stays requested. -/
lemma dump_stays_of_take {st s : ArgumentState} {argument : Text} (h : st.take argument = .ok s)
    (hdump : st.dump = true) : s.dump = true := by
  rcases take_cases argument st.operandsOnly with ⟨step, hlawful, -, htake⟩ | ⟨rfl, honly⟩
  · rw [htake st rfl] at h
    exact (hlawful.follows h).dump hdump
  · rw [take_optionsEnd honly] at h
    cases h
    exact hdump

/-- Only the argument made for it ends the options. -/
lemma operandsOnly_of_take {st s : ArgumentState} {argument : Text}
    (hend : argument ≠ optionsEnd) (h : st.take argument = .ok s) :
    s.operandsOnly = st.operandsOnly := by
  rcases take_cases argument st.operandsOnly with ⟨step, hlawful, -, htake⟩ | ⟨rfl, -⟩
  · rw [htake st rfl] at h
    exact (hlawful.follows h).operandsOnly
  · exact absurd rfl hend

/-- After the end of the options there are operands only. -/
lemma operandsOnly_of_take_optionsEnd {st s : ArgumentState} (h : st.take optionsEnd = .ok s) :
    s.operandsOnly = true := by
  cases honly : st.operandsOnly with
  | true =>
    rw [take_of_operandsOnly honly] at h
    rw [((lawful_takeOperand optionsEnd).follows h).operandsOnly, honly]
  | false =>
    rw [take_optionsEnd honly] at h
    cases h
    rfl

/-! ## Whole lists of arguments -/

/-- Reads arguments from a state on, and checks at the end what is still to be checked. -/
def readAll (st : ArgumentState) (arguments : List Text) : Except Stop ArgumentState :=
  arguments.foldlM take st >>= settle

/-- Without arguments there is only the last check. -/
lemma readAll_nil (st : ArgumentState) : st.readAll [] = st.settle := rfl

/-- The first arguments are taken, and then the others are read. -/
lemma readAll_append (st : ArgumentState) (before after : List Text) :
    st.readAll (before ++ after) = (before.foldlM take st >>= fun s => s.readAll after) := by
  rw [readAll, List.foldlM_append, bind_assoc]
  rfl

/-- The first argument is taken, and then the others are read. -/
lemma readAll_cons (st : ArgumentState) (argument : Text) (rest : List Text) :
    st.readAll (argument :: rest) = (st.take argument >>= fun s => s.readAll rest) := by
  rw [readAll, List.foldlM_cons, bind_assoc]
  rfl

/-- Arguments without the one made for it do not end the options. -/
lemma operandsOnly_of_foldlM {before : List Text} (hend : optionsEnd ∉ before)
    {st s : ArgumentState} (h : before.foldlM take st = .ok s) :
    s.operandsOnly = st.operandsOnly := by
  induction before generalizing st with
  | nil =>
    cases h
    rfl
  | cons argument rest ih =>
    obtain ⟨m, hm, hrest⟩ := Except.bind_eq_ok_iff.1 h
    rw [List.mem_cons, not_or] at hend
    exact (ih hend.2 hrest).trans (operandsOnly_of_take (Ne.symm hend.1) hm)

/-- After any arguments, a listing stays requested. -/
lemma dump_stays_of_readAll {st s : ArgumentState} {arguments : List Text}
    (h : st.readAll arguments = .ok s) (hdump : st.dump = true) : s.dump = true := by
  induction arguments generalizing st with
  | nil => exact (lawful_settle.follows h).dump hdump
  | cons argument rest ih =>
    rw [readAll_cons] at h
    obtain ⟨m, hm, hrest⟩ := Except.bind_eq_ok_iff.1 h
    exact ih hrest (dump_stays_of_take hm hdump)

/-- Any arguments treat a request for a listing as they should. -/
lemma marked_readAll {st : ArgumentState} (h : st.dump = false) (arguments : List Text) :
    Marked (st.readAll arguments) (st.mark.readAll arguments) := by
  induction arguments generalizing st with
  | nil => exact lawful_settle.marked h
  | cons argument rest ih =>
    rw [readAll_cons, readAll_cons]
    exact (marked_take h argument).bind (fun _ => ih) fun _ _ => dump_stays_of_readAll

/-- **A check that is made early changes nothing.**

**Proof sketch.** Induction on the arguments. The next one makes the same check, whatever it is,
or is the end of the options, which leaves it to the arguments behind it. -/
lemma readAll_of_settle {st settled : ArgumentState} (h : st.settle = .ok settled)
    (arguments : List Text) : st.readAll arguments = settled.readAll arguments := by
  induction arguments generalizing st settled with
  | nil => rw [readAll_nil, readAll_nil, h, settle_settled h]
  | cons argument rest ih =>
    have hsame : settled.operandsOnly = st.operandsOnly := (lawful_settle.follows h).operandsOnly
    rw [readAll_cons, readAll_cons]
    rcases take_cases argument st.operandsOnly with ⟨step, -, hchecks, htake⟩ | ⟨rfl, honly⟩
    · rw [htake st rfl, htake settled hsame, hchecks h]
    · rw [take_optionsEnd honly, take_optionsEnd (hsame.trans honly)]
      exact ih (settle_operandsOnly h)

/-- Asking for a listing first and then going on: the request must not have been made before, and
is not made again. -/
lemma takeFlag_dump_bind_eq_ok_iff {k : ArgumentState → Except Stop ArgumentState}
    (hmarked : ∀ s, s.dump = false → Marked (k s) (k s.mark))
    (hkeep : ∀ s r, k s = .ok r → s.dump = true → r.dump = true) {st s' : ArgumentState} :
    (st.takeFlag .dump >>= k) = .ok s' ↔
      ∃ settled s, st.settle = .ok settled ∧ k settled = .ok s ∧ s.dump = false ∧ s' = s.mark := by
  unfold takeFlag
  cases hsettle : st.settle with
  | error e =>
    constructor
    · rintro ⟨⟩
    · rintro ⟨_, _, ⟨⟩, -⟩
  | ok settled =>
    show ((if settled.dump = true then _ else .ok settled.mark) >>= k) = _ ↔ _
    by_cases hdump : settled.dump = true
    · rw [if_pos hdump]
      constructor
      · rintro ⟨⟩
      · rintro ⟨_, s, ⟨⟩, hs, hnot, -⟩
        rw [hkeep _ s hs hdump] at hnot
        cases hnot
    · rw [if_neg hdump]
      show k settled.mark = _ ↔ _
      rw [(hmarked settled (by simpa using hdump)).eq_ok_iff]
      constructor
      · rintro ⟨s, hs⟩
        exact ⟨settled, s, rfl, hs⟩
      · rintro ⟨_, s, ⟨⟩, hs⟩
        exact ⟨s, hs⟩

/-! ## Where a listing is asked for -/

/-- The outstanding check does not ask for a listing. -/
lemma dump_eq_of_settle {st s : ArgumentState} (h : st.settle = .ok s) : s.dump = st.dump := by
  rcases settle_eq_ok h with ⟨-, rfl⟩ | ⟨v, -, rfl⟩ <;> rfl

/-- The option for the output file does not ask for a listing. -/
lemma dump_eq_of_takeOutput {st s : ArgumentState} {value : Option Text}
    (h : st.takeOutput value = .ok s) : s.dump = st.dump := by
  obtain ⟨m, hm, h⟩ := Except.bind_eq_ok_iff.1 h
  rw [← dump_eq_of_settle hm]
  cases value with
  | none =>
    cases h
    rfl
  | some v =>
    simp only [setOutput] at h
    split at h <;> cases h
    rfl

/-- An operand does not ask for a listing. -/
lemma dump_eq_of_takeOperand {st s : ArgumentState} {argument : Text}
    (h : st.takeOperand argument = .ok s) : s.dump = st.dump := by
  unfold takeOperand at h
  split at h
  · cases h
  · obtain ⟨m, hm, h⟩ := Except.bind_eq_ok_iff.1 h
    rw [← dump_eq_of_settle hm]
    cases h
    rfl

/-- A word does not ask for a listing. -/
lemma dump_eq_of_takeWord {st s : ArgumentState} {argument : Text}
    (h : st.takeWord argument = .ok s) : s.dump = st.dump := by
  unfold takeWord at h
  split at h
  · cases h
    rfl
  · exact dump_eq_of_takeOperand h

/-- The only flag after which reading goes on is the one for a listing. -/
lemma flag_of_takeFlag {st s : ArgumentState} {flag : Flag} (h : st.takeFlag flag = .ok s) :
    flag = .dump := by
  obtain ⟨m, -, h⟩ := Except.bind_eq_ok_iff.1 h
  cases flag with
  | help => cases h
  | version => cases h
  | dump => rfl

/-- The flag for a listing has one long name. -/
lemma eq_dump_of_ofLong? {name : Text} (h : OptionName.ofLong? name = some (.flag .dump)) :
    name = "dump".toList := by
  unfold OptionName.ofLong? at h
  split at h
  · assumption
  · repeat' split at h
    all_goals simp at h

/-- The flag for a listing has one letter. -/
lemma eq_d_of_ofShort? {c : Char} (h : OptionName.ofShort? c = some (.flag .dump)) : c = 'd' := by
  unfold OptionName.ofShort? at h
  split at h
  · rfl
  all_goals simp at h

/-- A long option that makes a request for a listing is the option `--dump`. -/
lemma name_of_takeLong {st s : ArgumentState} {name : Text} {value : Option Text}
    (h : st.takeLong name value = .ok s) (hst : st.dump = false) (hs : s.dump = true) :
    value = none ∧ name = "dump".toList := by
  unfold takeLong at h
  split at h
  · cases h
  · cases h
  · next f hname =>
    rw [flag_of_takeFlag h] at hname
    exact ⟨rfl, eq_dump_of_ofLong? hname⟩
  · rw [dump_eq_of_takeOutput h, hst] at hs
    cases hs

/-- A group of short options that makes a request for a listing begins with the option. -/
lemma head_of_takeShort {st s : ArgumentState} {c : Char} {rest : Text}
    (h : st.takeShort (c :: rest) = .ok s) (hst : st.dump = false) (hs : s.dump = true) :
    c = 'd' ∧ rest.head? ≠ some '-' := by
  unfold takeShort at h
  split at h
  · cases h
  · next f hname =>
    obtain ⟨m, hm, hrest⟩ := Except.bind_eq_ok_iff.1 h
    rw [flag_of_takeFlag hm] at hname
    refine ⟨eq_d_of_ofShort? hname, ?_⟩
    intro hhead
    obtain ⟨tail, rfl⟩ := List.head?_eq_some_iff.1 hhead
    cases hrest
  · split at h <;>
    · rw [dump_eq_of_takeOutput h, hst] at hs
      cases hs

end ArgumentState

/-! ## Requests -/

namespace Request

open ArgumentState

/-- Arguments are a request to assemble exactly if they can all be read. -/
lemma ofArguments_eq_assemble_iff {arguments : List Text} {o : Options} :
    ofArguments arguments = .assemble o ↔ ∃ st, readAll {} arguments = .ok st ∧ st.finish = o := by
  rw [ofArguments, readAll]
  cases arguments.foldlM take {} >>= settle with
  | ok st => simp
  | error stop => cases stop <;> simp

/-- Arguments, and the same ones with the option `--dump` in front: as an argument of its own, or
as the first name in a group. -/
inductive AddsDump : List Text → List Text → Prop
  | argument {option : Text} (h : option ∈ ["--dump".toList, "-d".toList]) (after : List Text) :
    AddsDump after (option :: after)
  | group {c : Char} (h : c ≠ '-') (rest : Text) (after : List Text) :
    AddsDump (('-' :: c :: rest) :: after) (('-' :: 'd' :: c :: rest) :: after)

/-- With the option, a listing is requested and everything else goes on as without it. -/
lemma AddsDump.exists_rest {arguments arguments' : List Text} (h : AddsDump arguments arguments') :
    ∃ k : ArgumentState → Except Stop ArgumentState,
      (∀ s, s.dump = false → Marked (k s) (k s.mark)) ∧
      (∀ s r, k s = .ok r → s.dump = true → r.dump = true) ∧
      ∀ st : ArgumentState, st.operandsOnly = false →
        st.readAll arguments' = (st.takeFlag .dump >>= k) ∧
        ∀ settled, st.settle = .ok settled → st.readAll arguments = k settled := by
  cases h with
  | @argument option hoption after =>
    refine ⟨fun s => s.readAll arguments, fun s hs => marked_readAll hs _,
      fun s r => dump_stays_of_readAll, ?_⟩
    intro st honly
    have htake : st.take option = st.takeFlag .dump := by
      simp only [List.mem_cons, List.not_mem_nil, or_false] at hoption
      rcases hoption with rfl | rfl
      · rw [show "--dump".toList = '-' :: '-' :: "dump".toList from rfl, take_long honly (by simp)]
        rfl
      · rw [show "-d".toList = ['-', 'd'] from rfl, take_short honly (by decide)]
        show (st.takeFlag .dump >>= fun st => .ok st) = _
        exact bind_pure _
    rw [readAll_cons, htake]
    exact ⟨rfl, fun settled hsettle => readAll_of_settle hsettle _⟩
  | @group c hc rest after =>
    have hlawful := lawful_takeShort (c :: rest)
    refine ⟨fun s => s.takeShort (c :: rest) >>= fun s => s.readAll after, ?_, ?_, ?_⟩
    · intro s hs
      exact (hlawful.marked hs).bind (fun _ hm => marked_readAll hm after)
        fun _ _ => dump_stays_of_readAll
    · intro s r hr hs
      obtain ⟨m, hm, hrest⟩ := Except.bind_eq_ok_iff.1 hr
      exact dump_stays_of_readAll hrest ((hlawful.follows hm).dump hs)
    · intro st honly
      rw [readAll_cons, readAll_cons, take_short honly (by decide), take_short honly hc]
      refine ⟨?_, ?_⟩
      · show (st.takeFlag .dump >>= fun s => s.takeShort (c :: rest)) >>= _ = _
        rw [bind_assoc]
      · intro settled hsettle
        have hsame : st.takeShort (c :: rest) = settled.takeShort (c :: rest) :=
          checksFirst_takeShort c rest hsettle
        rw [hsame]

/-- The option adds a listing to what is read, wherever it stands before the end of the options
and the arguments before it are complete. -/
lemma AddsDump.readAll_iff {before arguments arguments' : List Text}
    (h : AddsDump arguments arguments') (hend : optionsEnd ∉ before) {s' : ArgumentState} :
    readAll {} (before ++ arguments') = .ok s' ↔
      (∃ st, readAll {} before = .ok st) ∧
      ∃ s, readAll {} (before ++ arguments) = .ok s ∧ s.dump = false ∧ s' = s.mark := by
  obtain ⟨k, hmarked, hkeep, hrest⟩ := h.exists_rest
  rw [readAll_append, readAll_append, readAll]
  cases hbefore : before.foldlM take {} with
  | error e => 
    constructor
    · rintro ⟨⟩
    · rintro ⟨⟨_, ⟨⟩⟩, -⟩
  | ok b =>
    obtain ⟨hwith, hwithout⟩ := hrest b (operandsOnly_of_foldlM hend hbefore)
    show b.readAll arguments' = .ok s' ↔ (∃ st, b.settle = .ok st) ∧
      ∃ s, b.readAll arguments = .ok s ∧ s.dump = false ∧ s' = s.mark
    rw [hwith, takeFlag_dump_bind_eq_ok_iff hmarked hkeep]
    constructor
    · rintro ⟨settled, s, hsettle, hs, hdump⟩
      exact ⟨⟨settled, hsettle⟩, s, (hwithout settled hsettle).trans hs, hdump⟩
    · rintro ⟨⟨settled, hsettle⟩, s, hs, hdump⟩
      exact ⟨settled, s, hsettle, (hwithout settled hsettle).symm.trans hs, hdump⟩

/-- **The option adds a listing to a request, and nothing else.** -/
theorem AddsDump.ofArguments_iff {before arguments arguments' : List Text}
    (h : AddsDump arguments arguments') (hend : optionsEnd ∉ before) {o : Options} :
    ofArguments (before ++ arguments') = .assemble o ↔
      (∃ o', ofArguments before = .assemble o') ∧ o.dump = true ∧
      ofArguments (before ++ arguments) = .assemble { o with dump := false } := by
  simp only [ofArguments_eq_assemble_iff, h.readAll_iff hend]
  constructor
  · rintro ⟨_, ⟨⟨st, hst⟩, s, hs, hdump, rfl⟩, rfl⟩
    refine ⟨⟨_, st, hst, rfl⟩, rfl, s, hs, ?_⟩
    simp only [finish, mark, hdump]
  · rintro ⟨⟨_, st, hst, -⟩, hdump, s, hs, hfinish⟩
    have hinput : s.finish.input = o.input := by rw [hfinish]
    have houtput : s.finish.output = o.output := by rw [hfinish]
    have hnot : s.dump = false := congrArg Options.dump hfinish
    exact ⟨s.mark, ⟨⟨st, hst⟩, s, hs, hnot, rfl⟩, Options.ext hinput houtput hdump.symm⟩

/-- An argument that makes a request for a listing is the option, alone or in a group, before the
end of the options. -/
lemma exists_addsDump_of_take {st s : ArgumentState} {argument : Text}
    (h : st.take argument = .ok s) (hst : st.dump = false) (hs : s.dump = true)
    (after : List Text) :
    st.operandsOnly = false ∧ ∃ arguments, AddsDump arguments (argument :: after) := by
  cases honly : st.operandsOnly with
  | true =>
    rw [take_of_operandsOnly honly] at h
    rw [dump_eq_of_takeOperand h, hst] at hs
    cases hs
  | false =>
    refine ⟨rfl, ?_⟩
    rcases take_shape argument with
      rfl | ⟨name, value, hlong, htake⟩ | ⟨c, rest, rfl, htake⟩ | htake
    · rw [take_optionsEnd honly] at h
      cases h
      rw [hst] at hs
      cases hs
    · rw [htake st honly] at h
      obtain ⟨hvalue, rfl⟩ := name_of_takeLong h hst hs
      rw [hlong hvalue]
      exact ⟨after, .argument (by simp) after⟩
    · rw [htake st honly] at h
      obtain ⟨rfl, hrest⟩ := head_of_takeShort h hst hs
      cases rest with
      | nil => exact ⟨after, .argument (by simp) after⟩
      | cons c rest =>
        -- the letter is taken out of a row of letters, and the row stays
        exact ⟨_, .group (by simpa using hrest) rest after⟩
    · rw [htake st honly] at h
      rw [dump_eq_of_takeWord h, hst] at hs
      cases hs

/-- Induction on the arguments: the one that makes the request is the first one, or it is among the
others, and then the first one does not end the options. -/
lemma exists_addsDump_of_readAll {arguments : List Text} {st s : ArgumentState}
    (h : st.readAll arguments = .ok s) (hst : st.dump = false) (hs : s.dump = true) :
    st.operandsOnly = false ∧ ∃ before rest rest', arguments = before ++ rest' ∧
      AddsDump rest rest' ∧ optionsEnd ∉ before := by
  induction arguments generalizing st with
  | nil =>
    rw [dump_eq_of_settle h, hst] at hs
    cases hs
  | cons argument after ih =>
    rw [readAll_cons] at h
    obtain ⟨m, hm, hafter⟩ := Except.bind_eq_ok_iff.1 h
    cases hdump : m.dump with
    | true =>
      obtain ⟨honly, rest, hadds⟩ := exists_addsDump_of_take hm hst hdump after
      exact ⟨honly, [], rest, argument :: after, rfl, hadds, by simp⟩
    | false =>
      obtain ⟨honly, before, rest, rest', rfl, hadds, hend⟩ := ih hafter hdump
      have hne : argument ≠ optionsEnd := by
        rintro rfl
        rw [operandsOnly_of_take_optionsEnd hm] at honly
        cases honly
      rw [operandsOnly_of_take hne hm] at honly
      refine ⟨honly, argument :: before, rest, rest', rfl, hadds, ?_⟩
      rw [List.mem_cons, not_or]
      exact ⟨Ne.symm hne, hend⟩

/-- Every request for a listing comes from the option at some place. -/
theorem exists_addsDump {arguments : List Text} {o : Options}
    (h : ofArguments arguments = .assemble o) (hdump : o.dump = true) :
    ∃ before rest rest', arguments = before ++ rest' ∧ AddsDump rest rest' ∧
      optionsEnd ∉ before := by
  obtain ⟨s, hs, rfl⟩ := ofArguments_eq_assemble_iff.1 h
  exact (exists_addsDump_of_readAll hs rfl hdump).2

end Request

end SapOne

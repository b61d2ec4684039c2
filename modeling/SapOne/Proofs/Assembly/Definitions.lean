import Mathlib.Data.Finset.Dedup
import Mathlib.Data.Finset.Card
import SapOne.Proofs.Assembly.Layout

set_option relaxedAutoImplicit false
set_option autoImplicit false

/-!
# First definitions

A symbol table is filled and asked in any order: definitions that succeed, definitions that are
refused, and questions of all kinds may follow each other. Whatever happened, the table is a
function of the definitions that were asked for so far: for each name the first one counts, and all
later ones are as if they had not been asked for.

## Main definitions

* `SapOne.Symbols.Call`, `SapOne.Symbols.perform` — what a table can be asked, and what it does.
* `SapOne.Symbols.after` — a new table after calls one after the other.
* `SapOne.Symbols.firsts` — of all definitions the first one of each name.

## Main results

* `SapOne.Symbols.find?_firsts` — a name is found with its first definition.
* `SapOne.Symbols.toList_perform` — one call keeps the table in agreement with the definitions.
* `SapOne.Symbols.toList_after` — and so do calls one after the other.
* `SapOne.Symbols.keeps_first_definitions` — what a table answers after any calls.
-/

namespace SapOne.Symbols

/-! ## Calls -/

/-- A call of a symbol table. -/
inductive Call where
  /-- Bind the name of a label. -/
  | define (s : Symbol)
  /-- Is there an address for a name, and which one? -/
  | address (name : Text)
  /-- What is the address of a name that has to be bound? -/
  | resolve (name : Text)
  /-- How many labels are there? -/
  | size
  /-- Which labels are there? -/
  | list
deriving DecidableEq

/-- What a symbol table answers. -/
inductive Reply where
  | defined (result : Except Error Unit)
  | address (result : Option Nat)
  | resolved (result : Except Error Nat)
  | size (n : Nat)
  | list (labels : List Symbol)
deriving DecidableEq

/-- The answer to a call, and the table after it. -/
def perform (t : Symbols) : Call → Reply × Symbols
  | .define s =>
    match t.define s.name s.line s.address with
    | .ok u => (.defined (.ok ()), u)
    | .error e => (.defined (.error e), t)
  | .address name => (.address (t.address? name), t)
  | .resolve name => (.resolved (t.resolve name), t)
  | .size => (.size t.size, t)
  | .list => (.list t.toList, t)

/-- A new table after calls one after the other. -/
def after (calls : List Call) : Symbols :=
  calls.foldl (fun t call => (t.perform call).2) empty

/-- The definition that a call asks for. -/
def Call.definition? : Call → Option Symbol
  | define s => some s
  | _ => none

/-- The definitions that calls ask for, in their order, whether they are refused or not. -/
def definitions (calls : List Call) : List Symbol :=
  calls.filterMap Call.definition?

/-! ## First definitions -/

/-- The first definition of a name. -/
def firstOf (history : List Symbol) (name : Text) : Option Symbol :=
  history.find? (·.name = name)

/-- The definitions of a history before which there is none with the same name. -/
def firsts (history : List Symbol) : List Symbol :=
  (history.zipIdx.filter fun (s, k) => s.name ∉ (history.take k).map Symbol.name).map Prod.fst

/-- One more definition counts if its name is new. -/
lemma firsts_concat (history : List Symbol) (s : Symbol) :
    firsts (history ++ [s]) =
      firsts history ++ if s.name ∈ history.map Symbol.name then [] else [s] := by
  have hearlier : history.zipIdx.filter
        (fun (x, k) => x.name ∉ ((history ++ [s]).take k).map Symbol.name) =
      history.zipIdx.filter fun (x, k) => x.name ∉ (history.take k).map Symbol.name := by
    apply List.filter_congr
    intro x hx
    obtain ⟨x, k⟩ := x
    have hk : k < history.length :=
      (List.getElem?_eq_some_iff.1 (List.mem_zipIdx_iff_getElem?.1 hx)).1
    dsimp only
    rw [List.take_append_of_le_length (by omega)]
  have hlast : [s].zipIdx (0 + history.length) = [(s, history.length)] := by simp
  rw [firsts, List.zipIdx_append, List.filter_append, List.map_append, hearlier, hlast,
    List.filter_singleton]
  dsimp only
  rw [List.take_left]
  by_cases hs : s.name ∈ history.map Symbol.name
  · simp [hs, firsts]
  · simp [hs, firsts]

/-- **A name is found with its first definition.** -/
lemma find?_firsts (history : List Symbol) (name : Text) :
    (firsts history).find? (·.name = name) = firstOf history name := by
  unfold firstOf
  induction history using List.reverseRecOn with
  | nil => rfl
  | append_singleton history s ih =>
    rw [firsts_concat, List.find?_append, List.find?_append, ih]
    by_cases hs : s.name ∈ history.map Symbol.name
    · rw [if_pos hs]
      by_cases hname : s.name = name
      · -- an earlier definition has the name as well, and is the one that is found
        obtain ⟨x, hx, hsame⟩ := List.mem_map.1 hs
        have hsome : (history.find? (·.name = name)).isSome = true := by
          rw [List.find?_isSome]
          exact ⟨x, hx, by simp [hsame, hname]⟩
        rw [Option.or_of_isSome hsome, Option.or_of_isSome hsome]
      · simp [hname]
    · rw [if_neg hs]

/-- A name has no first definition exactly if it was never defined. -/
lemma firstOf_eq_none_iff {history : List Symbol} {name : Text} :
    firstOf history name = none ↔ name ∉ history.map Symbol.name := by
  simp [firstOf]

/-- The first definitions have all names that were ever defined. -/
lemma mem_names_firsts_iff {history : List Symbol} {name : Text} :
    name ∈ (firsts history).map Symbol.name ↔ name ∈ history.map Symbol.name := by
  have hnone : firstOf (firsts history) name = firstOf history name := find?_firsts history name
  rw [← not_iff_not, ← firstOf_eq_none_iff, ← firstOf_eq_none_iff, hnone]

/-- No name has two first definitions. -/
lemma nodup_names_firsts (history : List Symbol) : ((firsts history).map Symbol.name).Nodup := by
  induction history using List.reverseRecOn with
  | nil => exact List.nodup_nil
  | append_singleton history s ih =>
    rw [firsts_concat]
    by_cases hs : s.name ∈ history.map Symbol.name
    · rw [if_pos hs, List.append_nil]
      exact ih
    · rw [if_neg hs, List.map_append, List.map_singleton, List.nodup_append]
      refine ⟨ih, List.nodup_singleton _, ?_⟩
      intro name hname other hother hsame
      rw [List.mem_singleton.1 hother] at hsame
      rw [hsame] at hname
      exact hs (mem_names_firsts_iff.1 hname)

/-- There are as many first definitions as different names. -/
lemma length_firsts (history : List Symbol) :
    (firsts history).length = (history.map Symbol.name).toFinset.card := by
  have hnames : ((firsts history).map Symbol.name).toFinset =
      (history.map Symbol.name).toFinset := by
    ext name
    rw [List.mem_toFinset, List.mem_toFinset, mem_names_firsts_iff]
  rw [← hnames, List.toFinset_card_of_nodup (nodup_names_firsts history), List.length_map]

/-! ## One call and many -/

variable {t : Symbols} {history : List Symbol}

/-- A table of the first definitions finds the first definition of every name. -/
lemma find?_of_toList (h : t.toList = firsts history) (name : Text) :
    t.find? name = firstOf history name := by
  rw [find?, h, find?_firsts]

/-- A definition of a new name is appended; any other is refused with the line of the first one, and
leaves the table as it is. -/
lemma perform_define (h : t.toList = firsts history) (s : Symbol) :
    t.perform (.define s) =
      match firstOf history s.name with
      | none => (.defined (.ok ()), ⟨t.toList ++ [s]⟩)
      | some first => (.defined (.error (.redefinedLabel s.name first.line)), t) := by
  rw [perform, define, find?_of_toList h]
  cases firstOf history s.name <;> rfl

/-- **One call** keeps the table in agreement with the definitions that were asked for. -/
theorem toList_perform (h : t.toList = firsts history) (call : Call) :
    (t.perform call).2.toList = firsts (history ++ call.definition?.toList) := by
  cases call with
  | define s =>
    rw [perform_define h, Call.definition?, Option.toList_some, firsts_concat]
    cases hfirst : firstOf history s.name with
    | none =>
      rw [if_neg (firstOf_eq_none_iff.1 hfirst), h]
    | some first =>
      have hs : s.name ∈ history.map Symbol.name := by
        by_contra hs
        rw [firstOf_eq_none_iff.2 hs] at hfirst
        cases hfirst
      rw [if_pos hs, List.append_nil, h]
  | address name => simpa [perform, Call.definition?] using h
  | resolve name => simpa [perform, Call.definition?] using h
  | size => simpa [perform, Call.definition?] using h
  | list => simpa [perform, Call.definition?] using h

/-- **Calls one after the other** leave the first definition of each name. -/
theorem toList_after (calls : List Call) : (after calls).toList = firsts (definitions calls) := by
  induction calls using List.reverseRecOn with
  | nil => rfl
  | append_singleton calls call ih =>
    have hdefinitions : definitions (calls ++ [call]) =
        definitions calls ++ call.definition?.toList := by
      rw [definitions, List.filterMap_append]
      cases h : call.definition? <;> simp [definitions, h]
    rw [hdefinitions, ← toList_perform ih call, after, List.foldl_append]
    rfl

/-! ## Answers -/

/-- **A symbol table keeps first definitions, through any run.** Take a new table, any calls one
after the other, and one call more. The names in the table are pairwise distinct. A definition
succeeds exactly if no definition before it had the same name; otherwise it is refused with the line
of the first one and leaves the table as it is. The address of a name is that of its first
definition. The labels are the first definitions in the order in which they were asked for, and
their number is the number of distinct names. Questions do not change the table. -/
theorem keeps_first_definitions (calls : List Call) :
    ((after calls).toList.map Symbol.name).Nodup ∧
    (∀ s : Symbol,
      (((after calls).perform (.define s)).1 = .defined (.ok ()) ↔
        s.name ∉ (definitions calls).map Symbol.name) ∧
      (s.name ∈ (definitions calls).map Symbol.name →
        ∃ first, firstOf (definitions calls) s.name = some first ∧
          (after calls).perform (.define s) =
            (.defined (.error (.redefinedLabel s.name first.line)), after calls))) ∧
    (∀ name, (after calls).perform (.address name) =
      (.address ((firstOf (definitions calls) name).map Symbol.address), after calls)) ∧
    (∀ name first, firstOf (definitions calls) name = some first →
      (after calls).perform (.resolve name) = (.resolved (.ok first.address), after calls)) ∧
    (∀ name, name ∉ (definitions calls).map Symbol.name →
      (after calls).perform (.resolve name) =
        (.resolved (.error (.undefinedLabel name)), after calls)) ∧
    (after calls).perform .list = (.list (firsts (definitions calls)), after calls) ∧
    (after calls).perform .size =
      (.size ((definitions calls).map Symbol.name).toFinset.card, after calls) := by
  have htable := toList_after calls
  generalize after calls = t at htable
  generalize definitions calls = history at htable
  have hfind := find?_of_toList htable
  refine ⟨?_, ?_, ?_, ?_, ?_, ?_, ?_⟩
  · rw [htable]
    exact nodup_names_firsts history
  · intro s
    rw [perform_define htable, ← firstOf_eq_none_iff]
    cases hfirst : firstOf history s.name with
    | none => exact ⟨by simp, fun hs => absurd hs (firstOf_eq_none_iff.1 hfirst)⟩
    | some first => exact ⟨by simp, fun _ => ⟨first, rfl, rfl⟩⟩
  · intro name
    rw [perform, address?, hfind]
  · intro name first hfirst
    rw [perform, resolve, address?, hfind, hfirst]
    rfl
  · intro name hname
    rw [perform, resolve, address?, hfind, firstOf_eq_none_iff.2 hname]
    rfl
  · rw [perform, htable]
  · rw [perform, size, htable, length_firsts]

/-- Two names that differ in the case of letters, and a second definition of one of them. -/
theorem keeps_first_definitions_of_two_spellings :
    ∃ calls : List Call,
      calls = [.define ⟨"one".toList, 2, 1⟩, .define ⟨"ONE".toList, 3, 5⟩, .size,
        .define ⟨"one".toList, 7, 9⟩] ∧
      (after calls).perform (.define ⟨"one".toList, 8, 8⟩) =
        (.defined (.error (.redefinedLabel "one".toList 2)), after calls) ∧
      (after calls).perform (.resolve "one".toList) = (.resolved (.ok 1), after calls) ∧
      (after calls).perform (.resolve "One".toList) =
        (.resolved (.error (.undefinedLabel "One".toList)), after calls) ∧
      (after calls).perform .list =
        (.list [⟨"one".toList, 2, 1⟩, ⟨"ONE".toList, 3, 5⟩], after calls) := by
  refine ⟨_, rfl, ?_⟩
  generalize hcalls : ([.define ⟨"one".toList, 2, 1⟩, .define ⟨"ONE".toList, 3, 5⟩, .size,
    .define ⟨"one".toList, 7, 9⟩] : List Call) = calls
  have hhistory : definitions calls =
      [⟨"one".toList, 2, 1⟩, ⟨"ONE".toList, 3, 5⟩, ⟨"one".toList, 7, 9⟩] := by
    rw [← hcalls]
    rfl
  obtain ⟨-, hdefine, -, hresolve, hundefined, hlist, -⟩ := keeps_first_definitions calls
  rw [hhistory] at hdefine hresolve hundefined hlist
  refine ⟨?_, hresolve _ ⟨"one".toList, 2, 1⟩ rfl, hundefined _ (by decide), hlist⟩
  obtain ⟨first, hfirst, hrefused⟩ := (hdefine ⟨"one".toList, 8, 8⟩).2 (by decide)
  cases hfirst
  exact hrefused

end SapOne.Symbols

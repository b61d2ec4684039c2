import SapOne.Source.Operand

set_option relaxedAutoImplicit false
set_option autoImplicit false

/-!
# Symbol tables

A symbol table binds the labels of a source program to addresses, in the order of their
definitions. A name is bound once: a second definition is refused and changes nothing.

## Main definitions

* `SapOne.Symbols` — the bindings, in the order in which they were made.
* `SapOne.Symbols.define` — binds a new name.
* `SapOne.Symbols.address?`, `SapOne.Symbols.resolve` — the address of a name.
* `SapOne.Operand.resolve` — the value of an operand.
-/

namespace SapOne

/-- A label, the line that defines it and its address. -/
@[ext]
structure Symbol where
  /-- The name, in which the case of letters matters. -/
  name : Text
  /-- The defining line, counted from zero. -/
  line : Nat
  /-- The address it stands for. -/
  address : Nat
deriving DecidableEq

/-- The labels of a source program, in the order of their definitions. -/
@[ext]
structure Symbols where
  /-- The labels in this order. -/
  toList : List Symbol := []
deriving DecidableEq

namespace Symbols

/-- The table without any label. -/
def empty : Symbols := ⟨[]⟩

/-- The label with a given name. -/
def find? (t : Symbols) (name : Text) : Option Symbol :=
  t.toList.find? (·.name = name)

/-- The address of a name. -/
def address? (t : Symbols) (name : Text) : Option Nat :=
  (t.find? name).map Symbol.address

/-- The number of labels. -/
def size (t : Symbols) : Nat :=
  t.toList.length

/-- Whether there are no labels. -/
def isEmpty (t : Symbols) : Bool :=
  t.toList.isEmpty

/-- Binds a name that has no binding yet. -/
def define (t : Symbols) (name : Text) (line address : Nat) : Except Error Symbols :=
  match t.find? name with
  | some first => .error (.redefinedLabel name first.line)
  | none => .ok ⟨t.toList ++ [⟨name, line, address⟩]⟩

/-- The address of a name that has to be bound. -/
def resolve (t : Symbols) (name : Text) : Except Error Nat :=
  match t.address? name with
  | some a => .ok a
  | none => .error (.undefinedLabel name)

/-- In the empty table no name is bound. -/
@[simp]
theorem find?_empty (name : Text) : empty.find? name = none := rfl

/-- A definition is seen under its own name and under no other. -/
theorem find?_define {t u : Symbols} {name : Text} {line address : Nat}
    (h : t.define name line address = .ok u) (x : Text) :
    u.find? x = if x = name then some ⟨name, line, address⟩ else t.find? x := by
  unfold define at h
  split at h
  · cases h
  · next hn =>
    cases h
    by_cases hx : x = name
    · subst hx
      simp only [find?] at hn
      simp [find?, List.find?_append, hn]
    · have : ¬ name = x := fun e => hx e.symm
      simp [find?, List.find?_append, hx, this]

end Symbols

/-- The value of an operand: the number itself, or the address of the label. -/
def Operand.resolve (t : Symbols) : Operand → Except Error Nat
  | literal n => .ok n
  | symbol name => t.resolve name

end SapOne

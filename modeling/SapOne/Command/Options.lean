import SapOne.Text.Control

set_option relaxedAutoImplicit false
set_option autoImplicit false

/-!
# The command line

The arguments are read from left to right, and the first request for help or for the version, or
the first mistake, decides. The option `--output` takes a value, which may be the next argument;
whether it has one, and whether it is the first of its kind, is only checked once another option
or operand begins. A mistake in the argument at hand that no other option can mend (an option
that does not exist, a value where none belongs, an operand too many) comes before that check.

## Main definitions

* `SapOne.Options` — what a run of the assembler is asked to do.
* `SapOne.UsageError` — a mistake in the arguments.
* `SapOne.Request` — what the arguments ask for.
* `SapOne.Request.ofArguments` — reads the arguments.
-/

namespace SapOne

/-- What a run of the assembler is asked to do. -/
@[ext]
structure Options where
  /-- The file with the source program. -/
  input : Text := "main.s".toList
  /-- The file for the memory image. -/
  output : Text := "out.hex".toList
  /-- Whether to print a listing. -/
  dump : Bool := false
deriving DecidableEq

/-- The options without an operand. -/
inductive Flag where
  /-- Print a listing. -/
  | dump
  /-- Print the help text and stop. -/
  | help
  /-- Print the version and stop. -/
  | version
deriving DecidableEq

/-- The options of the program. -/
inductive OptionName where
  /-- An option without a value. -/
  | flag (flag : Flag)
  /-- The option that names the output file. -/
  | output
deriving DecidableEq

namespace OptionName

/-- The option with a given long name. -/
def ofLong? (name : Text) : Option OptionName :=
  if name = "dump".toList then some (flag .dump)
  else if name = "help".toList then some (flag .help)
  else if name = "version".toList then some (flag .version)
  else if name = "output".toList then some output
  else none

/-- The option with a given short name. -/
def ofShort? : Char → Option OptionName
  | 'd' => some (flag .dump)
  | 'h' => some (flag .help)
  | 'V' => some (flag .version)
  | 'o' => some output
  | _ => none

/-- The option as messages name it. -/
def shown : OptionName → String
  | flag .dump => "--dump"
  | flag .help => "--help"
  | flag .version => "--version"
  | output => "--output <OUTPUT>"

end OptionName

/-- A mistake in the arguments. -/
inductive UsageError where
  /-- An option that does not exist, or an operand too many. -/
  | unexpectedArgument (argument : Text)
  /-- A value given to a flag. -/
  | unexpectedValue (value : Text) (flag : Flag)
  /-- The option `--output` without a value. -/
  | missingValue
  /-- An option given twice. -/
  | repeated (option : OptionName)
deriving DecidableEq

/-- What the user is told. Control sequences in the arguments are not repeated. -/
def UsageError.message : UsageError → String
  | unexpectedArgument argument =>
    "error: unexpected argument '" ++ String.ofList (Control.strip argument) ++ "' found"
  | unexpectedValue value flag =>
    "error: unexpected value '" ++ String.ofList (Control.strip value) ++ "' for '" ++
      (OptionName.flag flag).shown ++ "' found; no more were expected"
  | missingValue =>
    "error: a value is required for '" ++ OptionName.output.shown ++ "' but none was supplied"
  | repeated option => "error: the argument '" ++ option.shown ++ "' cannot be used multiple times"

/-- What ends the reading of the arguments early. -/
inductive Stop where
  /-- The help text is asked for. -/
  | help
  /-- The version is asked for. -/
  | version
  /-- There is a mistake. -/
  | usage (error : UsageError)
deriving DecidableEq

/-- The state of an option `--output` whose value was not given in the same argument. -/
inductive Pending where
  /-- There is no such option. -/
  | none
  /-- The value is still to come. -/
  | awaiting
  /-- The value was the next argument. -/
  | value (value : Text)
deriving DecidableEq

/-- The arguments read so far. -/
@[ext]
structure ArgumentState where
  /-- The operand. -/
  input : Option Text := .none
  /-- The value of `--output`, once checked. -/
  output : Option Text := .none
  /-- Whether `--dump` was given. -/
  dump : Bool := false
  /-- The option `--output` that is still to be checked. -/
  pending : Pending := .none
  /-- Whether `--` was met, so that only operands can follow. -/
  operandsOnly : Bool := false
deriving DecidableEq

namespace ArgumentState

/-- Records the value of `--output`, which can be given once. -/
def setOutput (st : ArgumentState) (value : Text) : Except Stop ArgumentState :=
  match st.output with
  | some _ => .error (.usage (.repeated .output))
  | none => .ok { st with output := some value, pending := .none }

/-- Checks the option `--output` that is still to be checked. -/
def settle (st : ArgumentState) : Except Stop ArgumentState :=
  match st.pending with
  | .none => .ok st
  | .awaiting => .error (.usage .missingValue)
  | .value v => st.setOutput v

/-- Takes a flag. -/
def takeFlag (st : ArgumentState) (flag : Flag) : Except Stop ArgumentState := do
  let st ← st.settle
  match flag with
  | .help => .error .help
  | .version => .error .version
  | .dump =>
    if st.dump then .error (.usage (.repeated (.flag .dump))) else .ok { st with dump := true }

/-- Takes the option `--output`, with its value if that is part of the argument. -/
def takeOutput (st : ArgumentState) (value : Option Text) : Except Stop ArgumentState := do
  let st ← st.settle
  match value with
  | some v => st.setOutput v
  | none => .ok { st with pending := .awaiting }

/-- Takes an operand. -/
def takeOperand (st : ArgumentState) (argument : Text) : Except Stop ArgumentState :=
  match st.input with
  | some _ => .error (.usage (.unexpectedArgument argument))
  | none => do
    let st ← st.settle
    .ok { st with input := some argument }

/-- Takes an option by its long name, with the value behind the equals sign if there is one. -/
def takeLong (st : ArgumentState) (name : Text) (value : Option Text) :
    Except Stop ArgumentState :=
  match OptionName.ofLong? name, value with
  | none, _ => .error (.usage (.unexpectedArgument ('-' :: '-' :: name)))
  | some (.flag f), some v => .error (.usage (.unexpectedValue v f))
  | some (.flag f), none => st.takeFlag f
  | some .output, _ => st.takeOutput value

/-- Takes a group of options by their short names. The rest of the group behind the name of
`--output`, if there is any, is its value; an equals sign in front of the value is dropped. -/
def takeShort (st : ArgumentState) : Text → Except Stop ArgumentState
  | [] => .ok st
  | c :: rest =>
    match OptionName.ofShort? c with
    | none => .error (.usage (.unexpectedArgument ['-', c]))
    | some (.flag f) => do
      let st ← st.takeFlag f
      st.takeShort rest
    | some .output =>
      match rest with
      | [] => st.takeOutput none
      | '=' :: value => st.takeOutput (some value)
      | value => st.takeOutput (some value)

/-- Takes an argument that is no option: the value that `--output` waits for, or an operand. -/
def takeWord (st : ArgumentState) (argument : Text) : Except Stop ArgumentState :=
  match st.pending with
  | .awaiting => .ok { st with pending := .value argument }
  | _ => st.takeOperand argument

/-- Takes one argument. A single minus sign is no option. -/
def take (st : ArgumentState) (argument : Text) : Except Stop ArgumentState :=
  if st.operandsOnly then st.takeOperand argument
  else
    match argument with
    | ['-', '-'] => .ok { st with operandsOnly := true }
    | '-' :: '-' :: option =>
      match option.dropWhile (· ≠ '=') with
      | [] => st.takeLong option none
      | _ :: value => st.takeLong (option.takeWhile (· ≠ '=')) (some value)
    | ['-'] => st.takeWord argument
    | '-' :: group => st.takeShort group
    | _ => st.takeWord argument

/-- The options that all arguments together ask for. -/
def finish (st : ArgumentState) : Options where
  input := st.input.getD ({} : Options).input
  output := st.output.getD ({} : Options).output
  dump := st.dump

end ArgumentState

/-- What the arguments ask for. -/
inductive Request where
  /-- Print the help text. -/
  | help
  /-- Print the version. -/
  | version
  /-- Complain about the arguments. -/
  | complain (error : UsageError)
  /-- Assemble a source program. -/
  | assemble (options : Options)
deriving DecidableEq

/-- Reads the arguments of the program. -/
def Request.ofArguments (arguments : List Text) : Request :=
  match arguments.foldlM ArgumentState.take {} >>= ArgumentState.settle with
  | .ok st => .assemble st.finish
  | .error .help => .help
  | .error .version => .version
  | .error (.usage e) => .complain e

end SapOne

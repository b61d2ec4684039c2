import SapOne.Text.Numeral

set_option relaxedAutoImplicit false
set_option autoImplicit false

/-!
# Errors

What can be wrong with a source program or with the files of a run, and what the user is told.
Lines of a source are counted from zero in values and from one in messages.

## Main definitions

* `SapOne.Fault` — what the operating system objects to.
* `SapOne.FileError` — a file operation that failed.
* `SapOne.Error` — every error of the assembler, with `Error.message` and `Error.cause?`.
-/

namespace SapOne

/-- What the operating system objects to in a file operation. -/
inductive Fault where
  /-- There is no such file. -/
  | notFound
  /-- A file stands where the path needs a directory. -/
  | notADirectory
  /-- A directory stands where the path needs a file. -/
  | isADirectory
  /-- The device is full. -/
  | noSpace
  /-- The path, or a name in it, is longer than a path or a name can be. -/
  | nameTooLong
  /-- The bytes are not a text. -/
  | invalidText
  /-- Anything else, in the system's own words. -/
  | other (message : String)
deriving DecidableEq

/-- The words in which a fault is reported. -/
def Fault.message : Fault → String
  | notFound => "No such file or directory (os error 2)"
  | notADirectory => "Not a directory (os error 20)"
  | isADirectory => "Is a directory (os error 21)"
  | noSpace => "No space left on device (os error 28)"
  | nameTooLong => "File name too long (os error 36)"
  | invalidText => "stream did not contain valid UTF-8"
  | other message => message

/-- A file operation that failed. -/
inductive FileError where
  /-- The file could not be opened for reading. -/
  | opening (path : Text) (fault : Fault)
  /-- The opened file could not be read. -/
  | reading (fault : Fault)
  /-- The file could not be created, or emptied if it was there. -/
  | creating (path : Text) (fault : Fault)
  /-- The created file could not be written. -/
  | writing (path : Text) (fault : Fault)
deriving DecidableEq

namespace FileError

/-- The operation that failed, in words. -/
def message : FileError → String
  | opening path _ => "Failed to open file: " ++ String.ofList path
  | reading _ => "Failed to read line"
  | creating path _ => "Failed to create file: " ++ String.ofList path
  | writing path _ => "Failed to write file: " ++ String.ofList path

/-- Why it failed. -/
def fault : FileError → Fault
  | opening _ fault | reading fault | creating _ fault | writing _ fault => fault

end FileError

/-- An error of the assembler. -/
inductive Error where
  /-- A dot and a keyword that is no directive. -/
  | unknownDirective (keyword : Text)
  /-- A mnemonic that is no operation. -/
  | unknownOperation (mnemonic : Text)
  /-- A text of no known shape. -/
  | malformed (text : Text)
  /-- An operand is needed and there is none. -/
  | missingArgument
  /-- A numeral is needed, and this is none or denotes too large a number. -/
  | notANumber (text : Text)
  /-- A name that no line defines. -/
  | undefinedLabel (name : Text)
  /-- A name that the line `first` has defined already. -/
  | redefinedLabel (name : Text) (first : Nat)
  /-- An address outside the memory. -/
  | addressOutOfRange (address : Nat)
  /-- An operand whose value needs more than four bits. -/
  | operandOutOfRange (text : Text) (value : Nat)
  /-- An item whose value needs more than eight bits. -/
  | byteOutOfRange (text : Text) (value : Nat)
  /-- A file operation failed. -/
  | file (error : FileError)
deriving DecidableEq

namespace Error

/-- A piece of the source between back quotes. -/
def quoted (text : Text) : String :=
  "`" ++ String.ofList text ++ "`"

/-- What the user is told. -/
def message : Error → String
  | unknownDirective keyword => "Unknown directive: " ++ quoted ('.' :: keyword)
  | unknownOperation mnemonic => "Unknown operation: " ++ quoted mnemonic
  | malformed text => "Syntax Error: Cannot parse " ++ quoted text
  | missingArgument => "More argument required"
  | notANumber text => "Cannot parse " ++ quoted text ++ " as number"
  | undefinedLabel name => "Undefined label: " ++ quoted name
  | redefinedLabel name first =>
    "Re-defined label: " ++ quoted name ++ " (first defined at line " ++
      toString (first + 1) ++ ")"
  | addressOutOfRange address =>
    "Address out of range: 0x" ++ String.ofList (Numeral.upperHex address) ++
      " is outside memory 0x0-0xF"
  | operandOutOfRange text value =>
    "Operand out of range: " ++ quoted text ++ " is " ++ toString value ++
      ", which does not fit in 4 bits"
  | byteOutOfRange text value =>
    "Byte out of range: " ++ quoted text ++ " is " ++ toString value ++
      ", which does not fit in 8 bits"
  | file error => error.message

/-- The reason behind the error, for a file operation that failed. -/
def cause? : Error → Option String
  | file error => some error.fault.message
  | _ => none

end Error

end SapOne

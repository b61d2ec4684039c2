import SapOne.Command.Session

set_option relaxedAutoImplicit false
set_option autoImplicit false

/-!
# The program

The command line program: a run of the assembler on the files of the machine it runs on.

## Main definitions

* `SapOne.Fault.ofSystem` — the fault behind an error of the operating system.
* `main` — the program.
-/

namespace SapOne

/-- The fault behind an error of the operating system. -/
def Fault.ofSystem : IO.Error → Fault
  | .noFileOrDirectory .. => .notFound
  | .inappropriateType _ 20 _ => .notADirectory
  | .inappropriateType _ 21 _ => .isADirectory
  | .resourceExhausted _ 28 _ => .noSpace
  | .invalidArgument _ 36 _ => .nameTooLong
  | e => .other (toString e)

/-- Runs an action, and reports its failure as a file operation that failed. -/
def tryFile {α : Type} (blame : Fault → FileError) (action : IO α) : IO (Except FileError α) := do
  try
    return .ok (← action)
  catch e =>
    return .error (blame (Fault.ofSystem e))

/-- The files of the machine that the program runs on. -/
instance : FileAccess IO where
  read path := do
    match ← tryFile (.opening path) (IO.FS.Handle.mk (String.ofList path) .read) with
    | .error e => return .error e
    | .ok handle => tryFile .reading handle.readBinToEnd
  write path content := do
    match ← tryFile (.creating path) (IO.FS.Handle.mk (String.ofList path) .write) with
    | .error e => return .error e
    | .ok handle => tryFile (.writing path) do
        handle.write content
        handle.flush

end SapOne

open SapOne in
/-- Runs the assembler. The environment variable `RUST_LOG` says how many progress messages
are wanted. -/
def main (arguments : List String) : IO UInt32 := do
  let setting ← IO.getEnv "RUST_LOG"
  let outcome ← (Session.run (arguments.map String.toList) : IO Outcome)
  IO.print outcome.printed
  for line in outcome.errorLines (.ofSetting (setting.map String.toList)) do
    IO.eprintln (String.ofList line)
  return outcome.status.toUInt32

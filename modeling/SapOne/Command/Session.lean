import SapOne.Assembly.Listing
import SapOne.Command.Disk
import SapOne.Command.Log
import SapOne.Command.Options

set_option relaxedAutoImplicit false
set_option autoImplicit false

/-!
# Runs of the program

A run reads the arguments, reads the source program, assembles it, prints the listing if it was
asked for, and writes the memory image. The output file is touched only after everything else
went well.

## Main definitions

* `SapOne.Outcome` — what a run prints and returns.
* `SapOne.decodeSource` — the lines of a source file.
* `SapOne.Session.run` — a run of the program.
* `SapOne.Disk.session` — a run on the files of a disk.
-/

namespace SapOne

/-- The help text. -/
def helpText : String :=
  "sapasm 0.1.0\n" ++
  "  Assembler for the SAP-1 breadboard CPU\n" ++
  "\n" ++
  "Usage:\n" ++
  "  sapasm [OPTIONS] [INPUT]\n" ++
  "\n" ++
  "Arguments:\n" ++
  "  [INPUT]  Input file [default: main.s]\n" ++
  "\n" ++
  "Options:\n" ++
  "  -o, --output <OUTPUT>  Output file [default: out.hex]\n" ++
  "  -d, --dump             Dump listing\n" ++
  "  -h, --help             Print help\n" ++
  "  -V, --version          Print version\n"

/-- The text that names the version. -/
def versionText : String := "sapasm 0.1.0\n"

/-- What a run prints and returns. -/
structure Outcome where
  /-- The exit status. -/
  status : Nat := 0
  /-- What is printed. -/
  printed : String := ""
  /-- The mistake in the arguments, if there is one. -/
  complaint : Option UsageError := none
  /-- The progress messages. -/
  log : List Log.Entry := []

/-- The lines on the error channel: the first line of the complaint, if there is one, and the
progress messages that are wanted. -/
def Outcome.errorLines (v : Log.Verbosity) (o : Outcome) : List Text :=
  o.complaint.toList.flatMap (fun e => (Text.lines e.message.toList).take 1) ++
    Text.lines (Log.written v o.log)

/-- The report of a file operation that failed. -/
def FileError.printed (e : FileError) : String :=
  printLines
    [[errorTag, .plain (": " ++ e.message)],
      [.plain "  ", .colored .blue "caused by", .plain (": " ++ e.fault.message)]]

/-- The lines of a source file, which has to be a text in UTF-8 throughout. -/
def decodeSource (content : ByteArray) : Except FileError (List Text) :=
  match String.fromUTF8? content with
  | some text => .ok (Text.lines text.toList)
  | none => .error (.reading .invalidText)

/-- The content of the output file. -/
def Image.toFile (m : Image) : ByteArray :=
  (String.ofList m.toHex).toUTF8

/-- The listing as it is printed. -/
def Assembly.printedListing (source : List Text) (a : Assembly) : String :=
  String.join ((a.listing source).map (· ++ "\n"))

namespace Session

variable {m : Type → Type} [Monad m] [FileAccess m]

/-- Assembles the source program of a file. -/
def assemble (o : Options) : m Outcome := do
  let log := [⟨.info, "1. Read ".toList ++ o.input⟩]
  match (← FileAccess.read o.input) >>= decodeSource with
  | .error e => return { status := 1, printed := e.printed, log }
  | .ok source =>
    let log := log ++
      [⟨.debug, Numeral.decimal source.length ++ " lines".toList⟩, ⟨.info, "2. Assemble".toList⟩]
    match Assembly.ofSource source with
    | .error d => return { status := 1, printed := d.printed o.input source, log }
    | .ok a =>
      let log := log ++
        [⟨.debug, Numeral.decimal a.statements.length ++ " records, ".toList ++
            Numeral.decimal a.symbols.size ++ " symbols".toList⟩,
          ⟨.info, "3. Write ".toList ++ o.output⟩]
      let printed := if o.dump then a.printedListing source else ""
      match ← FileAccess.write o.output a.image.toFile with
      | .error e => return { status := 1, printed := printed ++ e.printed, log }
      | .ok () => return { printed, log }

/-- A run of the program with some arguments. -/
def run (arguments : List Text) : m Outcome :=
  match Request.ofArguments arguments with
  | .help => return { printed := helpText }
  | .version => return { printed := versionText }
  | .complain e => return { status := 2, complaint := some e }
  | .assemble o => assemble o

end Session

/-- A run of the program on the files of a disk: what it prints and returns, and the disk
afterwards. -/
def Disk.session (d : Disk) (arguments : List Text) : Outcome × Disk :=
  (Session.run arguments : StateM Disk Outcome).run d

end SapOne

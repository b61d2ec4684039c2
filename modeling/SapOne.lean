import SapOne.Text.Basic
import SapOne.Text.Split
import SapOne.Text.Control
import SapOne.Text.Numeral
import SapOne.Text.Style
import SapOne.Machine.Opcode
import SapOne.Machine.Instruction
import SapOne.Machine.Image
import SapOne.Error
import SapOne.Diagnostic
import SapOne.Source.Number
import SapOne.Source.Operand
import SapOne.Source.Statement
import SapOne.Source.Line
import SapOne.Assembly.Symbols
import SapOne.Assembly.Program
import SapOne.Assembly.Encoding
import SapOne.Assembly.Basic
import SapOne.Assembly.Listing
import SapOne.Command.Options
import SapOne.Command.Log
import SapOne.Command.Disk
import SapOne.Command.Session
import SapOne.Main
import SapOne.Proofs.Outcome
import SapOne.Proofs.Assembly.Layout
import SapOne.Proofs.Assembly.Encoding
import SapOne.Proofs.Assembly.Packing
import SapOne.Proofs.Assembly.LockStep
import SapOne.Proofs.Assembly.Extension
import SapOne.Proofs.Assembly.Emission
import SapOne.Proofs.Assembly.Checks
import SapOne.Proofs.Source.Grammar
import SapOne.Proofs.Assembly.Simulation
import SapOne.Proofs.Source.Items
import SapOne.Proofs.Source.Rendering
import SapOne.Proofs.Source.Numerals
import SapOne.Proofs.Source.Positional
import SapOne.Proofs.Assembly.Contents
import SapOne.Proofs.Assembly.Output
import SapOne.Proofs.Assembly.Relevance
import SapOne.Proofs.Assembly.Renaming
import SapOne.Proofs.Assembly.Concatenation
import SapOne.Proofs.Assembly.Blocks
import SapOne.Proofs.Assembly.Arithmetic
import SapOne.Proofs.Assembly.Attempts
import SapOne.Proofs.Assembly.BlankLines
import SapOne.Proofs.Assembly.Formatting
import SapOne.Proofs.Assembly.Listing
import SapOne.Proofs.Command.Arguments
import SapOne.Proofs.Command.Run
import SapOne.Proofs.Command.LineEnds
import SapOne.Proofs.Source.Joining
import SapOne.Proofs.Source.Recognizers
import SapOne.Proofs.Assembly.Definitions
import SapOne.Proofs.Assembly.LastWrites
import SapOne.Proofs.Assembly.References

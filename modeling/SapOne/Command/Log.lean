import SapOne.Text.Control
import SapOne.Text.Split

set_option relaxedAutoImplicit false
set_option autoImplicit false

/-!
# Progress messages

A run tells its progress on the error channel. The messages of a run do not depend on how many
of them are wanted; the wish only selects which ones are shown.

## Main definitions

* `SapOne.Log.Entry` — a message with its level.
* `SapOne.Log.Verbosity` — how much is wanted.
* `SapOne.Log.written` — what is written of the messages.
-/

namespace SapOne.Log

/-- How important a message is. -/
inductive Level where
  /-- The stages of a run. -/
  | info
  /-- Figures about the stages. -/
  | debug
deriving DecidableEq

/-- The level in front of a message, five columns wide. -/
def Level.tag : Level → String
  | info => "INFO "
  | debug => "DEBUG"

/-- A message with its level. -/
@[ext]
structure Entry where
  /-- Its level. -/
  level : Level
  /-- What it says. -/
  text : Text
deriving DecidableEq

/-- How many messages are wanted. -/
inductive Verbosity where
  /-- No messages. -/
  | off
  /-- Errors, of which there are none among the messages. -/
  | error
  /-- Warnings, of which there are none either. -/
  | warn
  /-- The stages of a run. -/
  | info
  /-- The stages and the figures. -/
  | debug
  /-- Everything. -/
  | trace
deriving DecidableEq

namespace Verbosity

/-- Whether messages of a level are wanted. -/
def shows : Verbosity → Level → Bool
  | info, .info => true
  | debug, _ => true
  | trace, _ => true
  | _, _ => false

/-- The name of a verbosity. -/
def name : Verbosity → Text
  | off => "off".toList
  | error => "error".toList
  | warn => "warn".toList
  | info => "info".toList
  | debug => "debug".toList
  | trace => "trace".toList

/-- The verbosity with a given name; the case of ASCII letters does not matter. -/
def ofName? (text : Text) : Option Verbosity :=
  [off, error, warn, info, debug, trace].find? fun v => v.name = text.map Char.toLower

/-- The verbosity that a setting asks for: the stages if there is no setting, and nothing if it
names no verbosity. -/
def ofSetting : Option Text → Verbosity
  | none => info
  | some text => (ofName? text).getD off

end Verbosity

/-- A message as it is written: its level, and its text with every line after the first one
indented. Control sequences in it are left out; one that is a string for the terminal and does
not end swallows the end of the line. -/
def Entry.written (e : Entry) : Text :=
  Control.strip (("[" ++ e.level.tag ++ " sapasm] ").toList ++
    "\n    ".toList.intercalate (Text.split '\n' e.text) ++ ['\n'])

/-- What is written of the messages that are wanted. -/
def written (v : Verbosity) (entries : List Entry) : Text :=
  (entries.filter fun e => v.shows e.level).flatMap Entry.written

end SapOne.Log

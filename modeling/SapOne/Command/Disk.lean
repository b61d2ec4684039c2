import SapOne.Error
import SapOne.Text.Split

set_option relaxedAutoImplicit false
set_option autoImplicit false

/-!
# Files

What a run of the assembler does to files. A disk is a tree of directories with files and devices
in it, seen from a working directory; `SapOne.FileAccess` is the little that a run needs of it.

## Main definitions

* `SapOne.FileAccess` — reading and writing a whole file.
* `SapOne.Disk` — the files of a machine.
* `SapOne.Disk.walk` — finds the place that a path leads to.
* `SapOne.Disk.read`, `SapOne.Disk.write` — reading and writing a whole file of a disk.
-/

namespace SapOne

/-- Reading and writing whole files by their paths. -/
class FileAccess (m : Type → Type) where
  /-- The content of a file. -/
  read : Text → m (Except FileError ByteArray)
  /-- Creates a file, or empties it if it is there, and gives it a content. -/
  write : Text → ByteArray → m (Except FileError Unit)

/-- What stands at a place of a disk. -/
inductive Disk.Node where
  /-- A directory. -/
  | directory
  /-- A file with its content. -/
  | file (content : ByteArray)
  /-- A device that keeps nothing: it reads as empty, and takes what is written to it only if it
  has room. -/
  | device (room : Bool)

/-- A place on a disk: the names on the way to it from the top directory. -/
abbrev Place := List Text

/-- The files of a machine, and the directory where relative paths begin. -/
structure Disk where
  /-- The working directory. -/
  home : Place
  /-- What stands at each place. -/
  node? : Place → Option Disk.Node

namespace Disk

/-- The disk with something else at one place. -/
def put (d : Disk) (place : Place) (node : Node) : Disk :=
  { d with node? := fun p => if p = place then some node else d.node? p }

/-- The disk with a directory at a place and at every place on the way to it. -/
def mkdir (d : Disk) (place : Place) : Disk :=
  (List.range (place.length + 1)).foldl (fun d n => d.put (place.take n) .directory) d

/-- The names in a path. Slashes separate them, and more of them count as one. -/
def names (path : Text) : List Text :=
  (Text.split '/' path).filter (! ·.isEmpty)

/-- The place where a path begins: the top directory if it begins with a slash, the working
directory otherwise. -/
def start (d : Disk) (path : Text) : Place :=
  if path.head? = some '/' then [] else d.home

/-- Whether a path ends with a slash, and so asks for a directory. -/
def wantsDirectory (path : Text) : Bool :=
  path.getLast? = some '/'

/-- The place that a name leads to from a directory. The top directory is its own parent. -/
def enter (place : Place) (name : Text) : Place :=
  if name = ['.'] then place else if name = ['.', '.'] then place.dropLast else place ++ [name]

/-- Whether a text has more than `limit` bytes in UTF-8. -/
def exceeds (limit : Nat) (s : Text) : Bool :=
  limit < (String.ofList s).utf8ByteSize

/-- The most bytes that a name can have. -/
def nameLimit : Nat := 255

/-- The most bytes that a path can have. -/
def pathLimit : Nat := 4095

/-- The place that some names lead to. Each name has to be entered from a directory; nothing
needs to stand at the last place. -/
def walk (d : Disk) (place : Place) : List Text → Except Fault Place
  | [] => .ok place
  | name :: rest =>
    match d.node? place with
    | none => .error .notFound
    | some .directory =>
      if exceeds nameLimit name then .error .nameTooLong else d.walk (enter place name) rest
    | some _ => .error .notADirectory

/-- What stands at the end of a path. -/
def lookup (d : Disk) (path : Text) : Except Fault Node := do
  if path.isEmpty then .error .notFound
  else if exceeds pathLimit path then .error .nameTooLong
  else
    let slash := if wantsDirectory path then [['.']] else []
    let place ← d.walk (d.start path) (names path ++ slash)
    match d.node? place with
    | none => .error .notFound
    | some node => .ok node

/-- The content of a file. A directory can be opened but not read. -/
def read (d : Disk) (path : Text) : Except FileError ByteArray :=
  match d.lookup path with
  | .error fault => .error (.opening path fault)
  | .ok .directory => .error (.reading .isADirectory)
  | .ok (.file content) => .ok content
  | .ok (.device _) => .ok ByteArray.empty

/-- The place where a path lets a file be created: in an existing directory, and where no
directory stands. -/
def target (d : Disk) (path : Text) : Except Fault Place := do
  if path.isEmpty then .error .notFound
  else if exceeds pathLimit path then .error .nameTooLong
  else
    let names := names path
    let parent ← d.walk (d.start path) (names.dropLast ++ [['.']])
    match names.getLast? with
    | none => .error .isADirectory
    | some name =>
      if wantsDirectory path then .error .isADirectory
      else
        let place ← d.walk parent [name]
        match d.node? place with
        | some .directory => .error .isADirectory
        | _ => .ok place

/-- Creates a file with a content, or replaces the content of one. -/
def write (d : Disk) (path : Text) (content : ByteArray) : Except FileError Disk :=
  match d.target path with
  | .error fault => .error (.creating path fault)
  | .ok place =>
    match d.node? place with
    | some (.device true) => .ok d
    | some (.device false) => .error (.writing path .noSpace)
    | _ => .ok (d.put place (.file content))

/-- A run that only uses files of a disk changes the disk as it goes. -/
instance : FileAccess (StateM Disk) where
  read path := do
    let d ← get
    return d.read path
  write path content := do
    let d ← get
    match d.write path content with
    | .ok d => set d; return .ok ()
    | .error e => return .error e

/-- What is put at a place is found there, and nowhere else. -/
@[simp]
theorem node?_put (d : Disk) (place : Place) (node : Node) (p : Place) :
    (d.put place node).node? p = if p = place then some node else d.node? p := rfl

end Disk

end SapOne

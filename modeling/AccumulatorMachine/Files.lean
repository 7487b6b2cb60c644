import AccumulatorMachine.Text.Lines

/-!
# Files

What reading a file by its name gives. Programs read files through a view, a function from names, so
that everything they do with files is a function of that view.

## Main definitions

* `FileView` — what stands behind a name: a file, a directory, or nothing that can be opened.
* `Files` — the files as a program sees them.
* `Files.ofEntries` — the view from a directory that holds given files and no directory.
* `FileError`, `ReadError` — why a name cannot be opened, and why its text cannot be read.
* `FileView.text` — the text of a file, all of it in UTF-8.
* `FileView.lines` — the lines of a file, each in UTF-8 or not.

## Implementation notes

A directory can be opened for reading; it is each read that fails. So its lines never end, as every
further read fails again: `Reading.failing` says that.
-/

set_option autoImplicit false

namespace AccumulatorMachine

/-- Why a name cannot be opened or read. -/
inductive FileError where
  /-- Nothing has this name. -/
  | notFound
  /-- The name goes on behind the name of a file. -/
  | notADirectory
  /-- The name is that of a directory. -/
  | isADirectory
  /-- The name, or a part of it, is too long. -/
  | nameTooLong
  /-- The name has a NUL character, which no name can have. -/
  | nulInName
  /-- Any other reason, in the system's words. -/
  | other (description : String)
deriving DecidableEq

/-- The wording of a file error. -/
def FileError.message : FileError → String
  | .notFound => "No such file or directory (os error 2)"
  | .notADirectory => "Not a directory (os error 20)"
  | .isADirectory => "Is a directory (os error 21)"
  | .nameTooLong => "File name too long (os error 36)"
  | .nulInName => "file name contained an unexpected NUL byte"
  | .other description => description

/-- Why a text cannot be read. -/
inductive ReadError where
  /-- The bytes are not UTF-8. -/
  | notUtf8
  /-- The file cannot be opened or read. -/
  | file (cause : FileError)
deriving DecidableEq

/-- The wording of a read error. -/
def ReadError.message : ReadError → String
  | .notUtf8 => "stream did not contain valid UTF-8"
  | .file cause => cause.message

/-- What stands behind a name. -/
inductive FileView where
  /-- Nothing that can be opened. -/
  | absent (cause : FileError)
  /-- A directory, which can be opened but not read. -/
  | directory
  /-- A file and its bytes. -/
  | regular (bytes : ByteArray)

/-- The files as a program sees them, by name. -/
abbrev Files : Type := String → FileView

/-! ## Reading -/

/-- One line of a file, or why it cannot be read. -/
abbrev ReadLine : Type := Except ReadError (List Char)

/-- The lines of a byte string. A line that is not UTF-8 cannot be read, and spoils no other. -/
def readLines (bytes : ByteArray) : List ReadLine :=
  (Text.byteLines bytes).map fun
    | some line => .ok line
    | none => .error .notUtf8

/-- What an opened file gives, line by line. -/
inductive Reading where
  /-- Finitely many lines. -/
  | lines (ls : List ReadLine)
  /-- Every read fails in the same way, and the end is never reached. -/
  | failing (e : ReadError)

/-- The next line, and what is left to read; nothing at the end. -/
def Reading.next? : Reading → Option (ReadLine × Reading)
  | .lines [] => none
  | .lines (l :: ls) => some (l, .lines ls)
  | .failing e => some (.error e, .failing e)

namespace FileView

/-- Opens what stands behind a name and reads it line by line. -/
def lines : FileView → Except FileError Reading
  | .absent cause => .error cause
  | .directory => .ok (.failing (.file .isADirectory))
  | .regular bytes => .ok (.lines (readLines bytes))

/-- The whole text of a file. -/
def text : FileView → Except ReadError (List Char)
  | .absent cause => .error (.file cause)
  | .directory => .error (.file .isADirectory)
  | .regular bytes =>
    match Text.decode bytes.data.toList with
    | none => .error .notUtf8
    | some cs => .ok cs

end FileView

/-! ## A directory of given files -/

/-- Cuts a name at its slashes; a name without one is a single component. -/
def components (name : List Char) : List (List Char) :=
  name.foldr (fun c cs => if c = '/' then [] :: cs else Text.pushFirst c cs) [[]]

/-- The number of bytes of a name. -/
def byteCount (name : List Char) : Nat := (String.ofList name).utf8ByteSize

/-- What stands behind the components of a name, seen from outside the directory of given files:
further directories, and nothing else that is known. -/
def outside (cs : List (List Char)) : FileView :=
  if cs.all fun c => c = [] ∨ c = ['.'] ∨ c = ['.', '.'] then .directory else .absent .notFound

/-- What stands behind the components of a name, seen from a directory that holds given files. A
component behind a file, even an empty one, asks for a directory where there is none. -/
def walk (entries : List (String × ByteArray)) : List (List Char) → FileView
  | [] => .directory
  | c :: cs =>
    if c = [] ∨ c = ['.'] then walk entries cs
    else if c = ['.', '.'] then outside cs
    else if 255 < byteCount c then .absent .nameTooLong
    else
      match entries.lookup (String.ofList c), cs with
      | none, _ => .absent .notFound
      | some bytes, [] => .regular bytes
      | some _, _ :: _ => .absent .notADirectory

/-- The view from a directory that holds given files and no directory. -/
def Files.ofEntries (entries : List (String × ByteArray)) : Files := fun name =>
  let cs := name.toList
  if '\x00' ∈ cs then .absent .nulInName
  else if cs = [] then .absent .notFound
  else if 4095 < byteCount cs then .absent .nameTooLong
  else if cs.head? = some '/' then outside (components cs)
  else walk entries (components cs)

end AccumulatorMachine

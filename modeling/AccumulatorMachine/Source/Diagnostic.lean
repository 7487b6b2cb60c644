import AccumulatorMachine.Text.Numeral

/-!
# Diagnostics

The mistakes of an assembly source and the report that lists them.

## Main definitions

* `Mistake`, `Diagnostic` — a mistake, and a mistake at a line.
* `Report` — the diagnostics of a source, in the order in which they were found.
* `Report.status`, `Status.code` — the summary of a report.
-/

set_option autoImplicit false

namespace AccumulatorMachine.Source

/-- The mistakes of a source. -/
inductive Mistake where
  | blankLine | leadingSpace | secondSeparator | separatorCase
  | unknownMnemonic | mnemonicCase | unexpectedArgument | tooManyArguments | missingArgument
  | argumentNotHex | dataLength | dataNotHex
  | unreadable (reason : String)
deriving DecidableEq

/-- The wording of a mistake. -/
def Mistake.message : Mistake → String
  | .blankLine => "illegal blank line in the source file"
  | .leadingSpace => "line starts with illegal white space"
  | .secondSeparator => "file contains more than one DATA separator"
  | .separatorCase => "line does not have DATA in upper case"
  | .unknownMnemonic => "illegal mnemonic"
  | .mnemonicCase => "mnemonic must be upper case"
  | .unexpectedArgument => "this mnemonic cannot take arguments"
  | .tooManyArguments => "this mnemonic has too many arguments"
  | .missingArgument => "this mnemonic is missing an argument"
  | .argumentNotHex => "argument is not a hex number"
  | .dataLength => "data must have length 2"
  | .dataNotHex => "data has non-numeric memory address"
  | .unreadable reason => "unable to read the source file: " ++ reason

/-- A mistake at a line. -/
structure Diagnostic where
  /-- The number of the line, from one; zero when the source cannot be read. -/
  line : Nat
  /-- The mistake. -/
  mistake : Mistake
deriving DecidableEq

/-- The wording of a diagnostic. -/
def Diagnostic.message (d : Diagnostic) : String :=
  if d.line = 0 then "Error: " ++ d.mistake.message
  else "Error on line " ++ Numeral.decimal d.line ++ ": " ++ d.mistake.message

/-- The summary of a source. -/
inductive Status where
  /-- There is no mistake. -/
  | clean
  /-- The first mistake is at this line. -/
  | error (line : Nat)
  /-- The source cannot be read. -/
  | unreadable
deriving DecidableEq

/-- The summary as a word: zero when clean, minus one when unreadable, and otherwise the line, reduced
to 32 bits. -/
def Status.code : Status → Int32
  | .clean => 0
  | .error line => Int32.ofNat line
  | .unreadable => -1

/-- The diagnostics of a source, in the order in which they were found. -/
structure Report where
  /-- The diagnostics. -/
  diagnostics : List Diagnostic
deriving DecidableEq

namespace Report

/-- The line of the first diagnostic. -/
def firstLine (r : Report) : Option Nat := r.diagnostics.head?.map Diagnostic.line

/-- The line of the last diagnostic. -/
def lastLine (r : Report) : Option Nat := r.diagnostics.getLast?.map Diagnostic.line

/-- There is no diagnostic. -/
def isClean (r : Report) : Bool := r.diagnostics.isEmpty

/-- A diagnostic says that the source cannot be read. -/
def isUnreadable (r : Report) : Bool :=
  r.diagnostics.any fun d => match d.mistake with
    | .unreadable _ => true
    | _ => false

/-- The summary of a report. -/
def status (r : Report) : Status :=
  if r.isUnreadable then .unreadable
  else
    match r.firstLine with
    | none => .clean
    | some line => .error line

/-- The wordings of all diagnostics, one per line. -/
def messages (r : Report) : String :=
  String.intercalate "\n" (r.diagnostics.map Diagnostic.message)

end Report

end AccumulatorMachine.Source

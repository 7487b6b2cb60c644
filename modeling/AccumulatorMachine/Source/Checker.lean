import AccumulatorMachine.Files
import AccumulatorMachine.Mode
import AccumulatorMachine.Operation
import AccumulatorMachine.Source.Diagnostic
import AccumulatorMachine.Text.Capitals
import AccumulatorMachine.Word

/-!
# The source checker

Reads an assembly source line by line and reports every mistake. A source is code lines, optionally
followed by a `DATA` line and data lines; blank lines may stand at the end only.

The first blank line that is followed by a line that is not blank is reported once. That following line
itself is passed over unchecked, and later blank lines are not reported.

## Main definitions

* `Source.codeMistakes`, `Source.dataMistakes` — the mistakes of the tokens of a code or data line.
* `Source.statement` — the mistakes of a line that is not blank, and the part of the source after it.
* `Source.Scan`, `Source.Scan.line` — what the checker knows between two lines, and one line.
* `Source.check`, `Source.checkFile` — the report on a source.
-/

set_option autoImplicit false

namespace AccumulatorMachine.Source

/-- The line between code and data. -/
def separator : List Char := "DATA".toList

/-- The two parts of a source. -/
inductive Part where
  /-- Up to the separator. -/
  | code
  /-- Behind the separator. -/
  | data
deriving DecidableEq

/-- A token is a word in base 16. -/
def isWord (token : List Char) : Bool := (Word.read? token).isSome

/-- The mistakes in the arguments of an operation. -/
def argumentMistakes (op : Operation) (arguments : List (List Char)) : List Mistake :=
  if op.takesArgument then
    match arguments with
    | [] => [.missingArgument]
    | [token] => if isWord (Mode.splitMark token).2 then [] else [.argumentNotHex]
    | _ => [.tooManyArguments]
  else if arguments = [] then [] else [.unexpectedArgument]

/-- The mistakes in the tokens of a code line. Nothing is said about what follows a token that is no
mnemonic in any letter case. -/
def codeMistakes : List (List Char) → List Mistake
  | [] => []
  | name :: arguments =>
    match Operation.ofMnemonic? (Text.capitals name) with
    | none => [.unknownMnemonic]
    | some op =>
      (if name = Text.capitals name then [] else [.mnemonicCase]) ++ argumentMistakes op arguments

/-- The mistakes in the tokens of a data line. -/
def dataMistakes : List (List Char) → List Mistake
  | [address, value] => if isWord address ∧ isWord value then [] else [.dataNotHex]
  | _ => [.dataLength]

/-- The mistake of a line that starts with a space or a tab. -/
def leadingMistakes (line : List Char) : List Mistake :=
  if line.head? = some ' ' ∨ line.head? = some '\t' then [.leadingSpace] else []

/-- The mistakes of a line that is not blank, and the part of the source after it. A separator is
recognised in any letter case; behind the first one it is also read as a data line. -/
def statement (part : Part) (line : List Char) : List Mistake × Part :=
  let isSeparator := Text.capitals (Text.trim line) = separator
  match part with
  | .code =>
    if isSeparator then
      (leadingMistakes line ++ if Text.trim line = separator then [] else [.separatorCase], .data)
    else (leadingMistakes line ++ codeMistakes (Text.fields line), .code)
  | .data =>
    (leadingMistakes line ++ (if isSeparator then [.secondSeparator] else []) ++
      dataMistakes (Text.fields line), .data)

/-- What has become of blank lines so far. -/
inductive Gap where
  /-- There was none. -/
  | unseen
  /-- The first one had this number, and only blank lines followed. -/
  | pending (first : Nat)
  /-- One has been reported. -/
  | reported
deriving DecidableEq

/-- What the checker knows between two lines. -/
structure Scan where
  /-- The part of the source. -/
  part : Part := .code
  /-- What has become of blank lines. -/
  gap : Gap := .unseen
  /-- The number of lines read. -/
  count : Nat := 0
  /-- The diagnostics so far. -/
  found : Array Diagnostic := #[]

/-- Reads one line. -/
def Scan.line (s : Scan) (line : List Char) : Scan :=
  let number := s.count + 1
  if Text.trim line = [] then
    { s with count := number, gap := if s.gap = .unseen then .pending number else s.gap }
  else
    match s.gap with
    | .pending first =>
      { s with count := number, gap := .reported, found := s.found.push ⟨first, .blankLine⟩ }
    | _ =>
      let (mistakes, part) := statement s.part line
      { s with count := number, part, found := s.found ++ mistakes.map (Diagnostic.mk number) }

/-- The report on a source. -/
def check (source : List Char) : Report :=
  ⟨((Text.lines source).foldl Scan.line {}).found.toList⟩

/-- The report on a file. -/
def checkFile (view : FileView) : Report :=
  match view.text with
  | .ok source => check source
  | .error e => ⟨[⟨0, .unreadable e.message⟩]⟩

end AccumulatorMachine.Source

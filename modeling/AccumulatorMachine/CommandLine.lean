import AccumulatorMachine.Script.Session

/-!
# The command line

The arguments of the program and what it does with them: it runs the script of a file, or of standard
input, and displays the tokens.

An option has a long name, `--name`, and a letter, `-n`. A value follows its option, or is attached to
it: behind `=`, or directly behind the letter. Letters of options without a value may be joined. A value
that follows must not look like an option; a single `-` does not.

## Main definitions

* `CommandLine.Options`, `CommandLine.parse` — the options, and how arguments give them.
* `CommandLine.Ending` — how the program ends.
* `CommandLine.Options.execute` — what the program does, given the words for a line that has no form,
  standard input and the files.
-/

set_option autoImplicit false

namespace AccumulatorMachine.CommandLine

/-- The options of the program. -/
structure Options where
  /-- The name of the script; `-` stands for standard input. -/
  script : String
  /-- Go on after a failure. -/
  continueOnFailure : Bool := false
  /-- Display more than assertions and failures. -/
  verbose : Bool := false
  /-- The number of steps a run may take. -/
  steps : Nat := Script.defaultSteps
deriving DecidableEq

/-! ## Arguments -/

/-- The names of the options. -/
inductive OptionName where
  | script | continueOnFailure | verbose | steps
deriving DecidableEq

namespace OptionName

/-- The option of a letter. -/
def ofLetter? : Char → Option OptionName
  | 'f' => some script
  | 'c' => some continueOnFailure
  | 'v' => some verbose
  | 'm' => some steps
  | _ => none

/-- The option of a long name. -/
def ofLong? (name : List Char) : Option OptionName :=
  [("filepath", script), ("continue-on-failure", continueOnFailure), ("verbose", verbose),
    ("max-steps", steps)].findSome? fun (long, o) => if long.toList = name then some o else none

/-- Whether the option has a value. -/
def hasValue : OptionName → Bool
  | script | steps => true
  | continueOnFailure | verbose => false

end OptionName

/-- What has been given so far. -/
structure Given where
  /-- The name of the script. -/
  script : Option String := none
  /-- Go on after a failure. -/
  continueOnFailure : Bool := false
  /-- Display more. -/
  verbose : Bool := false
  /-- The number of steps. -/
  steps : Option Nat := none

/-- A number of at most 64 bits in base 10, perhaps with a plus sign. -/
def readCount (text : List Char) : Option Nat :=
  let digits := match text with
    | '+' :: cs => cs
    | cs => cs
  let count := Nat.ofDigitChars 10 digits 0
  if digits ≠ [] ∧ digits.all Char.isDigit ∧ count ≤ greatestAddress then some count else none

/-- Gives an option without a value, which must not have been given before. -/
def Given.flag (g : Given) : OptionName → Option Given
  | .continueOnFailure => if g.continueOnFailure then none else some { g with continueOnFailure := true }
  | .verbose => if g.verbose then none else some { g with verbose := true }
  | .script | .steps => none

/-- Gives an option with a value, which must not have been given before. -/
def Given.value (g : Given) (text : List Char) : OptionName → Option Given
  | .script =>
    if g.script.isSome ∨ text = [] then none else some { g with script := some (String.ofList text) }
  | .steps =>
    if g.steps.isSome then none else (readCount text).map fun n => { g with steps := some n }
  | .continueOnFailure | .verbose => none

/-- Reads the letters behind a dash, which follow each other up to the first option with a value. The
result tells which option still waits for its value. -/
def Given.letters (g : Given) : List Char → Option (Given × Option OptionName)
  | [] => some (g, none)
  | c :: cs =>
    match OptionName.ofLetter? c with
    | none => none
    | some o =>
      if o.hasValue then
        match cs with
        | [] => some (g, some o)
        | '=' :: value => (g.value value o).map (·, none)
        | value => (g.value value o).map (·, none)
      else (g.flag o).bind fun g => g.letters cs

/-- Reads what follows two dashes: a long name, perhaps with a value attached. -/
def Given.long (g : Given) (text : List Char) : Option (Given × Option OptionName) :=
  match OptionName.ofLong? (text.takeWhile (· ≠ '=')), text.dropWhile (· ≠ '=') with
  | none, _ => none
  | some o, [] => if o.hasValue then some (g, some o) else (g.flag o).map (·, none)
  | some o, _ :: value => (g.value value o).map (·, none)

/-- Reads the arguments that are left, the first of which is the value of an option if one waits for
it. Two dashes alone may only end the arguments. -/
def Given.arguments (g : Given) : (waiting : Option OptionName) → List (List Char) → Option Given
  | none, [] => some g
  | some _, [] => none
  | waiting, arg :: rest =>
    match arg with
    | ['-', '-'] => if waiting.isNone ∧ rest = [] then some g else none
    | '-' :: '-' :: name =>
      if waiting.isSome then none
      else (g.long name).bind fun (g, waiting) => g.arguments waiting rest
    | '-' :: c :: cs =>
      if waiting.isSome then none
      else (g.letters (c :: cs)).bind fun (g, waiting) => g.arguments waiting rest
    | value =>
      match waiting with
      | none => none
      | some o => (g.value value o).bind fun g => g.arguments none rest

/-- The options that arguments give, `none` when the arguments are not understood. -/
def parse (args : List String) : Option Options := do
  let g ← Given.arguments {} none (args.map String.toList)
  let script ← g.script
  some
    { script, continueOnFailure := g.continueOnFailure, verbose := g.verbose
      steps := g.steps.getD Script.defaultSteps }

/-! ## The program -/

/-- How the program ends. -/
inductive Ending where
  /-- With an exit code and what it has written to its two outputs. -/
  | finished (exit : Nat) (output errors : String)
  /-- Not at all: it writes a text to its first output again and again. -/
  | endless (text : String)
deriving DecidableEq

namespace Options

/-- How the session is conducted, with the given words for a line that has no form. -/
def settings (o : Options) (wording : Script.Wording) : Script.Settings where
  wording
  stopOnFailure := !o.continueOnFailure
  steps := o.steps

/-- The script comes from standard input: its name is `-`, whatever slashes and dots follow. -/
def readsInput (o : Options) : Bool :=
  match components o.script.toList with
  | ['-'] :: rest => rest.all fun c => c = [] ∨ c = ['.']
  | _ => false

/-- The script, or why it cannot be opened. -/
def reading (o : Options) (input : ByteArray) (files : Files) : Except FileError Reading :=
  if o.readsInput then .ok (.lines (readLines input)) else (files o.script).lines

/-- The files that the lines of the script name. -/
def fileNames (o : Options) (input : ByteArray) (script : FileView) : List String :=
  match o.reading input fun _ => script with
  | .ok (.lines lines) => lines.filterMap Script.fileOf
  | _ => []

/-- A complaint on the second output. -/
def complaint (message : String) : String := "Error: " ++ message ++ "\n"

/-- What the program does, given the words for a line that has no form, standard input and the files. -/
def execute (o : Options) (wording : Script.Wording) (input : ByteArray) (files : Files) : Ending :=
  match o.reading input files with
  | .error e =>
    .finished 1 "" (complaint ("could not open script '" ++ o.script ++ "': " ++ e.message))
  | .ok reading =>
    match (o.settings wording).run files reading with
    | .endless token => .endless (Script.display o.verbose [token])
    | .ended outcome =>
      let output := Script.display o.verbose outcome.tokens
      match outcome.result with
      | .ok () => .finished 0 output ""
      | .error e => .finished 1 output (complaint (e.message wording))

end Options

end AccumulatorMachine.CommandLine

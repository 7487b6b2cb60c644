import AccumulatorMachine.Condition
import AccumulatorMachine.Script.Reader

/-!
# Sentences

The form of a script line: which command it gives and how its numbers are spelled, but not yet what the
numbers are. A line without a form is refused for its form, whatever its numbers.

## Main definitions

* `Sentence` — the forms of a line, with numbers as they are spelled.
* `Sentence.read` — the sentence of a line; a line of blanks and comments has none.
-/

set_option autoImplicit false

namespace AccumulatorMachine.Script

/-- A quantity as it is spelled. -/
inductive QuantityText where
  /-- The name of a register. -/
  | register (name : RegisterName)
  /-- The digits of an address. -/
  | cell (digits : List Char)
  /-- The digits of a word, perhaps with a minus sign. -/
  | word (digits : List Char)
deriving DecidableEq

/-- A term as it is spelled. -/
inductive TermText where
  /-- Always or never true. -/
  | constant (b : Bool)
  /-- The machine has halted. -/
  | halted
  /-- Two quantities are in a relation. -/
  | compare (left : QuantityText) (c : Comparison) (right : QuantityText)
deriving DecidableEq

/-- A chain of terms as it is spelled. -/
structure ConditionText where
  /-- The first term. -/
  first : TermText
  /-- The others, each with what joins it to those before. -/
  rest : List (Connective × TermText)
deriving DecidableEq

/-- The forms of a script line, with numbers as they are spelled. -/
inductive Sentence where
  /-- Starts a test plan. -/
  | marker (description : List Char)
  /-- Clears the machine. -/
  | flushMemory
  /-- Loads an image. -/
  | load (file : List Char)
  /-- Writes cells from an address on. -/
  | writeData (address : List Char) (words : List (List Char))
  /-- Writes slots from an address on, as opcodes and arguments. -/
  | writeCode (address : List Char) (instructions : List (List Char × List Char))
  /-- Checks a source. -/
  | checkSource (file : List Char)
  /-- Makes both registers zero. -/
  | flushRegisters
  /-- Sets a register. -/
  | setRegister (name : RegisterName) (value : List Char)
  /-- Runs, perhaps from an address, perhaps until a condition holds. -/
  | run (start : Option (List Char)) (stop : Option ConditionText)
  /-- Asserts a condition. -/
  | claim (condition : ConditionText) (description : List Char)
deriving DecidableEq

namespace Sentence

/-! ## Conditions -/

/-- Takes the name of a register. -/
def registerName : Reader RegisterName := fun cs =>
  ((literal "A" cs).map (RegisterName.accumulator, ·)).or
    ((literal "PC" cs).map (RegisterName.counter, ·))

/-- Takes a quantity. -/
def quantity : Reader QuantityText := fun cs =>
  ((registerName cs).map fun (name, rest) => (.register name, rest)).or
    (((cellDigits cs).map fun (digits, rest) => (.cell digits, rest)).or
      ((wordDigits cs).map fun (digits, rest) => (.word digits, rest)))

/-- The signs of the relations. A sign that continues another stands before it. -/
def signs : List (String × Comparison) :=
  [("!=", .different), (">=", .atLeast), ("<=", .atMost), ("=", .equal), (">", .above), ("<", .below)]

/-- Takes the sign of a relation. -/
def comparison : Reader Comparison := fun cs =>
  signs.findSome? fun (sign, c) => (literal sign cs).map (c, ·)

/-- Takes a term. -/
def term : Reader TermText := fun cs =>
  ((literal "true" cs).map (.constant true, ·)).or
    (((literal "false" cs).map (.constant false, ·)).or
      (((literal "halted" cs).map (.halted, ·)).or do
        let (left, cs) ← quantity cs
        let (c, cs) ← comparison (skip cs)
        let (right, cs) ← quantity (skip cs)
        some (.compare left c right, cs)))

/-- Takes what joins two terms. -/
def connective : Reader Connective := fun cs =>
  ((literal "AND" cs).map (Connective.and, ·)).or ((literal "OR" cs).map (Connective.or, ·))

/-- Takes one more term of a chain. -/
def link : Reader (Connective × TermText) := fun cs => do
  let (join, cs) ← connective (skip cs)
  let (t, cs) ← term (skip cs)
  some ((join, t), cs)

/-- Takes a chain of terms. -/
def condition : Reader ConditionText := fun cs => do
  let (first, cs) ← term cs
  let (rest, cs) := repeated link cs
  some (⟨first, rest⟩, cs)

/-! ## Lists -/

/-- Takes one more item of a list. -/
def nextItem {α : Type} (item : Reader α) : Reader α := fun cs => do
  let cs ← token "," cs
  item (skip cs)

/-- Takes a list of items between parentheses. -/
def items {α : Type} (item : Reader α) : Reader (List α) := fun cs => do
  let cs ← literal "0x(" cs
  let (first, cs) ← item (skip cs)
  let (rest, cs) := repeated (nextItem item) cs
  let cs ← token ")" cs
  some (first :: rest, cs)

/-- Takes an instruction: its opcode and its argument. -/
def instruction : Reader (List Char × List Char) := fun cs => do
  let (opcode, cs) ← opcodeDigits cs
  let cs ← literal ":" cs
  let (arg, cs) ← signedDigits cs
  some ((opcode, arg), cs)

/-! ## Commands -/

/-- Takes what follows `memory`. -/
def memoryCommand : Reader Sentence := fun cs =>
  ((token "flush" cs).map (.flushMemory, ·)).or
    ((do
      let cs ← token "load" cs
      let (file, cs) ← fileName (skip cs)
      some (Sentence.load file, cs)).or
    (do
      let cs ← token "write" cs
      let (address, cs) ← cellDigits (skip cs)
      let (words, cs) ← items signedDigits (skip cs)
      some (Sentence.writeData address words, cs)))

/-- Takes what follows `code`. -/
def codeCommand : Reader Sentence := fun cs => do
  let cs ← token "write" cs
  let (address, cs) ← cellDigits (skip cs)
  let (instructions, cs) ← items instruction (skip cs)
  some (.writeCode address instructions, cs)

/-- Takes what follows `source`. -/
def sourceCommand : Reader Sentence := fun cs => do
  let cs ← token "check" cs
  let (file, cs) ← fileName (skip cs)
  some (.checkSource file, cs)

/-- Takes what follows `registers`. -/
def registersCommand : Reader Sentence := fun cs =>
  ((token "flush" cs).map (.flushRegisters, ·)).or do
    let cs ← token "set" cs
    let (name, cs) ← registerName (skip cs)
    let cs ← token "=" cs
    let (value, cs) ← wordDigits (skip cs)
    some (.setRegister name value, cs)

/-- Takes the stop condition of a run. -/
def untilClause : Reader ConditionText := fun cs => do
  let cs ← token "until" cs
  condition (skip cs)

/-- Takes something that may be missing. -/
def optional {α : Type} (reader : Reader α) (cs : List Char) : Option α × List Char :=
  match reader cs with
  | some (a, rest) => (some a, rest)
  | none => (none, cs)

/-- Takes what follows `run`. -/
def runCommand : Reader Sentence := fun cs =>
  let (start, cs) := optional cellDigits (skip cs)
  let (stop, cs) := optional untilClause cs
  some (.run start stop, cs)

/-- Takes what follows `assert`. -/
def assertCommand : Reader Sentence := fun cs => do
  let (c, cs) ← condition (skip cs)
  let (text, cs) ← description (skip cs)
  some (.claim c text, cs)

/-- Takes what follows `marker`. -/
def markerCommand : Reader Sentence := fun cs =>
  (description (skip cs)).map fun (text, rest) => (.marker text, rest)

/-- The first words of the commands. No one of them starts another. -/
def commands : List (String × Reader Sentence) :=
  [("marker", markerCommand), ("memory", memoryCommand), ("code", codeCommand),
    ("source", sourceCommand), ("registers", registersCommand), ("run", runCommand),
    ("assert", assertCommand)]

/-- Takes a command. -/
def command : Reader Sentence := fun cs =>
  commands.findSome? fun (word, reader) => (literal word cs).bind reader

/-- The sentence of a trimmed line, `none` when the line has no form. A line of blanks and comments
has a form but no sentence. -/
def read (line : List Char) : Option (Option Sentence) :=
  let (sentence, rest) := optional command (skip line)
  if skip rest = [] then some sentence else none

end Sentence

end AccumulatorMachine.Script

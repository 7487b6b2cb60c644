import AccumulatorMachine.Script.Sentence

/-!
# Commands

What a script line says: its sentence with every number read.

A line fails to be a command in two ways. It has no form, or it has one and some number is out of
range; then the leftmost such number is reported.

## Main definitions

* `Command` — the commands of a script.
* `CommandError`, `Wording` — why a line is none, and what is said of a line without a form.
* `Sentence.toCommand` — reads the numbers of a sentence, from left to right.
* `Command.ofLine` — the command of a line; a line of blanks and comments has none.
-/

set_option autoImplicit false

namespace AccumulatorMachine.Script

/-- The commands of a script. -/
inductive Command where
  /-- Starts a test plan. -/
  | marker (description : String)
  /-- Clears the machine. -/
  | flushMemory
  /-- Loads an image. -/
  | load (file : String)
  /-- Writes cells from an address on. -/
  | writeData (address : Nat) (words : List Int32)
  /-- Writes slots from an address on. -/
  | writeCode (address : Nat) (instructions : List Instruction)
  /-- Checks a source. -/
  | checkSource (file : String)
  /-- Makes both registers zero. -/
  | flushRegisters
  /-- Sets a register. -/
  | setRegister (name : RegisterName) (value : Int32)
  /-- Runs, perhaps from an address, until the machine halts or a condition holds. -/
  | run (start : Option Int32) (stop : Condition)
  /-- Asserts a condition. -/
  | claim (condition : Condition) (description : String)
deriving DecidableEq

/-- Why a line is no command. -/
inductive CommandError where
  /-- The line, which is given without the blanks around it, has no form. -/
  | form (line : List Char)
  /-- A number is out of range. -/
  | number (cause : NumberError)
deriving DecidableEq

/-- What is said of a line that has no form. The words may depend on the line in any way. -/
abbrev Wording : Type := List Char → String

/-- The wording of a command error. -/
def CommandError.message (wording : Wording) : CommandError → String
  | .form line => wording line
  | .number cause => cause.message

/-- The condition under which a run stops early when none is given: never. -/
def neverStop : Condition := .term (.constant false)

/-! ## Reading the numbers -/

/-- Reads the number of a quantity. -/
def QuantityText.toQuantity : QuantityText → Except NumberError Quantity
  | .register name => .ok (.register name)
  | .cell digits => (readAddress digits).map .cell
  | .word digits => (Word.read digits).map .word

/-- Reads the numbers of a term. -/
def TermText.toTerm : TermText → Except NumberError Term
  | .constant b => .ok (.constant b)
  | .halted => .ok .halted
  | .compare left c right => do
    let left ← left.toQuantity
    let right ← right.toQuantity
    .ok (.compare left c right)

/-- Reads the numbers of further terms. -/
def linksToTerms (links : List (Connective × TermText)) :
    Except NumberError (List (Connective × Term)) :=
  links.mapM fun (join, t) => t.toTerm.map (join, ·)

/-- Reads the numbers of a chain of terms. -/
def ConditionText.toCondition (c : ConditionText) : Except NumberError Condition := do
  let first ← c.first.toTerm
  let rest ← linksToTerms c.rest
  .ok (Condition.join first rest)

/-- Reads the address at which a run starts, which must be a word. -/
def readStart (digits : List Char) : Except NumberError Int32 := do
  let address ← readAddress digits
  if address < Word.limit then .ok (Int32.ofNat address) else .error (.start address)

/-- Reads the opcode and the argument of an instruction. -/
def readInstruction (spelled : List Char × List Char) : Except NumberError Instruction := do
  let opcode ← readOpcode spelled.1
  let arg ← Word.read spelled.2
  .ok ⟨opcode, arg⟩

/-- Reads something that may be missing. -/
def readOptional {α β : Type} (read : α → Except NumberError β) :
    Option α → Except NumberError (Option β)
  | none => .ok none
  | some a => (read a).map some

/-- Reads the numbers of a sentence, from left to right. -/
def Sentence.toCommand : Sentence → Except NumberError Command
  | .marker text => .ok (.marker (String.ofList text))
  | .flushMemory => .ok .flushMemory
  | .load file => .ok (.load (String.ofList file))
  | .writeData address words => do
    let address ← readAddress address
    let words ← words.mapM Word.read
    .ok (.writeData address words)
  | .writeCode address instructions => do
    let address ← readAddress address
    let instructions ← instructions.mapM readInstruction
    .ok (.writeCode address instructions)
  | .checkSource file => .ok (.checkSource (String.ofList file))
  | .flushRegisters => .ok .flushRegisters
  | .setRegister name value => (Word.read value).map (.setRegister name)
  | .run start stop => do
    let start ← readOptional readStart start
    let stop ← readOptional ConditionText.toCondition stop
    .ok (.run start (stop.getD neverStop))
  | .claim condition text => do
    let condition ← condition.toCondition
    .ok (.claim condition (String.ofList text))

/-- The command of a line. The blanks around the line play no part. -/
def Command.ofLine (line : List Char) : Except CommandError (Option Command) :=
  match Sentence.read (Text.trim line) with
  | none => .error (.form (Text.trim line))
  | some none => .ok none
  | some (some sentence) => (sentence.toCommand.mapError .number).map some

end AccumulatorMachine.Script

import AccumulatorMachine.Image
import AccumulatorMachine.Script.Command
import AccumulatorMachine.Script.Token
import AccumulatorMachine.Source.Checker

/-!
# Execution

What a command does to a machine and what it reports.

## Main definitions

* `ExecutionError` — why a command cannot be carried out.
* `Command.execute` — the token of a command and the machine after it. A command that fails keeps what
  it has done up to there.
-/

set_option autoImplicit false

namespace AccumulatorMachine.Script

/-- Why a command cannot be carried out. -/
inductive ExecutionError where
  /-- A cell cannot be looked at or written. -/
  | cell (cause : CellError)
  /-- The memory refuses a write. -/
  | memory (cause : MemoryError)
  /-- A file cannot be opened. -/
  | unopened (file : String) (cause : FileError)
  /-- A file is no image. -/
  | image (cause : ImageError)
deriving DecidableEq

/-- The wording of an execution error. -/
def ExecutionError.message : ExecutionError → String
  | .cell cause => cause.message
  | .memory cause => cause.message
  | .unopened file cause => "could not open '" ++ file ++ "': " ++ cause.message
  | .image cause => cause.message

/-- The result of a command and the machine after it. -/
abbrev Executed : Type := Except ExecutionError Token × Machine

/-! ## Writing -/

/-- Carries out operations on a machine, up to the first refused one, and reports them as one line. -/
def prepare (m : Machine) (accesses : List Access) (report : String) : Executed :=
  match m.toProcessor.performAll accesses with
  | (.error e, p) => (.error (.memory e), m.withProcessor p)
  | (.ok _, p) => (.ok (.setup [report]), m.withProcessor p)

/-- The operations that write words to consecutive cells. -/
def cellWrites (address : Nat) (words : List Int32) : List Access :=
  words.zipIdx.map fun (w, offset) => .writeData (Int32.ofNat (address + offset)) w

/-- The operations that write instructions to consecutive slots. -/
def slotWrites (address : Nat) (instructions : List Instruction) : List Access :=
  instructions.zipIdx.map fun (i, offset) => .writeCode (address + offset) i

/-- The report on written words. -/
def wordsWritten : Nat → String
  | 0 => "nothing was written"
  | 1 => "1 word written"
  | n => Numeral.decimal n ++ " words written"

/-- The report on written instructions. -/
def instructionsWritten : Nat → String
  | 1 => "1 instruction written"
  | n => Numeral.decimal n ++ " instructions written"

/-- Writes words to consecutive cells. An address beyond the signed words is refused before anything is
written; from a smaller one the cells end before such an address is reached. -/
def writeWords (m : Machine) (address : Nat) (words : List Int32) : Executed :=
  if words ≠ [] ∧ Word.limit ≤ address then (.error (.cell (.beyondWords address)), m)
  else prepare m (cellWrites address words) (wordsWritten words.length)

/-- Loads the image that a file holds. -/
def loadImage (m : Machine) (file : String) (view : FileView) : Executed :=
  match view.lines with
  | .error e => (.error (.unopened file e), m)
  | .ok reading =>
    match Image.ofReading reading with
    | .error e => (.error (.image e), m)
    | .ok image =>
      prepare m image.accesses
        (Numeral.decimal image.code.length ++ " instructions and " ++
          Numeral.decimal image.data.length ++ " data words loaded from '" ++ file ++ "'")

/-! ## Checking -/

/-- Asserts that a source has no mistake. -/
def assertSource (file : String) (view : FileView) : Token :=
  let report := Source.checkFile view
  .assertion (if report.isClean then none else some report.messages)
    ("source '" ++ file ++ "' is valid")

/-- Asserts that a condition holds. -/
def assertCondition (m : Machine) (c : Condition) (description : String) :
    Except ExecutionError Token :=
  match c.shortfall m with
  | .error e => .error (.cell e)
  | .ok why => .ok (.assertion (why.map Shortfall.message) description)

/-! ## Registers -/

/-- The report on a register that is set. -/
def registerSet (name : RegisterName) (value : Int32) : String :=
  match name with
  | .accumulator => "register A set to 0x" ++ Numeral.lowerHex 8 (Word.pattern value)
  | .counter => "register PC set to #0x" ++ Numeral.lowerHex 2 (Word.pattern value)

/-- What a command does, with the given files and at most so many steps in a run. A marker by itself
changes nothing. -/
def Command.execute (files : Files) (steps : Nat) (m : Machine) : Command → Executed
  | .marker description => (.ok (.marker description), m)
  | .flushMemory => (.ok (.setup []), m.clear)
  | .load file => loadImage m file (files file)
  | .writeData address words => writeWords m address words
  | .writeCode address instructions =>
    prepare m (slotWrites address instructions) (instructionsWritten instructions.length)
  | .checkSource file => (.ok (assertSource file (files file)), m)
  | .flushRegisters => (.ok (.setup []), { m with registers := {} })
  | .setRegister name value =>
    (.ok (.setup [registerSet name value]), { m with registers := name.assign m.registers value })
  | .run start stop =>
    match m.runFor start stop steps with
    | (.error e, m) => (.error (.cell e), m)
    | (.ok r, m) => (.ok (.ofRun r), m)
  | .claim c description => (assertCondition m c description, m)

end AccumulatorMachine.Script

import AccumulatorMachine.Machine.Basic
import Mathlib.Algebra.Ring.Parity
import Mathlib.Data.Nat.Digits.Defs
import Mathlib.Logic.Function.Basic

/-!
# The instruction table

The machine as a table of its instructions over the integers: which operation and mode an opcode spells,
which cells an instruction needs, and what it makes of the accumulator, the program counter and the data.
The table knows no words and no order of work. It lists the requirements of an instruction, each with the
fault that stands for it, and a result for the case that all of them hold.

## Main definitions

* `Table.State` — registers, code and data as integers; `Processor.integers` — those of a processor.
* `Table.Requirement` — a condition, and the fault of an instruction that does not meet it.
* `Table.State.requirements` — the requirements of one cycle, in the order in which they count.
* `Table.State.result` — the state after a cycle that meets them all.
* `Table.State.step` — one cycle as the table has it.
-/

set_option autoImplicit false

namespace AccumulatorMachine

namespace Table

/-! ## States -/

/-- What a processor holds, as integers. -/
structure State where
  /-- The accumulator. -/
  accumulator : Int
  /-- The program counter. -/
  counter : Int
  /-- The opcode and the argument in a slot that is set. -/
  code : Int → Option (Nat × Int)
  /-- The number in a cell, zero where there is no cell. -/
  data : Int → Int

/-- An integer reduced to a signed word of 32 bits. -/
def wrap (n : Int) : Int := n.bmod (2 ^ 32)

/-- A condition, and the fault of an instruction that does not meet it. -/
structure Requirement where
  /-- Whether the condition holds. -/
  holds : Bool
  /-- The fault if it does not. -/
  fault : Fault

/-- The fault of the first requirement that is not met. -/
def firstFault (rs : List Requirement) : Option Fault := (rs.find? (!·.holds)).map Requirement.fault

/-- The modes in which an operation is legal. -/
def legalModes : Operation → List Mode
  | .nop | .not | .halt | .cmpl | .cmpz => [.direct]
  | .lod | .add | .sub | .mul | .div => [.direct, .immediate, .indirect]
  | .sto => [.direct, .indirect]
  | .and => [.direct, .immediate]
  | .jump | .jmpz => [.direct, .immediate, .indirect, .absolute]

/-- The operation with a number in the table. -/
def operationAt (group : Nat) : Operation :=
  [.nop, .not, .halt, .lod, .sto, .add, .sub, .mul, .div, .and, .jump, .jmpz, .cmpl, .cmpz].getD group
    .nop

/-- The mode with a number in the table. -/
def modeAt (flags : Nat) : Mode := [.direct, .immediate, .indirect, .absolute].getD flags .direct

namespace State

variable (s : State)

/-! ## The instruction at the program counter -/

/-- The opcode and the argument at the program counter; zeros if there are none. -/
def fetched : Nat × Int := (s.code s.counter).getD (0, 0)

/-- The opcode. -/
def opcode : Nat := s.fetched.1

/-- The argument. -/
def arg : Int := s.fetched.2

/-- The operation: the five high bits of the opcode. -/
def operation : Operation := operationAt (s.opcode / 8)

/-- The mode: the two bits of the opcode above the lowest. -/
def mode : Mode := modeAt (s.opcode / 2 % 4)

/-- The number that the argument designates. -/
def operand : Int :=
  match s.mode with
  | .direct | .absolute => s.data s.arg
  | .immediate => s.arg
  | .indirect => s.data (s.data s.arg)

/-- The cell that the argument designates. -/
def target : Int :=
  match s.mode with
  | .indirect => s.data s.arg
  | _ => s.arg

/-- The place to which the argument leads. -/
def destination : Int :=
  match s.mode with
  | .direct => s.counter + s.arg
  | .immediate => s.arg
  | .indirect => s.counter + s.data s.arg
  | .absolute => s.data s.arg

/-! ## Requirements -/

/-- The cells on the way to the operand. -/
def operandCells : List Int :=
  match s.mode with
  | .direct | .absolute => [s.arg]
  | .immediate => []
  | .indirect => [s.arg, s.data s.arg]

/-- The cells on the way to the destination. -/
def destinationCells : List Int :=
  match s.mode with
  | .direct | .immediate => []
  | .indirect | .absolute => [s.arg]

/-- The cells that the instruction has to read or write, in this order. A conditional jump that is not
taken needs none. -/
def cells : List Int :=
  match s.operation with
  | .nop | .not | .halt => []
  | .lod | .sto | .add | .sub | .mul | .div | .and => s.operandCells
  | .jump => s.destinationCells
  | .jmpz => if s.accumulator = 0 then s.destinationCells else []
  | .cmpl | .cmpz => [s.arg]

/-- The fault of a refused access. Comparisons, and jumps in the `indirect` mode, read their cell
themselves; in all other cases an operand is resolved. -/
def refusal (e : MemoryError) : Fault :=
  match s.operation, s.mode with
  | .cmpl, _ | .cmpz, _ | .jump, .indirect | .jmpz, .indirect => .memory e
  | _, _ => .resolution ⟨e⟩

/-- What is required of a cell. -/
def cellRequirement (a : Int) : Requirement :=
  ⟨0 ≤ a ∧ a < 512, s.refusal (.dataAddress (Int32.ofInt a))⟩

/-- What is required before the operation is known. -/
def fetchRequirements : List Requirement :=
  [⟨0 ≤ s.counter ∧ s.counter < 256, .memory (.codeAddress (Int32.ofInt s.counter))⟩,
    ⟨s.code s.counter ≠ none, .memory (.unsetSlot s.counter.toNat)⟩,
    ⟨Even ((Nat.digits 2 s.opcode).count 1), .parity (UInt8.ofNat s.opcode)⟩,
    ⟨s.opcode / 8 ≤ 13, .unknownOperation (UInt8.ofNat s.opcode)⟩]

/-- What is required of the operation. -/
def executionRequirements : List Requirement :=
  ⟨s.mode ∈ legalModes s.operation, .illegalMode s.operation s.mode⟩ ::
    (s.cells.map s.cellRequirement ++
      if s.operation = .div then [⟨s.operand ≠ 0, .zeroDivisor⟩] else [])

/-- The requirements of one cycle, in the order in which they count. -/
def requirements : List Requirement := s.fetchRequirements ++ s.executionRequirements

/-! ## Results -/

/-- The next instruction. -/
def advance : State := { s with counter := wrap (s.counter + 1) }

/-- A new accumulator, and the next instruction. -/
def accumulate (n : Int) : State := { s.advance with accumulator := wrap n }

/-- Another instruction. -/
def goTo (n : Int) : State := { s with counter := wrap n }

/-- The state after a cycle that meets all requirements. -/
def result : State :=
  match s.operation with
  | .nop => s.advance
  | .not => s.accumulate (if s.accumulator = 0 then 1 else 0)
  | .halt => s
  | .lod => s.accumulate s.operand
  | .sto => { s.advance with data := Function.update s.data s.target s.accumulator }
  | .add => s.accumulate (s.accumulator + s.operand)
  | .sub => s.accumulate (s.accumulator - s.operand)
  | .mul => s.accumulate (s.accumulator * s.operand)
  | .div => s.accumulate (s.accumulator.tdiv s.operand)
  | .and => s.accumulate (if s.accumulator ≠ 0 ∧ s.operand ≠ 0 then 1 else 0)
  | .jump => s.goTo s.destination
  | .jmpz => if s.accumulator = 0 then s.goTo s.destination else s.advance
  | .cmpl => s.accumulate (if s.data s.arg < 0 then 1 else 0)
  | .cmpz => s.accumulate (if s.data s.arg = 0 then 1 else 0)

/-- One cycle: the result, or the fault of the first requirement that is not met. -/
def step : Except Fault State :=
  match firstFault s.requirements with
  | some e => .error e
  | none => .ok s.result

end State

end Table

/-- What a processor holds, as integers. -/
def Processor.integers (p : Processor) : Table.State where
  accumulator := p.registers.accumulator.toInt
  counter := p.registers.counter.toInt
  code a :=
    if 0 ≤ a then (p.memory.code[a.toNat]?).join.map fun i => (i.opcode.toNat, i.arg.toInt) else none
  data a := if 0 ≤ a then (p.memory.data[a.toNat]?).elim 0 Int32.toInt else 0

end AccumulatorMachine

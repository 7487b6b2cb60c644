import AccumulatorMachine.Cycle

/-!
# Accesses

The operations on a processor other than its cycle: what may be read from and written to its registers
and its memory, as data, so that whole sequences of them can be spoken about.

## Main definitions

* `Access`, `Answer` — one operation and its result.
* `Processor.perform` — what an operation answers and leaves. A refused operation leaves everything
  as it was.
* `Processor.performAll` — several operations, up to the first one that is refused.
-/

set_option autoImplicit false

namespace AccumulatorMachine

/-- One operation on registers and memory. -/
inductive Access where
  | writeCode (index : Nat) (i : Instruction)
  | writeData (address value : Int32)
  | readCode (address : Int32)
  | readData (address : Int32)
  | readCodeRange (first last : Nat)
  | readDataRange (first last : Nat)
  | clearCode
  | clearData
  | setProgramSize (size : Nat)
  | setAccumulator (value : Int32)
  | setCounter (value : Int32)
  | resetRegisters
  | advance
deriving DecidableEq

/-- The result of an operation that is not refused. -/
inductive Answer where
  /-- The operation is done. -/
  | done
  /-- The instruction read. -/
  | instruction (i : Instruction)
  /-- The word read. -/
  | word (value : Int32)
  /-- The slots read. -/
  | slots (code : List (Option Instruction))
  /-- The cells read. -/
  | words (data : List Int32)
deriving DecidableEq

namespace Processor

/-- Replaces the memory, unless the new one is refused. -/
def store (p : Processor) : Except MemoryError Memory → Except MemoryError Answer × Processor
  | .error e => (.error e, p)
  | .ok m => (.ok .done, { p with memory := m })

/-- The answer to an operation, and the processor afterwards. -/
def perform (p : Processor) : Access → Except MemoryError Answer × Processor
  | .writeCode index i => p.store (p.memory.writeCode index i)
  | .writeData address value => p.store (p.memory.writeData address value)
  | .readCode address => ((p.memory.readCode address).map .instruction, p)
  | .readData address => ((p.memory.readData address).map .word, p)
  | .readCodeRange first last => ((p.memory.readCodeRange first last).map .slots, p)
  | .readDataRange first last => ((p.memory.readDataRange first last).map .words, p)
  | .clearCode => (.ok .done, { p with memory := p.memory.clearCode })
  | .clearData => (.ok .done, { p with memory := p.memory.clearData })
  | .setProgramSize size => (.ok .done, { p with memory := p.memory.setProgramSize size })
  | .setAccumulator value =>
    (.ok .done, { p with registers := { p.registers with accumulator := value } })
  | .setCounter value => (.ok .done, { p with registers := { p.registers with counter := value } })
  | .resetRegisters => (.ok .done, { p with registers := {} })
  | .advance => (.ok .done, { p with registers := p.registers.advance })

/-- Carries out operations in order, up to the first one that is refused. -/
def performAll (p : Processor) : List Access → Except MemoryError Unit × Processor
  | [] => (.ok (), p)
  | a :: as =>
    match p.perform a with
    | (.error e, p) => (.error e, p)
    | (.ok _, p) => p.performAll as

end Processor

end AccumulatorMachine

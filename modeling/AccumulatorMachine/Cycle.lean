import AccumulatorMachine.Microcode

/-!
# The cycle

One fetch, decode and execute cycle of a processor.

A cycle fails for the first of these reasons that applies: the program counter is outside the code, or
at an unset slot; the opcode fails the parity check; no operation has its group; the operation does not
accept the mode; a cell that is needed is outside the data; the divisor is zero.

## Main definitions

* `Processor.fetch` — the instruction at the program counter, decoded.
* `Microcode.cycle` — one cycle, in place.
* `Processor.step` — one cycle as a function that gives the processor afterwards, or a fault.
-/

set_option autoImplicit false

namespace AccumulatorMachine

/-- The instruction at the program counter, decoded. -/
def Processor.fetch (p : Processor) : Except Fault Decoded :=
  ((p.memory.readCode p.registers.counter).mapError .memory).bind
    (Decoded.ofInstruction p.registers.counter.toInt.toNat)

/-- One cycle. -/
def Microcode.cycle : Microcode LogLine := do
  let d ← look Processor.fetch
  d.microcode

/-- One cycle: the report of the instruction and the processor afterwards. -/
def Processor.step (p : Processor) : Except Fault (LogLine × Processor) :=
  match Microcode.cycle.run p with
  | .ok line p => .ok (line, p)
  | .error e _ => .error e

end AccumulatorMachine

import AccumulatorMachine.Word

/-!
# Registers

The accumulator and the program counter. Both are words: the program counter may leave the code, which
shows at the next fetch.

## Main definitions

* `Registers` — the two registers, zero at the start.
* `Registers.advance` — the program counter moves to the next instruction.
* `Registers.trace`, `Registers.table` — the registers as a log line and as a table shows them.
-/

set_option autoImplicit false

namespace AccumulatorMachine

/-- The two registers. -/
structure Registers where
  /-- The register that the operations work on. -/
  accumulator : Int32 := 0
  /-- The address of the next instruction. -/
  counter : Int32 := 0
deriving DecidableEq

namespace Registers

/-- Moves the program counter to the next instruction; the last word is followed by the first. -/
def advance (r : Registers) : Registers := { r with counter := r.counter + 1 }

/-- The bit patterns of the registers in base 16, as a log line shows them. -/
def trace (r : Registers) : String :=
  "[A=0x" ++ Numeral.lowerHex 8 (Word.pattern r.accumulator) ++ "][PC=0x" ++
    Numeral.lowerHex 2 (Word.pattern r.counter) ++ "]"

/-- The registers as signed numbers in base 10, right-aligned. -/
def table (r : Registers) : String :=
  "Registers [A=" ++ Numeral.padStart 11 (Numeral.decimal r.accumulator.toInt) ++ "] [PC=" ++
    Numeral.padStart 4 (Numeral.decimal r.counter.toInt) ++ "]"

end Registers

end AccumulatorMachine

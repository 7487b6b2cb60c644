import AccumulatorMachine.Fault
import AccumulatorMachine.Registers

/-!
# Log lines

A decoded instruction, what executing it does, and the line that reports both.

## Main definitions

* `Decoded` — an instruction taken from a slot, with its operation and its mode.
* `Decoded.ofInstruction` — decodes an instruction, or tells why it must not be executed.
* `Store`, `Effect` — the one cell an instruction may write, and all that it does.
* `LogLine` — a decoded instruction and its effect.
* `Decoded.text`, `LogLine.outcome`, `LogLine.text` — their written forms.
-/

set_option autoImplicit false

namespace AccumulatorMachine

/-- An instruction taken from a slot, with its operation and its mode. -/
structure Decoded where
  /-- The slot. -/
  address : Nat
  /-- The instruction as it was stored. -/
  instruction : Instruction
  /-- The operation of its group. -/
  op : Operation
  /-- The mode of its flags. -/
  mode : Mode
deriving DecidableEq

namespace Decoded

/-- Decodes an instruction. Parity comes first: a corrupted opcode is never taken apart. -/
def ofInstruction (address : Nat) (i : Instruction) : Except Fault Decoded :=
  if i.HasEvenParity then
    match Operation.ofGroup? i.group with
    | none => .error (.unknownOperation i.opcode)
    | some op => .ok ⟨address, i, op, i.mode⟩
  else .error (.parity i.opcode)

/-- The argument of the instruction. -/
def arg (d : Decoded) : Int32 := d.instruction.arg

/-- What stands in front of the assembly text: the slot and the bit patterns. -/
def heading (address : Nat) (i : Instruction) : String :=
  "#0x" ++ Numeral.upperHex 2 address ++ ": (" ++ i.bits ++ ")  "

/-- The slot, the bit patterns and the assembly text of an instruction. -/
def text (d : Decoded) : String := heading d.address d.instruction ++ d.instruction.text

end Decoded

/-- A word written to a cell. -/
structure Store where
  /-- The address of the cell. -/
  address : Int32
  /-- The word. -/
  value : Int32
deriving DecidableEq

/-- What executing an instruction does. -/
structure Effect where
  /-- The registers afterwards. -/
  registers : Registers
  /-- The cell written, if any. -/
  store : Option Store := none
deriving DecidableEq

/-- The report of one executed instruction. -/
structure LogLine extends Decoded where
  /-- What it did. -/
  effect : Effect
deriving DecidableEq

namespace LogLine

/-- The registers after the instruction, followed by the cell it wrote. -/
def outcome (l : LogLine) : String :=
  l.effect.registers.trace ++
    match l.effect.store with
    | none => ""
    | some s =>
      "[#0x" ++ Numeral.lowerHex 4 (Word.pattern s.address) ++ "=0x" ++
        Numeral.lowerHex 8 (Word.pattern s.value) ++ "]"

/-- The slot, the bit patterns, the assembly text in a column of 14 characters, and the outcome. -/
def text (l : LogLine) : String :=
  Decoded.heading l.address l.instruction ++ Numeral.padEnd 14 l.instruction.text ++ l.outcome

end LogLine

end AccumulatorMachine

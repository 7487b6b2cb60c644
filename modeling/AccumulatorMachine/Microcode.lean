import AccumulatorMachine.LogLine
import AccumulatorMachine.Operand

/-!
# Microcode

What the operations do to a processor, which is a pair of registers and memory. Microcode works in
place: a piece of it that fails leaves the processor as it is at that moment, with whatever was done
before. So the order of the steps matters, and each operation checks its mode first, then looks at the
cells that it needs, and only then changes anything.

## Main definitions

* `Processor` — registers and memory.
* `Microcode` — work on a processor in place.
* `Decoded.operand`, `cell`, `destination` — what an instruction reads.
* `Microcode.check`, `look`, `write`, `update` — the steps that microcode is made of.
* `Decoded.microcode` — the work of each of the fourteen operations.

## Main results

* `Microcode.run_look_bind`, `run_write_bind`, `run_advance`, `run_accumulate` — what the steps give.
-/

set_option autoImplicit false

namespace AccumulatorMachine

/-- Registers and memory. -/
structure Processor where
  /-- The registers. -/
  registers : Registers := {}
  /-- The memory. -/
  memory : Memory := .empty
deriving DecidableEq

/-- Work on a processor in place. What was done before a failure stays done. -/
abbrev Microcode (α : Type) : Type := EStateM Fault Processor α

namespace Decoded

/-! ## What an instruction reads -/

/-- The operand that the argument designates under the mode. -/
def operand (d : Decoded) (p : Processor) : Except Fault Operand :=
  (d.mode.resolve d.arg p.memory).mapError .resolution

/-- The word in the cell at the argument. -/
def cell (d : Decoded) (p : Processor) : Except Fault Int32 :=
  (p.memory.readData d.arg).mapError .memory

/-- Where a jump leads. The `direct` and `indirect` modes give a distance from the program counter, the
other two a destination. -/
def destination (d : Decoded) (p : Processor) : Except Fault Int32 :=
  match d.mode with
  | .direct => .ok (p.registers.counter + d.arg)
  | .immediate => .ok d.arg
  | .indirect => (d.cell p).map (p.registers.counter + ·)
  | .absolute => (d.operand p).map Operand.value

end Decoded

namespace Microcode

/-! ## Steps -/

/-- Takes something from the processor, or fails. -/
def look {α : Type} (f : Processor → Except Fault α) : Microcode α := fun p =>
  match f p with
  | .ok a => .ok a p
  | .error e => .error e p

/-- Fails unless the mode is one of those that the operation accepts. -/
def check (d : Decoded) (accepted : List Mode) : Microcode Unit :=
  look fun _ => if d.mode ∈ accepted then .ok () else .error (.illegalMode d.op d.mode)

/-- Writes a cell. -/
def write (s : Store) : Microcode Unit := fun p =>
  match p.memory.writeData s.address s.value with
  | .ok m => .ok () { p with memory := m }
  | .error e => .error (.memory e) p

/-- Changes the registers. -/
def update (f : Registers → Registers) : Microcode Unit :=
  modify fun p => { p with registers := f p.registers }

/-- Reports an instruction, the registers as they are now, and the cell that it wrote. -/
def report (d : Decoded) (store : Option Store := none) : Microcode LogLine :=
  return ⟨d, (← get).registers, store⟩

/-- Goes on to the next instruction. -/
def advance (d : Decoded) (store : Option Store := none) : Microcode LogLine := do
  update Registers.advance
  report d store

/-- Changes the accumulator and goes on to the next instruction. -/
def accumulate (d : Decoded) (f : Int32 → Int32) : Microcode LogLine := do
  update fun r => { r with accumulator := f r.accumulator }
  advance d

/-- A truth value as a word. -/
def truth (b : Bool) : Int32 := if b then 1 else 0

/-! ## Operations -/

/-- The modes in which an argument designates a word to calculate with. -/
def operandModes : List Mode := [.direct, .immediate, .indirect]

/-- Does nothing. -/
def nop (d : Decoded) : Microcode LogLine := do
  check d [.direct]
  advance d

/-- Negates the accumulator as a truth value. -/
def not (d : Decoded) : Microcode LogLine := do
  check d [.direct]
  accumulate d fun a => truth (a = 0)

/-- Stays where it is; stopping is left to the machine. -/
def halt (d : Decoded) : Microcode LogLine := do
  check d [.direct]
  report d

/-- Combines the accumulator with the operand. -/
def combine (d : Decoded) (accepted : List Mode) (f : Int32 → Int32 → Int32) : Microcode LogLine := do
  check d accepted
  let x ← look d.operand
  accumulate d (f · x.value)

/-- Stores the accumulator. -/
def sto (d : Decoded) : Microcode LogLine := do
  check d [.direct, .indirect]
  let x ← look d.operand
  let s : Store := ⟨x.target.getD d.arg, (← get).registers.accumulator⟩
  write s
  advance d s

/-- Divides the accumulator; a divisor that is zero is refused. -/
def div (d : Decoded) : Microcode LogLine := do
  check d operandModes
  let x ← look d.operand
  look fun _ => if x.value = 0 then .error .zeroDivisor else .ok ()
  accumulate d (· / x.value)

/-- Goes on where the argument leads. -/
def jump (d : Decoded) : Microcode LogLine := do
  let address ← look d.destination
  update fun r => { r with counter := address }
  report d

/-- Goes on where the argument leads if the accumulator is zero. Otherwise the argument plays no part,
and no cell is looked at. -/
def jmpz (d : Decoded) : Microcode LogLine := do
  if (← get).registers.accumulator = 0 then jump d else advance d

/-- Tests the cell at the argument. -/
def compare (d : Decoded) (test : Int32 → Bool) : Microcode LogLine := do
  check d [.direct]
  let x ← look d.cell
  accumulate d fun _ => truth (test x)

/-! ## Running microcode -/

/-- A look-up that fails leaves the processor as it is; otherwise the work goes on with what was
found. -/
theorem run_look_bind {α β : Type} (f : Processor → Except Fault α) (g : α → Microcode β)
    (p : Processor) :
    (look f >>= g).run p =
      match f p with
      | .ok a => (g a).run p
      | .error e => .error e p := by
  have hl : (look f).run p = match f p with
      | .ok a => .ok a p
      | .error e => .error e p := rfl
  rw [EStateM.run_bind, hl]
  cases f p <;> rfl

/-- A refused write leaves the processor as it is; otherwise the work goes on with the written memory. -/
theorem run_write_bind {β : Type} (s : Store) (g : Unit → Microcode β) (p : Processor) :
    (write s >>= g).run p =
      match p.memory.writeData s.address s.value with
      | .ok m => (g ()).run { p with memory := m }
      | .error e => .error (.memory e) p := by
  have hw : (write s).run p = match p.memory.writeData s.address s.value with
      | .ok m => .ok () { p with memory := m }
      | .error e => .error (.memory e) p := rfl
  rw [EStateM.run_bind, hw]
  cases p.memory.writeData s.address s.value <;> rfl

/-- Going on to the next instruction never fails. -/
theorem run_advance (d : Decoded) (store : Option Store) (p : Processor) :
    (advance d store).run p =
      .ok ⟨d, p.registers.advance, store⟩ { p with registers := p.registers.advance } := rfl

/-- Changing the accumulator never fails. -/
theorem run_accumulate (d : Decoded) (f : Int32 → Int32) (p : Processor) :
    (accumulate d f).run p =
      let r : Registers := { p.registers with accumulator := f p.registers.accumulator }
      .ok ⟨d, r.advance, none⟩ { p with registers := r.advance } := rfl

end Microcode

open Microcode in
/-- The work of an instruction. Arithmetic wraps around; division truncates toward zero. -/
def Decoded.microcode (d : Decoded) : Microcode LogLine :=
  match d.op with
  | .nop => nop d
  | .not => Microcode.not d
  | .halt => halt d
  | .lod => combine d operandModes fun _ x => x
  | .sto => sto d
  | .add => combine d operandModes (· + ·)
  | .sub => combine d operandModes (· - ·)
  | .mul => combine d operandModes (· * ·)
  | .div => div d
  | .and => combine d [.direct, .immediate] fun a x => truth (a ≠ 0 ∧ x ≠ 0)
  | .jump => jump d
  | .jmpz => jmpz d
  | .cmpl => compare d (· < 0)
  | .cmpz => compare d (· = 0)

end AccumulatorMachine

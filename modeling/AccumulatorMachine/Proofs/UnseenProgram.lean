import AccumulatorMachine.Proofs.BoundedRuns

/-!
# Only the fetch looks at the program

The slots of a memory and its program size are looked at in one place of a cycle: where the instruction
is fetched. Whatever the instruction does, it does to the registers and the data. So a cycle that fetches
the same instruction from another program does the same, and it leaves the other program as it is.

The statement is one equation between two pieces of work, not a relation between two processors: to put
another program in place and then to work is to work and then to put it in place.

## Main definitions

* `Memory.withProgram`, `Processor.withProgram`, `Machine.withProgram` — other slots and another program
  size.
* `Microcode.IgnoresProgram` — work that does the same whatever the program is.
* `Machine.FetchesAlike` — a machine that fetches the same instruction from another program, or none.

## Main results

* `Microcode.microcode_ignoresProgram` — each operation ignores the program.
* `Machine.step_withProgram` — one step that fetches alike.
* `Machine.stepped_withProgram`, `Machine.results_withProgram` — any number of them.
-/

set_option autoImplicit false

namespace AccumulatorMachine

variable (code : Vector (Option Instruction) codeSize) (size : Nat)

/-! ## Another program -/

/-- A memory with other slots and another program size. -/
def Memory.withProgram (m : Memory) : Memory := { m with code := code, programSize := size }

/-- A processor with another program in its memory. -/
def Processor.withProgram (p : Processor) : Processor :=
  { p with memory := p.memory.withProgram code size }

/-- A machine with another program in its memory. -/
def Machine.withProgram (m : Machine) : Machine :=
  m.withProcessor (m.toProcessor.withProgram code size)

/-- A transition to a machine with another program. -/
def Transition.withProgram (t : Transition) : Transition :=
  { t with machine := t.machine.withProgram code size }

/-- The cells are written as before. -/
lemma Memory.writeData_withProgram (m : Memory) (address value : Int32) :
    (m.withProgram code size).writeData address value =
      (m.writeData address value).map (withProgram code size) := by
  rw [writeData, writeData]
  cases position? dataSize address <;> rfl

/-! ## Work that ignores the program -/

namespace Microcode

/-- What some work gives, on a processor with another program. -/
def resultWithProgram {α : Type} :
    EStateM.Result Fault Processor α → EStateM.Result Fault Processor α
  | .ok a p => .ok a (p.withProgram code size)
  | .error e p => .error e (p.withProgram code size)

/-- Work that does the same whatever the program is, and leaves it alone. -/
def IgnoresProgram {α : Type} (x : Microcode α) : Prop :=
  ∀ (p : Processor) (code : Vector (Option Instruction) codeSize) (size : Nat),
    x.run (p.withProgram code size) = resultWithProgram code size (x.run p)

section Rules

variable {α β : Type}

/-- One work after the other ignores the program if both do. -/
lemma IgnoresProgram.bind {x : Microcode α} {g : α → Microcode β} (hx : IgnoresProgram x)
    (hg : ∀ a, IgnoresProgram (g a)) : IgnoresProgram (x >>= g) := by
  intro p code size
  rw [EStateM.run_bind, EStateM.run_bind, hx]
  cases x.run p with
  | ok a q => exact hg a q code size
  | error e q => rfl

/-- A look-up of something else than the program. -/
lemma IgnoresProgram.look {f : Processor → Except Fault α}
    (hf : ∀ (p : Processor) code size, f (p.withProgram code size) = f p) :
    IgnoresProgram (look f) := by
  intro p code size
  simp only [Microcode.look, EStateM.run, hf]
  cases f p <;> rfl

/-- The processor may be read, if the rest does not depend on its program. -/
lemma IgnoresProgram.get {g : Processor → Microcode β}
    (hsame : ∀ (p : Processor) code size, g (p.withProgram code size) = g p)
    (hg : ∀ p, IgnoresProgram (g p)) : IgnoresProgram (MonadState.get >>= g) := by
  intro p code size
  change (g (p.withProgram code size)).run (p.withProgram code size) = _
  rw [hsame, hg p p code size]
  rfl

/-- Storing a word does not look at the program. -/
lemma IgnoresProgram.write (s : Store) : IgnoresProgram (write s) := by
  intro p code size
  have hwrite : (p.withProgram code size).memory.writeData s.address s.value =
      (p.memory.writeData s.address s.value).map (Memory.withProgram code size) :=
    Memory.writeData_withProgram code size p.memory s.address s.value
  simp only [Microcode.write, EStateM.run, hwrite]
  cases p.memory.writeData s.address s.value <;> rfl

/-- Nor does changing the registers. -/
lemma IgnoresProgram.update (f : Registers → Registers) : IgnoresProgram (update f) :=
  fun _ _ _ => rfl

end Rules

section Operations

variable (d : Decoded)

/-- Nor does reporting what has been done. -/
lemma report_ignoresProgram (store : Option Store) : IgnoresProgram (report d store) :=
  fun _ _ _ => rfl

/-- The mode is that of the instruction, which has been fetched already. -/
lemma check_ignoresProgram (accepted : List Mode) : IgnoresProgram (check d accepted) :=
  IgnoresProgram.look fun _ _ _ => rfl

/-- Operands are words and cells. -/
lemma operand_ignoresProgram : IgnoresProgram (look d.operand) := by
  apply IgnoresProgram.look
  intro p code size
  rw [Decoded.operand, Decoded.operand]
  cases d.mode <;> rfl

/-- So is the cell to store into. -/
lemma cell_ignoresProgram : IgnoresProgram (look d.cell) := IgnoresProgram.look fun _ _ _ => rfl

/-- Advancing the program counter does not look at what stands there. -/
lemma advance_ignoresProgram (store : Option Store) : IgnoresProgram (advance d store) :=
  (IgnoresProgram.update _).bind fun _ => report_ignoresProgram d store

/-- The accumulator is changed in the same way. -/
lemma accumulate_ignoresProgram (f : Int32 → Int32) : IgnoresProgram (accumulate d f) :=
  (IgnoresProgram.update _).bind fun _ => advance_ignoresProgram d none

/-- The operations without an operand only check their mode. -/
lemma check_bind_ignoresProgram {accepted : List Mode} {x : Microcode LogLine}
    (hx : IgnoresProgram x) : IgnoresProgram (check d accepted >>= fun _ => x) :=
  (check_ignoresProgram d accepted).bind fun _ => hx

/-- So it is with an operand. -/
lemma combine_ignoresProgram (accepted : List Mode) (f : Int32 → Int32 → Int32) :
    IgnoresProgram (combine d accepted f) := by
  apply check_bind_ignoresProgram
  apply (operand_ignoresProgram d).bind
  intro x
  exact accumulate_ignoresProgram d _

/-- A store goes to the cells, and so not to the program. -/
lemma sto_ignoresProgram : IgnoresProgram (sto d) := by
  apply check_bind_ignoresProgram
  apply (operand_ignoresProgram d).bind
  intro x
  apply IgnoresProgram.get
  · intro p code size
    rfl
  · intro p
    exact (IgnoresProgram.write _).bind fun _ => advance_ignoresProgram d _

/-- A division fails for the same operand. -/
lemma div_ignoresProgram : IgnoresProgram (div d) := by
  apply check_bind_ignoresProgram
  apply (operand_ignoresProgram d).bind
  intro x
  apply (IgnoresProgram.look fun _ _ _ => rfl).bind
  intro _
  exact accumulate_ignoresProgram d _

/-- A comparison skips the next instruction without looking at it. -/
lemma compare_ignoresProgram (test : Int32 → Bool) : IgnoresProgram (compare d test) := by
  apply check_bind_ignoresProgram
  apply (cell_ignoresProgram d).bind
  intro x
  exact accumulate_ignoresProgram d _

/-- A jump looks at the program counter and perhaps at a cell. -/
lemma jump_ignoresProgram : IgnoresProgram (jump d) := by
  apply IgnoresProgram.bind
  · apply IgnoresProgram.look
    intro p code size
    rw [Decoded.destination, Decoded.destination]
    cases d.mode <;> rfl
  · intro address
    exact (IgnoresProgram.update _).bind fun _ => report_ignoresProgram d none

/-- A jump does not look at where it goes. -/
lemma jmpz_ignoresProgram : IgnoresProgram (jmpz d) := by
  apply IgnoresProgram.get
  · intro p code size
    rfl
  · intro p
    by_cases hzero : p.registers.accumulator = 0
    · rw [if_pos hzero]
      exact jump_ignoresProgram d
    · rw [if_neg hzero]
      exact advance_ignoresProgram d none

/-- **No operation looks at the program.** -/
lemma microcode_ignoresProgram : IgnoresProgram d.microcode := by
  rw [Decoded.microcode]
  cases d.op with
  | nop => exact check_bind_ignoresProgram d (advance_ignoresProgram d none)
  | not => exact check_bind_ignoresProgram d (accumulate_ignoresProgram d _)
  | halt => exact check_bind_ignoresProgram d (report_ignoresProgram d none)
  | lod | add | sub | mul | and => exact combine_ignoresProgram d _ _
  | sto => exact sto_ignoresProgram d
  | div => exact div_ignoresProgram d
  | jump => exact jump_ignoresProgram d
  | jmpz => exact jmpz_ignoresProgram d
  | cmpl | cmpz => exact compare_ignoresProgram d _

end Operations

variable {code size}

/-- A cycle that fetches the same instruction from another program does the same. -/
lemma run_cycle_withProgram {p : Processor} (h : (p.withProgram code size).fetch = p.fetch) :
    cycle.run (p.withProgram code size) = resultWithProgram code size (cycle.run p) := by
  rw [cycle, run_look_bind, run_look_bind, h]
  cases p.fetch with
  | ok d => exact microcode_ignoresProgram d p code size
  | error e => rfl

end Microcode

/-! ## The fetch -/

/-- The same instruction is fetched from another program if the slot at the program counter, if there
is one, holds the same. -/
lemma Processor.fetch_withProgram {code : Vector (Option Instruction) codeSize} {size : Nat}
    {p : Processor}
    (h : ∀ slot : Fin codeSize, p.registers.counter.toInt = slot →
      code.get slot = p.memory.code.get slot) :
    (p.withProgram code size).fetch = p.fetch := by
  have hread : (p.withProgram code size).memory.readCode p.registers.counter =
      p.memory.readCode p.registers.counter := by
    rw [Memory.readCode, Memory.readCode]
    cases hslot : position? codeSize p.registers.counter with
    | none => rfl
    | some slot =>
      have hcode : (p.withProgram code size).memory.code[slot] = p.memory.code[slot] :=
        h slot (position?_eq_some_iff.1 hslot)
      simp only [hcode]
  rw [fetch, fetch]
  exact congrArg (fun r => (Except.mapError Fault.memory r).bind _) hread

/-! ## Machines -/

namespace Machine

/-- A machine that has halted, or that finds the same in the slot at its program counter if its program
is replaced. -/
def FetchesAlike (m : Machine) : Prop :=
  m.halted = false → ∀ slot : Fin codeSize, m.registers.counter.toInt = slot →
    code.get slot = m.memory.code.get slot

variable {code size}

/-- **A step that fetches alike does the same.** -/
theorem step_withProgram {m : Machine} (h : m.FetchesAlike code) :
    (m.withProgram code size).step = m.step.withProgram code size := by
  have hhalted : (m.withProgram code size).halted = m.halted := rfl
  rw [step, step, hhalted]
  by_cases hh : m.halted = true
  · rw [if_pos hh, if_pos hh]
    rfl
  · have hfetch : (m.toProcessor.withProgram code size).fetch = m.toProcessor.fetch :=
      Processor.fetch_withProgram (h (Bool.eq_false_of_not_eq_true hh))
    have hcycle : Microcode.cycle.run (m.withProgram code size).toProcessor =
        Microcode.resultWithProgram code size (Microcode.cycle.run m.toProcessor) :=
      Microcode.run_cycle_withProgram hfetch
    rw [if_neg hh, if_neg hh, hcycle]
    cases Microcode.cycle.run m.toProcessor with
    | error e p => rfl
    | ok line p =>
      by_cases hop : line.op = .halt <;> simp only [Microcode.resultWithProgram, hop] <;> rfl

/-- Steps that fetch alike lead to the same machine but for the program. -/
lemma stepped_withProgram {m : Machine} {n : Nat} (h : ∀ j < n, (m.stepped j).FetchesAlike code) :
    (m.withProgram code size).stepped n = (m.stepped n).withProgram code size := by
  induction n with
  | zero => rfl
  | succ n ih =>
    have hbefore : (m.withProgram code size).stepped n = (m.stepped n).withProgram code size :=
      ih fun j hj => h j (Nat.lt_succ_of_lt hj)
    rw [stepped, stepped, hbefore, step_withProgram (h n (Nat.lt_succ_self n))]
    rfl

/-- Steps that fetch alike have the same results. -/
lemma results_withProgram {m : Machine} {n : Nat} (h : ∀ j < n, (m.stepped j).FetchesAlike code) :
    (m.withProgram code size).results n = m.results n := by
  rw [results, results]
  apply List.map_congr_left
  intro j hj
  have hlt : j < n := List.mem_range.1 hj
  rw [stepped_withProgram fun i hi => h i (hi.trans hlt), step_withProgram (h j hlt)]
  rfl

end Machine

end AccumulatorMachine

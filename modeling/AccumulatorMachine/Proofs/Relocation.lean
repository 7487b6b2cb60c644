import AccumulatorMachine.Proofs.TraceReplay

/-!
# Code that can be moved

The program counter is the only register that knows where the code stands, and only the jumps look at it.
A jump by a distance adds to the counter; any other jump sets it. So a list of instructions without jumps
of the second kind does the same wherever it stands in the memory, as long as it stands there alone: the
counters of two machines that hold it at different places differ by the same number of slots after each
step, also when they wrap around, and both leave the list at the same step.

## Main definitions

* `Memory.Holds` — a memory that holds a list of instructions from a slot on, and nothing else.
* `Instruction.IsMovable` — an instruction that does not jump to a fixed address.
* `Processor.Relocated` — two processors that differ in the place of their code only.
* `Microcode.InStep` — two pieces of work that do the same on such processors.

## Main results

* `Memory.Holds.readCode_eq_ok_iff` — where the instructions of a list are found.
* `Microcode.microcode_inStep` — each operation, at either place.
* `Machine.Relocated.step` — one step of two such machines.
* `Machine.relocated_runs_agree` — any number of steps.
-/

set_option autoImplicit false

namespace AccumulatorMachine

/-! ## Code at a place -/

/-- A memory that holds a list of instructions from a slot on, and nothing else. -/
def Memory.Holds (m : Memory) (base : Nat) (code : List Instruction) : Prop :=
  ∀ (slot : Nat) (h : slot < codeSize),
    m.code[slot] = if base ≤ slot then code[slot - base]? else none

/-- The empty memory holds no instructions, wherever they are looked for. -/
lemma Memory.holds_empty (base : Nat) : empty.Holds base [] := by
  intro slot hslot
  simp [empty]

/-- An instruction written behind the code of a memory belongs to the code. -/
lemma Memory.Holds.writeCode {m m' : Memory} {base : Nat} {code : List Instruction}
    (h : m.Holds base code) {i : Instruction}
    (hw : m.writeCode (base + code.length) i = .ok m') : m'.Holds base (code ++ [i]) := by
  intro slot hslot
  rw [code_of_writeCode hw hslot, h slot hslot]
  rcases Nat.lt_trichotomy slot (base + code.length) with hlt | rfl | hgt
  · rw [if_neg hlt.ne']
    by_cases hle : base ≤ slot
    · rw [if_pos hle, if_pos hle, List.getElem?_append_left (by omega)]
    · rw [if_neg hle, if_neg hle]
  · rw [if_pos rfl, if_pos (Nat.le_add_right base _), Nat.add_sub_cancel_left,
      List.getElem?_concat_length]
  · rw [if_neg hgt.ne, if_pos (by omega), if_pos (by omega), List.getElem?_eq_none (by omega),
      List.getElem?_eq_none (by rw [List.length_append, List.length_singleton]; omega)]

/-- An instruction of a list is found as far behind the place of the list as it stands in it, and no
other address has an instruction. -/
lemma Memory.Holds.readCode_eq_ok_iff {m : Memory} {base : Nat} {code : List Instruction}
    (h : m.Holds base code) (hfit : base + code.length ≤ codeSize) {address : Int32}
    {i : Instruction} :
    m.readCode address = .ok i ↔ ∃ n, code[n]? = some i ∧ address = Int32.ofNat (base + n) := by
  constructor
  · intro hread
    rw [readCode] at hread
    split at hread
    · cases hread
    · rename_i slot hslot
      have hcode := h slot slot.isLt
      split at hread
      · cases hread
      · rename_i j hj
        obtain rfl := Except.ok.inj hread
        have hsome : (if base ≤ (slot : Nat) then code[(slot : Nat) - base]? else none) = some j :=
          hcode.symm.trans hj
        obtain ⟨hle, hn⟩ := Option.ite_none_right_eq_some.1 hsome
        refine ⟨slot - base, hn, Int32.toInt_inj.1 ?_⟩
        rw [Nat.add_sub_cancel' hle, position?_eq_some_iff.1 hslot,
          Int32.toInt_ofNat_of_lt (slot.isLt.trans (by decide))]
  · rintro ⟨n, hn, rfl⟩
    obtain ⟨hlt, -⟩ := List.getElem?_eq_some_iff.1 hn
    have hslot : base + n < codeSize := by omega
    have hposition : position? codeSize (Int32.ofNat (base + n)) = some ⟨base + n, hslot⟩ := by
      rw [position?_ofNat (hslot.trans (by decide)), dif_pos hslot]
    have hcode := h (base + n) hslot
    rw [if_pos (Nat.le_add_right base n), Nat.add_sub_cancel_left, hn] at hcode
    simp only [readCode, hposition, Fin.getElem_fin, hcode]

/-- An instruction that does not jump to a fixed address. One with an opcode that fails the parity check
is never executed. -/
def Instruction.IsMovable (i : Instruction) : Prop :=
  i.HasEvenParity → ∀ op mode, i.decode = .ok (op, mode) → op = .jump ∨ op = .jmpz →
    mode = .direct ∨ mode = .indirect

/-! ## Two processors -/

/-- Moves the program counter by a number of slots; it may wrap around. -/
def Registers.shift (base : Nat) (r : Registers) : Registers :=
  { r with counter := r.counter + Int32.ofNat base }

/-- Going on to the next instruction may come before a shift or after it. -/
lemma Registers.advance_shift (base : Nat) (r : Registers) :
    (r.shift base).advance = r.advance.shift base := by
  simp only [shift, advance, Int32.add_assoc, Int32.add_comm (Int32.ofNat base)]

/-- Two processors that differ in the place of their code only: the first holds it from the start, the
second from a given slot on, and its program counter is that much ahead. -/
structure Processor.Relocated (code : List Instruction) (base : Nat) (p p' : Processor) : Prop where
  first : p.memory.Holds 0 code
  second : p'.memory.Holds base code
  registers : p'.registers = p.registers.shift base
  data : p'.memory.data = p.memory.data
  changed : p'.memory.changed = p.memory.changed

/-- An address is read in memories with the same data. -/
lemma Memory.readData_congr {m m' : Memory} (h : m'.data = m.data) (address : Int32) :
    m'.readData address = m.readData address := by
  simp only [readData, h]

/-- An argument designates the same operand in memories with the same data. -/
lemma Mode.resolve_congr {m m' : Memory} (h : m'.data = m.data) (mode : Mode) (arg : Int32) :
    mode.resolve arg m' = mode.resolve arg m := by
  cases mode <;> simp only [resolve, Memory.readData_congr h]

/-- The same instruction in another slot. -/
def Decoded.movedTo (d : Decoded) (address : Nat) : Decoded := { d with address := address }

/-- Two look-ups that both find something, in a relation, or both fail. -/
inductive FindsAlike {α : Type} (related : α → α → Prop) : Except Fault α → Except Fault α → Prop
  | ok {a a' : α} (h : related a a') : FindsAlike related (.ok a) (.ok a')
  | error (e e' : Fault) : FindsAlike related (.error e) (.error e')

/-- Look-ups with the same result find alike. -/
lemma FindsAlike.of_eq {α : Type} {r r' : Except Fault α} (h : r' = r) : FindsAlike Eq r r' := by
  subst h
  cases r' with
  | ok a => exact .ok rfl
  | error e => exact .error e e

namespace Processor.Relocated

variable {code : List Instruction} {base : Nat} {p p' : Processor}

/-- New registers leave the memories alone. -/
lemma withRegisters (h : Relocated code base p p') (r : Registers) :
    Relocated code base { p with registers := r } { p' with registers := r.shift base } :=
  ⟨h.first, h.second, rfl, h.data, h.changed⟩

/-- The accumulators are the same. -/
lemma accumulator (h : Relocated code base p p') :
    p'.registers.accumulator = p.registers.accumulator := by
  rw [h.registers]
  rfl

/-- The program counters differ by the base, as words. -/
lemma counter (h : Relocated code base p p') :
    p'.registers.counter = p.registers.counter + Int32.ofNat base := by
  rw [h.registers]
  rfl

/-- The operand of an instruction does not depend on the place of the code. -/
lemma operand (h : Relocated code base p p') (d : Decoded) (address : Nat) :
    (d.movedTo address).operand p' = d.operand p :=
  congrArg (Except.mapError Fault.resolution) (Mode.resolve_congr h.data d.mode d.arg)

/-- The cell at the argument does not depend on the place of the code. -/
lemma cell (h : Relocated code base p p') (d : Decoded) (address : Nat) :
    (d.movedTo address).cell p' = d.cell p :=
  congrArg (Except.mapError Fault.memory) (Memory.readData_congr h.data d.arg)

/-- A jump by a distance leads as far from the one place as from the other. -/
lemma destination (h : Relocated code base p p') {d : Decoded} (address : Nat)
    (hmode : d.mode = .direct ∨ d.mode = .indirect) :
    FindsAlike (fun target target' => target' = target + Int32.ofNat base)
      (d.destination p) ((d.movedTo address).destination p') := by
  have hmoved : (d.movedTo address).mode = d.mode := rfl
  have hadd : ∀ distance : Int32, p'.registers.counter + distance =
      p.registers.counter + distance + Int32.ofNat base := by
    intro distance
    rw [h.counter, Int32.add_assoc, Int32.add_assoc, Int32.add_comm distance]
  rw [Decoded.destination, Decoded.destination, hmoved]
  rcases hmode with hmode | hmode
  · rw [hmode]
    exact .ok (hadd d.arg)
  · rw [hmode]
    simp only [h.cell d address]
    cases d.cell p with
    | ok distance => exact .ok (hadd distance)
    | error e => exact .error e e

/-- Both processors find the same instruction, or both find none. -/
lemma fetch (h : Relocated code base p p') (hfit : base + code.length ≤ codeSize)
    (hcode : ∀ i ∈ code, i.IsMovable) :
    FindsAlike (fun d d' => (∃ address, d' = d.movedTo address) ∧
        (d.op = .jump ∨ d.op = .jmpz → d.mode = .direct ∨ d.mode = .indirect))
      p.fetch p'.fetch := by
  have hread : ∀ i, p.memory.readCode p.registers.counter = .ok i ↔
      p'.memory.readCode p'.registers.counter = .ok i := by
    intro i
    rw [h.first.readCode_eq_ok_iff (by omega), h.second.readCode_eq_ok_iff hfit, h.counter]
    -- Shifting is injective, so that the one counter is in the list where the other is.
    simp only [Int32.ofNat_add, Int32.add_comm _ (Int32.ofNat base), Int32.add_right_inj]
    simp
  rw [Processor.fetch, Processor.fetch]
  cases hp : p.memory.readCode p.registers.counter with
  | ok i =>
    obtain ⟨n, hn, -⟩ := (h.first.readCode_eq_ok_iff (by omega)).1 hp
    have hmovable : i.IsMovable := hcode i (List.mem_of_getElem? hn)
    rw [(hread i).1 hp]
    simp only [Except.mapError, Except.bind, Decoded.ofInstruction]
    by_cases hparity : i.HasEvenParity
    · rw [if_pos hparity, if_pos hparity]
      cases hop : Operation.ofGroup? i.group with
      | none => exact .error _ _
      | some op =>
        have hdecode : i.decode = .ok (op, i.mode) := by rw [Instruction.decode, hop]
        exact .ok ⟨⟨_, rfl⟩, hmovable hparity op i.mode hdecode⟩
    · rw [if_neg hparity, if_neg hparity]
      exact .error _ _
  | error e =>
    cases hp' : p'.memory.readCode p'.registers.counter with
    | ok i =>
      rw [(hread i).2 hp'] at hp
      cases hp
    | error e' => exact .error _ _

end Processor.Relocated

/-! ## Microcode in step -/

namespace Microcode

open Processor

/-- Two pieces of work that both end well, with results in a relation, or both fail. The processors
behind them still differ in the place of their code only. -/
inductive EndsAlike (code : List Instruction) (base : Nat) {α : Type} (related : α → α → Prop) :
    EStateM.Result Fault Processor α → EStateM.Result Fault Processor α → Prop
  | ok {a a' : α} {q q' : Processor} (ha : related a a') (hq : Relocated code base q q') :
      EndsAlike code base related (.ok a q) (.ok a' q')
  | error (e e' : Fault) {q q' : Processor} (hq : Relocated code base q q') :
      EndsAlike code base related (.error e q) (.error e' q')

/-- Two pieces of work that do the same, each on its own processor. -/
def InStep (code : List Instruction) (base : Nat) {α : Type} (related : α → α → Prop)
    (x x' : Microcode α) : Prop :=
  ∀ p p', Relocated code base p p' → EndsAlike code base related (x.run p) (x'.run p')

variable {code : List Instruction} {base : Nat}

section Rules

variable {α β : Type} {found : α → α → Prop} {related : β → β → Prop}

/-- Work in step is followed by work in step. -/
lemma InStep.bind {x x' : Microcode α} {g g' : α → Microcode β} (hx : InStep code base found x x')
    (hg : ∀ a a', found a a' → InStep code base related (g a) (g' a')) :
    InStep code base related (x >>= g) (x' >>= g') := by
  intro p p' h
  have hends := hx p p' h
  rw [EStateM.run_bind, EStateM.run_bind]
  generalize x.run p = r, x'.run p' = r' at hends
  cases hends with
  | ok ha hq => exact hg _ _ ha _ _ hq
  | error e e' hq => exact .error e e' hq

/-- Look-ups that find alike are in step. -/
lemma InStep.look {f f' : Processor → Except Fault α}
    (hf : ∀ p p', Relocated code base p p' → FindsAlike found (f p) (f' p')) :
    InStep code base found (look f) (look f') := by
  intro p p' h
  have hfinds := hf p p' h
  simp only [Microcode.look, EStateM.run]
  generalize f p = r, f' p' = r' at hfinds
  cases hfinds with
  | ok ha => exact .ok ha h
  | error e e' => exact .error e e' h

/-- Reading the processors gives the processors. -/
lemma InStep.get : InStep code base (Relocated code base) MonadState.get MonadState.get :=
  fun _ _ h => .ok h h

/-- A write to the data is carried out in both memories or in none. -/
lemma InStep.write (s : Store) : InStep code base (fun _ _ => True) (write s) (write s) := by
  intro p p' h
  simp only [Microcode.write, EStateM.run, Memory.writeData]
  cases position? dataSize s.address with
  | none => exact .error _ _ h
  | some cell =>
    have hdata : p'.memory.data.set cell s.value = p.memory.data.set cell s.value := by rw [h.data]
    exact .ok trivial ⟨h.first, h.second, h.registers, hdata, rfl⟩

/-- A change of the registers that goes with the shift is made in step. -/
lemma InStep.update {f f' : Registers → Registers}
    (hf : ∀ r, f' (r.shift base) = (f r).shift base) :
    InStep code base (fun _ _ => True) (update f) (update f') := by
  intro p p' h
  have hafter := h.withRegisters (f p.registers)
  rw [← hf, ← h.registers] at hafter
  exact .ok trivial hafter

end Rules

section Operations

/-- Two log lines of one operation. -/
def SameOperation (line line' : LogLine) : Prop := line'.op = line.op

variable (d : Decoded) (address : Nat)

/-- What is reported is the same, apart from where the instruction stands. -/
lemma report_inStep (store : Option Store) :
    InStep code base SameOperation (report d store) (report (d.movedTo address) store) :=
  fun _ _ h => .ok rfl h

/-- The mode is checked alike. -/
lemma check_inStep (accepted : List Mode) :
    InStep code base Eq (check d accepted) (check (d.movedTo address) accepted) :=
  InStep.look fun _ _ _ => .of_eq rfl

/-- The operand is looked up alike. -/
lemma operand_inStep :
    InStep code base Eq (look d.operand) (look (d.movedTo address).operand) :=
  InStep.look fun _ _ h => .of_eq (h.operand d address)

/-- Both program counters are advanced by one. -/
lemma advance_inStep (store : Option Store) :
    InStep code base SameOperation (advance d store) (advance (d.movedTo address) store) := by
  apply InStep.bind (InStep.update (Registers.advance_shift base))
  intro _ _ _
  exact report_inStep d address store

/-- The accumulators stay the same. -/
lemma accumulate_inStep (f : Int32 → Int32) :
    InStep code base SameOperation (accumulate d f) (accumulate (d.movedTo address) f) := by
  refine InStep.bind (InStep.update ?_) ?_
  · intro _
    rfl
  · intro _ _ _
    exact advance_inStep d address none

/-- The operations without an operand only check their mode. -/
lemma check_bind_inStep {accepted : List Mode} {x x' : Microcode LogLine}
    (hx : InStep code base SameOperation x x') :
    InStep code base SameOperation (check d accepted >>= fun _ => x)
      (check (d.movedTo address) accepted >>= fun _ => x') :=
  (check_inStep d address accepted).bind fun _ _ _ => hx

/-- So they do when they are combined with an operand. -/
lemma combine_inStep (accepted : List Mode) (f : Int32 → Int32 → Int32) :
    InStep code base SameOperation (combine d accepted f)
      (combine (d.movedTo address) accepted f) := by
  apply check_bind_inStep
  apply (operand_inStep d address).bind
  rintro x _ rfl
  exact accumulate_inStep d address _

/-- A store writes the accumulator, which is the same in both processors. -/
lemma sto_inStep : InStep code base SameOperation (sto d) (sto (d.movedTo address)) := by
  apply check_bind_inStep
  apply (operand_inStep d address).bind
  rintro x _ rfl
  apply InStep.get.bind
  intro p p' h
  rw [h.accumulator]
  apply (InStep.write _).bind
  intro _ _ _
  exact advance_inStep d address _

/-- A division fails for both or for none, and has the same quotient. -/
lemma div_inStep : InStep code base SameOperation (div d) (div (d.movedTo address)) := by
  apply check_bind_inStep
  apply (operand_inStep d address).bind
  rintro x _ rfl
  apply InStep.bind (InStep.look fun _ _ _ => .of_eq rfl)
  rintro _ _ rfl
  exact accumulate_inStep d address _

/-- A comparison tells the same and skips the next instruction for both or for none. -/
lemma compare_inStep (test : Int32 → Bool) :
    InStep code base SameOperation (compare d test) (compare (d.movedTo address) test) := by
  apply check_bind_inStep
  apply InStep.bind (InStep.look fun _ _ h => .of_eq (h.cell d address))
  rintro x _ rfl
  exact accumulate_inStep d address _

variable {d}

/-- A jump by a distance keeps the program counters apart as they are. -/
lemma jump_inStep (hmode : d.mode = .direct ∨ d.mode = .indirect) :
    InStep code base SameOperation (jump d) (jump (d.movedTo address)) := by
  apply InStep.bind (InStep.look fun _ _ h => h.destination address hmode)
  rintro target _ rfl
  refine InStep.bind (InStep.update ?_) ?_
  · intro _
    rfl
  · intro _ _ _
    exact report_inStep d address none

/-- A conditional jump looks at the accumulator, which is the same in both processors. -/
lemma jmpz_inStep (hmode : d.mode = .direct ∨ d.mode = .indirect) :
    InStep code base SameOperation (jmpz d) (jmpz (d.movedTo address)) := by
  apply InStep.get.bind
  intro p p' h
  rw [h.accumulator]
  by_cases hzero : p.registers.accumulator = 0
  · rw [if_pos hzero, if_pos hzero]
    exact jump_inStep address hmode
  · rw [if_neg hzero, if_neg hzero]
    exact advance_inStep d address none

/-- Each operation does the same wherever its instruction stands, unless it jumps to a fixed address. -/
lemma microcode_inStep
    (hmode : d.op = .jump ∨ d.op = .jmpz → d.mode = .direct ∨ d.mode = .indirect) :
    InStep code base SameOperation d.microcode (d.movedTo address).microcode := by
  have hop : (d.movedTo address).op = d.op := rfl
  rw [Decoded.microcode, Decoded.microcode, hop]
  cases hd : d.op with
  | nop => exact check_bind_inStep d address (advance_inStep d address none)
  | not => exact check_bind_inStep d address (accumulate_inStep d address _)
  | halt => exact check_bind_inStep d address (report_inStep d address none)
  | lod | add | sub | mul | and => exact combine_inStep d address _ _
  | sto => exact sto_inStep d address
  | div => exact div_inStep d address
  | jump => exact jump_inStep address (hmode (Or.inl hd))
  | jmpz => exact jmpz_inStep address (hmode (Or.inr hd))
  | cmpl | cmpz => exact compare_inStep d address _

end Operations

/-- A cycle does the same on both processors. -/
lemma cycle_inStep (hfit : base + code.length ≤ codeSize) (hcode : ∀ i ∈ code, i.IsMovable) :
    InStep code base SameOperation cycle cycle := by
  apply InStep.bind (InStep.look fun _ _ h => h.fetch hfit hcode)
  rintro d _ ⟨⟨address, rfl⟩, hmode⟩
  exact microcode_inStep address hmode

end Microcode

/-! ## Machines -/

namespace Machine

/-- Two machines that differ in the place of their code only. -/
structure Relocated (code : List Instruction) (base : Nat) (m m' : Machine) : Prop where
  processor : Processor.Relocated code base m.toProcessor m'.toProcessor
  halted : m'.halted = m.halted

variable {code : List Instruction} {base : Nat}

/-- A step succeeds on both machines or on none, and they still differ in the place of their code
only. -/
lemma Relocated.step {m m' : Machine} (h : Relocated code base m m')
    (hfit : base + code.length ≤ codeSize) (hcode : ∀ i ∈ code, i.IsMovable) :
    m'.step.result.isOk = m.step.result.isOk ∧ Relocated code base m.step.machine m'.step.machine := by
  rw [Machine.step, Machine.step, h.halted]
  by_cases hhalted : m.halted = true
  · rw [if_pos hhalted, if_pos hhalted]
    exact ⟨rfl, h⟩
  · rw [if_neg hhalted, if_neg hhalted]
    have hends := Microcode.cycle_inStep hfit hcode _ _ h.processor
    generalize Microcode.cycle.run m.toProcessor = r, Microcode.cycle.run m'.toProcessor = r' at hends
    cases hends with
    | error e e' hq => exact ⟨rfl, hq, rfl⟩
    | ok hline hq =>
      rename_i line line' q q'
      have hop : line'.op = line.op := hline
      simp only [hop]
      by_cases hhalt : line.op = .halt
      · rw [if_pos hhalt, if_pos hhalt]
        exact ⟨rfl, hq, rfl⟩
      · rw [if_neg hhalt, if_neg hhalt]
        exact ⟨rfl, hq, h.halted⟩

/-- Two such machines stay such machines. -/
lemma Relocated.stepped {m m' : Machine} (h : Relocated code base m m')
    (hfit : base + code.length ≤ codeSize) (hcode : ∀ i ∈ code, i.IsMovable) (k : Nat) :
    Relocated code base (m.stepped k) (m'.stepped k) := by
  induction k with
  | zero => exact h
  | succ k ih => exact (ih.step hfit hcode).2

/-- **Code without jumps to fixed addresses can be moved.** One machine holds the code from slot zero on,
the other from the slot `base` on, and nothing else; each starts with its first instruction, and they
agree on the rest. After any number of steps they still agree on the accumulator, the data, the cell
written last and on whether they have halted; the one program counter is that of the other plus `base`,
as words; and the next step succeeds on both machines or on none. -/
theorem relocated_runs_agree (code : List Instruction) (base : Nat)
    (hfit : base + code.length ≤ codeSize) (hcode : ∀ i ∈ code, i.IsMovable) (m m' : Machine)
    (hheld : m.memory.Holds 0 code) (hheld' : m'.memory.Holds base code)
    (hstart : m.registers.counter = 0) (hstart' : m'.registers.counter = Int32.ofNat base)
    (haccumulator : m'.registers.accumulator = m.registers.accumulator)
    (hdata : m'.memory.data = m.memory.data) (hchanged : m'.memory.changed = m.memory.changed)
    (hhalted : m'.halted = m.halted) (k : Nat) :
    let n := m.stepped k
    let n' := m'.stepped k
    n'.registers.accumulator = n.registers.accumulator ∧ n'.memory.data = n.memory.data ∧
      n'.memory.changed = n.memory.changed ∧ n'.halted = n.halted ∧
      n'.registers.counter = n.registers.counter + Int32.ofNat base ∧
      n'.step.result.isOk = n.step.result.isOk := by
  intro n n'
  have hregisters : m'.registers = m.registers.shift base := by
    rw [Registers.shift, hstart, Int32.zero_add, ← haccumulator, ← hstart']
  have hrelocated : Relocated code base n n' :=
    Relocated.stepped ⟨⟨hheld, hheld', hregisters, hdata, hchanged⟩, hhalted⟩ hfit hcode k
  have hprocessor := hrelocated.processor
  exact ⟨hprocessor.accumulator, hprocessor.data, hprocessor.changed, hrelocated.halted,
    hprocessor.counter, (hrelocated.step hfit hcode).1⟩

/-- A jump out of the code, at two places. The counters are five apart also behind it, and both machines
fault at the next step, though for different reasons. -/
theorem relocated_runs_agree_leaving :
    ∃ (jump : Instruction) (m m' : Machine), m.memory.Holds 0 [jump] ∧ m'.memory.Holds 5 [jump] ∧
      (m.stepped 1).registers.counter = -1 ∧ (m'.stepped 1).registers.counter = -1 + 5 ∧
      (m.stepped 1).step.result = .error (.memory (.codeAddress (-1))) ∧
      (m'.stepped 1).step.result = .error (.memory (.unsetSlot 4)) ∧
      (m'.stepped 2).halted = (m.stepped 2).halted := by
  let jump : Instruction := .assemble .jump .direct (-1)
  let m : Machine :=
    { memory := { Memory.empty with
        code := Memory.empty.code.set 0 (some jump)
        programSize := 0 } }
  let m' : Machine :=
    { registers := ⟨0, 5⟩
      memory := { Memory.empty with
        code := Memory.empty.code.set 5 (some jump)
        programSize := 5 } }
  have hmovable : ∀ i ∈ [jump], i.IsMovable := by
    intro i hi _ op mode hdecode _
    rw [List.mem_singleton.1 hi, Instruction.decode_assemble] at hdecode
    cases hdecode
    exact Or.inl rfl
  have hheld : m.memory.Holds 0 [jump] := (Memory.holds_empty 0).writeCode rfl
  have hheld' : m'.memory.Holds 5 [jump] := (Memory.holds_empty 5).writeCode rfl
  have hagree := relocated_runs_agree [jump] 5 (by decide) hmovable m m' hheld hheld' rfl rfl rfl rfl
    rfl rfl
  have hcounter : (m.stepped 1).registers.counter = -1 := by decide +kernel
  refine ⟨jump, m, m', hheld, hheld', hcounter, ?_, by decide +kernel, by decide +kernel, ?_⟩
  · obtain ⟨-, -, -, -, hcounter', -⟩ := hagree 1
    rw [hcounter', hcounter]
    rfl
  · obtain ⟨-, -, -, hhalted, -, -⟩ := hagree 2
    exact hhalted

end Machine

end AccumulatorMachine

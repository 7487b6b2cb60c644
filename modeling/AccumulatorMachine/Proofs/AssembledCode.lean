import AccumulatorMachine.Proofs.TableAgreement
import AccumulatorMachine.Proofs.TraceReplay

/-!
# Assembled code fails only for what it finds

An assembled instruction has even parity, the group of an operation and the flags of a mode. If the mode
is legal for the operation, all that a fetch and an operation check of the instruction itself is settled
before the program starts, and it stays settled, as no step changes the code. What can still fail are
the cells that the instruction is led to, its divisor, and the place of the program counter.

## Main definitions

* `Instruction.IsLegal` — an instruction put together with a mode that is legal for its operation.
* `Memory.IsAssembled` — a memory whose slots hold legal instructions only.
* `Machine.FailsFor` — the faults that are left, each with the situation in which it arises.

## Main results

* `Processor.fetch_of_isAssembled` — a fetch fails for its slot, or finds a legal mode.
* `Memory.exists_writeData_of_readData` — a cell that can be read can be written.
* `Machine.assembled_code_fails_dynamically` — both, along every run.
-/

set_option autoImplicit false

namespace AccumulatorMachine

/-! ## Legal instructions -/

namespace Instruction

/-- An instruction put together from an operation or from the bits of its opcode, with a mode that is
legal for the operation. -/
inductive IsLegal : Instruction → Prop where
  /-- From an operation and a mode. -/
  | assemble {op : Operation} {mode : Mode} (arg : Int32) (hlegal : mode ∈ Table.legalModes op) :
    IsLegal (assemble op mode arg)
  /-- From a group and flag bits. -/
  | encode {group flags : Nat} {arg : Int32} {i : Instruction} {op : Operation} {mode : Mode}
    (hencode : encode group flags arg = .ok i) (hop : op.group = group) (hmode : mode.flags = flags)
    (hlegal : mode ∈ Table.legalModes op) : IsLegal i

/-- The group of an operation and the flags of a mode make the instruction of these two. -/
lemma encode_group_flags (op : Operation) (mode : Mode) (arg : Int32) :
    encode op.group mode.flags arg = .ok (assemble op mode arg) := by
  rw [encode, Operation.ofGroup?_eq_some_iff.2 rfl]
  simp only [mode.flags_lt, dif_pos, Mode.ofFlags_flags]

/-- However it is put together, a legal instruction is that of an operation and a legal mode. -/
lemma isLegal_iff {i : Instruction} :
    i.IsLegal ↔ ∃ op mode arg, mode ∈ Table.legalModes op ∧ i = .assemble op mode arg := by
  constructor
  · intro h
    cases h with
    | assemble arg hlegal => exact ⟨_, _, arg, hlegal, rfl⟩
    | @encode _ _ arg _ op mode hencode hop hmode hlegal =>
      rw [← hop, ← hmode, encode_group_flags] at hencode
      exact ⟨op, mode, arg, hlegal, (Except.ok.inj hencode).symm⟩
  · rintro ⟨op, mode, arg, hlegal, rfl⟩
    exact .assemble arg hlegal

end Instruction

/-- A legal instruction is decoded, and its mode is legal. -/
lemma Decoded.ofInstruction_of_isLegal {i : Instruction} (h : i.IsLegal) (address : Nat) :
    ∃ d, ofInstruction address i = .ok d ∧ d.mode ∈ Table.legalModes d.op := by
  obtain ⟨op, mode, arg, hlegal, rfl⟩ := Instruction.isLegal_iff.1 h
  have hgroup : Operation.ofGroup? (Instruction.assemble op mode arg).group = some op :=
    Operation.ofGroup?_eq_some_iff.2 (Instruction.assemble_group op mode arg).symm
  refine ⟨⟨address, .assemble op mode arg, op, mode⟩, ?_, hlegal⟩
  rw [ofInstruction, if_pos (Instruction.assemble_hasEvenParity op mode arg), hgroup,
    Instruction.assemble_mode]

/-- A memory whose slots, as far as they are set, hold legal instructions. -/
def Memory.IsAssembled (m : Memory) : Prop :=
  ∀ (slot : Fin codeSize) (i : Instruction), m.code.get slot = some i → i.IsLegal

/-- Nothing is set in the empty memory. -/
lemma Memory.isAssembled_empty : Memory.empty.IsAssembled := by
  intro slot i hslot
  have hunset : Memory.empty.code.get slot = none := Vector.getElem_replicate slot.isLt
  cases hunset.symm.trans hslot

/-- Writing a legal instruction keeps the code assembled. -/
lemma Memory.IsAssembled.writeCode {m m' : Memory} {index : Nat} {i : Instruction}
    (h : m.IsAssembled) (hi : i.IsLegal) (hwrite : m.writeCode index i = .ok m') :
    m'.IsAssembled := by
  intro slot j hslot
  replace hslot : m'.code[(slot : Nat)] = some j := hslot
  rw [code_of_writeCode hwrite slot.isLt] at hslot
  split at hslot
  · obtain rfl := Option.some.inj hslot
    exact hi
  · exact h slot j hslot

/-! ## What is left to fail -/

/-- The situations in which the step of a machine with assembled code may fail, and the faults. -/
inductive Machine.FailsFor (m : Machine) : Fault → Prop where
  /-- The machine has halted before. -/
  | halted (hhalted : m.halted = true) : FailsFor m .halted
  /-- The program counter is outside the code. -/
  | codeAddress (hout : position? codeSize m.registers.counter = none) :
    FailsFor m (.memory (.codeAddress m.registers.counter))
  /-- The program counter is at an unset slot. -/
  | unsetSlot {slot : Fin codeSize} (hcounter : m.registers.counter.toInt = slot)
    (hunset : m.memory.code.get slot = none) : FailsFor m (.memory (.unsetSlot slot))
  /-- A comparison or an `indirect` jump reads a cell outside the data. -/
  | cell {d : Decoded} (address : Int32) (hfetch : m.toProcessor.fetch = .ok d)
    (hreads : d.op ∈ [.cmpl, .cmpz] ∨ d.op ∈ [.jump, .jmpz] ∧ d.mode = .indirect) :
    FailsFor m (.memory (.dataAddress address))
  /-- An operand, that of an `absolute` jump among them, leads outside the data. -/
  | operand {d : Decoded} (address : Int32) (hfetch : m.toProcessor.fetch = .ok d)
    (hresolves : d.op ∈ Table.operandOperations ∨ d.op ∈ [.jump, .jmpz] ∧ d.mode = .absolute) :
    FailsFor m (.resolution ⟨.dataAddress address⟩)
  /-- A division by zero. -/
  | zeroDivisor {d : Decoded} (hfetch : m.toProcessor.fetch = .ok d) (hop : d.op = .div) :
    FailsFor m .zeroDivisor

/-- A fetch from assembled code fails for the place of the program counter, or finds an instruction with
a legal mode. -/
lemma Processor.fetch_of_isAssembled {p : Processor} (h : p.memory.IsAssembled) :
    (position? codeSize p.registers.counter = none ∧
        p.fetch = .error (.memory (.codeAddress p.registers.counter))) ∨
      (∃ slot : Fin codeSize, p.registers.counter.toInt = slot ∧ p.memory.code.get slot = none ∧
        p.fetch = .error (.memory (.unsetSlot slot))) ∨
      ∃ d, p.fetch = .ok d ∧ d.mode ∈ Table.legalModes d.op := by
  rw [fetch, Memory.readCode]
  cases hslot : position? codeSize p.registers.counter with
  | none => exact .inl ⟨rfl, rfl⟩
  | some slot =>
    right
    cases hcode : p.memory.code[slot] with
    | none =>
      left
      refine ⟨slot, position?_eq_some_iff.1 hslot, hcode, ?_⟩
      simp only [hcode]
      rfl
    | some i =>
      right
      obtain ⟨d, hd, hlegal⟩ :=
        Decoded.ofInstruction_of_isLegal (h slot i hcode) p.registers.counter.toInt.toNat
      refine ⟨d, ?_, hlegal⟩
      simp only [hcode]
      exact hd

namespace Table

/-- Who is refused a cell, and with which fault. -/
lemma refusal_of_mem_cells {s : State} {a : Int} (ha : a ∈ s.cells) (e : MemoryError) :
    (s.refusal e = .memory e ∧
        (s.operation ∈ [.cmpl, .cmpz] ∨ s.operation ∈ [.jump, .jmpz] ∧ s.mode = .indirect)) ∨
      (s.refusal e = .resolution ⟨e⟩ ∧
        (s.operation ∈ operandOperations ∨ s.operation ∈ [.jump, .jmpz] ∧ s.mode = .absolute)) := by
  by_cases hop : s.operation ∈ operandOperations
  · exact .inr ⟨(cells_of_mem_operandOperations s hop).2 e, .inl hop⟩
  · simp only [State.cells, State.destinationCells, State.refusal] at ha ⊢
    cases hs : s.operation <;> simp [hs, operandOperations] at ha hop ⊢
    -- Only jumps are left; the modes in which they need no cell are excluded by the cell.
    all_goals cases hm : s.mode <;> simp [hm] at ha ⊢

/-- An operation in a legal mode is refused a cell or a divisor, and nothing else. -/
lemma fault_of_executionRequirements {s : State} (hlegal : s.mode ∈ legalModes s.operation)
    {e : Fault} (h : firstFault s.executionRequirements = some e) :
    (∃ a ∈ s.cells, e = s.refusal (.dataAddress (Int32.ofInt a))) ∨
      s.operation = .div ∧ e = .zeroDivisor := by
  rw [State.executionRequirements, firstFault_cons_pos hlegal, firstFault_append] at h
  rcases Option.or_eq_some_iff.1 h with hcell | ⟨-, hdivisor⟩
  · left
    obtain ⟨met, r, rest, hrs, -, -, rfl⟩ := (firstFault_eq_some_iff _ _).1 hcell
    have hmem : r ∈ s.cells.map s.cellRequirement := by
      rw [hrs]
      exact List.mem_append_right met List.mem_cons_self
    obtain ⟨a, ha, rfl⟩ := List.mem_map.1 hmem
    exact ⟨a, ha, rfl⟩
  · right
    by_cases hop : s.operation = .div
    · rw [if_pos hop] at hdivisor
      by_cases hzero : s.operand ≠ 0
      · rw [firstFault_cons_pos hzero] at hdivisor
        cases hdivisor
      · rw [firstFault_cons_neg hzero] at hdivisor
        exact ⟨hop, (Option.some.inj hdivisor).symm⟩
    · rw [if_neg hop] at hdivisor
      cases hdivisor

end Table

/-! ## Storing -/

/-- A cell that can be read can be written. -/
lemma Memory.exists_writeData_of_readData {m : Memory} {address value : Int32}
    (h : m.readData address = .ok value) (other : Int32) :
    ∃ m', m.writeData address other = .ok m' := by
  rw [readData] at h
  rw [writeData]
  cases hcell : position? dataSize address with
  | none =>
    rw [hcell] at h
    cases h
  | some cell => exact ⟨_, rfl⟩

/-- Unless it is the argument itself, an operand is kept in a cell, from which it has been read. -/
lemma Mode.exists_target_of_resolve {mode : Mode} {arg : Int32} {m : Memory} {x : Operand}
    (h : mode.resolve arg m = .ok x) (hmode : mode ≠ .immediate) :
    ∃ address, x.target = some address ∧ m.readData address = .ok x.value := by
  cases mode with
  | direct | absolute =>
    rw [resolve] at h
    cases hread : m.readData arg with
    | error e =>
      rw [hread] at h
      cases h
    | ok value =>
      rw [hread] at h
      cases h
      exact ⟨arg, rfl, hread⟩
  | immediate => exact absurd rfl hmode
  | indirect =>
    rw [resolve] at h
    cases hread : m.readData arg with
    | error e =>
      rw [hread] at h
      cases h
    | ok address =>
      simp only [hread] at h
      cases hcell : m.readData address with
      | error e =>
        rw [hcell] at h
        cases h
      | ok value =>
        rw [hcell] at h
        cases h
        exact ⟨address, rfl, hcell⟩

/-- The operand of a store in a legal mode is in a cell that can be written, so that neither the write
is refused nor the bare argument taken for an address. -/
lemma Decoded.exists_target_of_sto {d : Decoded} {p : Processor} {x : Operand}
    (hlegal : d.mode ∈ Table.legalModes d.op) (hop : d.op = .sto) (hx : d.operand p = .ok x) :
    ∃ address m, x.target = some address ∧
      p.memory.writeData address p.registers.accumulator = .ok m := by
  have hmode : d.mode ≠ .immediate := by
    intro himmediate
    rw [hop, himmediate] at hlegal
    revert hlegal
    decide
  rw [operand] at hx
  cases hresolve : d.mode.resolve d.arg p.memory with
  | error e =>
    rw [hresolve] at hx
    cases hx
  | ok y =>
    rw [hresolve] at hx
    cases hx
    obtain ⟨address, htarget, hread⟩ := Mode.exists_target_of_resolve hresolve hmode
    obtain ⟨m, hm⟩ := Memory.exists_writeData_of_readData hread p.registers.accumulator
    exact ⟨address, m, htarget, hm⟩

namespace Machine

/-! ## Runs -/

/-- A step of a machine with assembled code fails only for a reason that lies in its state.

**Proof sketch.** A fetch fails only for its slot. If it succeeds, the mode is legal, so that of all the
requirements of the table only those of the cells and of the divisor are left. -/
lemma failsFor_of_step_error {m : Machine} (h : m.memory.IsAssembled) {e : Fault}
    (he : m.step.result = .error e) : m.FailsFor e := by
  cases hh : m.halted with
  | true =>
    rw [step_of_halted hh] at he
    cases he
    exact .halted hh
  | false =>
    have hcycle : ∃ q, Microcode.cycle.run m.toProcessor = .error e q := by
      rw [step, hh, if_neg Bool.false_ne_true] at he
      cases hrun : Microcode.cycle.run m.toProcessor with
      | error e' q =>
        rw [hrun] at he
        cases he
        exact ⟨q, rfl⟩
      | ok line q =>
        rw [hrun] at he
        by_cases hop : line.op = .halt <;> simp [hop, halt] at he
    obtain ⟨q, hq⟩ := hcycle
    rw [Microcode.cycle, Microcode.run_look_bind] at hq
    rcases Processor.fetch_of_isAssembled h with
      ⟨hout, hfetch⟩ | ⟨slot, hcounter, hunset, hfetch⟩ | ⟨d, hfetch, hlegal⟩
    · rw [hfetch] at hq
      cases hq
      exact .codeAddress hout
    · rw [hfetch] at hq
      cases hq
      exact .unsetSlot hcounter hunset
    · rw [hfetch] at hq
      have hfetched := Table.fetch_settles m.toProcessor
      rw [hfetch] at hfetched
      replace hfetched : Table.Fetched m.toProcessor.integers d := hfetched.2
      have hfault := Table.microcode_meets hfetched
      simp only [Table.Meets, hq] at hfault
      rw [← hfetched.mode, ← hfetched.operation] at hlegal
      rcases Table.fault_of_executionRequirements hlegal hfault with ⟨a, ha, rfl⟩ | ⟨hop, rfl⟩
      · rcases Table.refusal_of_mem_cells ha (.dataAddress (Int32.ofInt a)) with
          ⟨hrefusal, hwho⟩ | ⟨hrefusal, hwho⟩
        all_goals rw [hfetched.operation, hfetched.mode] at hwho; rw [hrefusal]
        · exact .cell _ hfetch hwho
        · exact .operand _ hfetch hwho
      · exact .zeroDivisor hfetch (hfetched.operation.symm.trans hop)

/-- Code that is assembled stays so. -/
lemma isAssembled_stepped {m : Machine} (h : m.memory.IsAssembled) (n : Nat) :
    (m.stepped n).memory.IsAssembled := by
  rw [Memory.IsAssembled, (Replay.follows_log m n).code]
  exact h

/-- **Assembled code fails only for what it finds.** If all slots that are set hold legal instructions,
then along every run, from any registers and any data:

* no step complains about parity, about an unknown operation or about a mode;
* a step that fails does so for one of the reasons of `FailsFor`;
* a store that has resolved its operand has found a cell, and its write is carried out. -/
theorem assembled_code_fails_dynamically {m : Machine} (h : m.memory.IsAssembled) (n : Nat) :
    (∀ opcode op mode, (m.stepped n).step.result ≠ .error (.parity opcode) ∧
        (m.stepped n).step.result ≠ .error (.unknownOperation opcode) ∧
        (m.stepped n).step.result ≠ .error (.illegalMode op mode)) ∧
      (∀ e, (m.stepped n).step.result = .error e → (m.stepped n).FailsFor e) ∧
      ∀ d x, (m.stepped n).toProcessor.fetch = .ok d → d.op = .sto →
        d.operand (m.stepped n).toProcessor = .ok x →
        ∃ address memory, x.target = some address ∧
          (m.stepped n).memory.writeData address (m.stepped n).registers.accumulator = .ok memory := by
  have hassembled := isAssembled_stepped h n
  have hfails : ∀ e, (m.stepped n).step.result = .error e → (m.stepped n).FailsFor e :=
    fun e he => failsFor_of_step_error hassembled he
  refine ⟨fun opcode op mode => ⟨?_, ?_, ?_⟩, hfails, fun d x hfetch hop hx => ?_⟩
  · intro he
    cases hfails _ he
  · intro he
    cases hfails _ he
  · intro he
    cases hfails _ he
  · rcases Processor.fetch_of_isAssembled hassembled with
      ⟨-, herror⟩ | ⟨slot, -, -, herror⟩ | ⟨d', hd', hlegal⟩
    · cases herror.symm.trans hfetch
    · cases herror.symm.trans hfetch
    · obtain rfl := Except.ok.inj (hd'.symm.trans hfetch)
      exact Decoded.exists_target_of_sto hlegal hop hx

/-- A store by way of another cell is carried out, and the division by zero behind it fails. -/
theorem assembled_code_fails_dynamically_store_divide :
    ∃ m : Machine, m.memory.IsAssembled ∧
      (∃ d memory, m.toProcessor.fetch = .ok d ∧ d.op = .sto ∧ d.mode = .indirect ∧
        m.memory.writeData 0 7 = .ok memory) ∧
      (m.stepped 1).memory.readData 0 = .ok 7 ∧
      (m.stepped 1).step.result = .error .zeroDivisor ∧ (m.stepped 1).FailsFor .zeroDivisor := by
  let store : Instruction := .assemble .sto .indirect 5
  let divide : Instruction := .assemble .div .immediate 0
  let first : Memory := { Memory.empty with code := Memory.empty.code.set 0 (some store) }
  let second : Memory := { first with code := first.code.set 1 (some divide), programSize := 1 }
  have hstore : Memory.empty.writeCode 0 store = .ok first := rfl
  have hfirst : first.IsAssembled :=
    Memory.isAssembled_empty.writeCode (.assemble 5 (by decide)) hstore
  have hdivide : first.writeCode 1 divide = .ok second := rfl
  have hsecond : second.IsAssembled := hfirst.writeCode (.assemble 0 (by decide)) hdivide
  let m : Machine := { registers := ⟨7, 0⟩, memory := second }
  let d : Decoded := ⟨0, store, .sto, .indirect⟩
  have hfetch : m.toProcessor.fetch = .ok d := by decide
  have hoperand : d.operand m.toProcessor = .ok ⟨some 0, 0⟩ := by decide
  obtain ⟨address, memory, htarget, hwrite⟩ :=
    (assembled_code_fails_dynamically (m := m) hsecond 0).2.2 d _ hfetch rfl hoperand
  obtain rfl : 0 = address := Option.some.inj htarget
  have hzero : (m.stepped 1).step.result = .error .zeroDivisor := by decide
  exact ⟨m, hsecond, ⟨d, memory, hfetch, rfl, rfl, hwrite⟩, by decide, hzero,
    (assembled_code_fails_dynamically (m := m) hsecond 1).2.1 _ hzero⟩

end Machine

end AccumulatorMachine

import AccumulatorMachine.Proofs.InstructionTable
import Mathlib.Tactic

/-!
# The machine agrees with its table

A cycle of the machine is work in place: it fetches, decodes, checks the mode, looks at cells and only
then changes registers and memory. The table of `AccumulatorMachine.Proofs.InstructionTable` knows no
such order. Here the two are brought together: every look-up of the work settles some requirements of
the table, in their order, and what comes after the last look-up gives the result of the table.

## Main definitions

* `Table.Settles` — a look-up fails with the first of some requirements that is not met, and otherwise
  finds what is described.
* `Table.Meets` — the same of work in place.
* `Table.Fetched` — a decoded instruction is the one that the table finds at the program counter.

## Main results

* `Table.Meets.look` — look-ups settle their requirements one after the other.
* `Table.microcode_meets` — the work of an operation meets what the table requires of it.
* `Table.cycle_meets` — a cycle meets the requirements of the table and leaves its result.
* `Machine.step_agrees_with_table` — so does the step of a machine that has not halted.
-/

set_option autoImplicit false

namespace AccumulatorMachine

namespace Table

/-! ## The first fault -/

/-- Nothing required, no fault. -/
@[simp] lemma firstFault_nil : firstFault [] = none := rfl

/-- A requirement that is met is passed over. -/
lemma firstFault_cons_pos {P : Prop} [Decidable P] (h : P) (e : Fault) (rs : List Requirement) :
    firstFault (⟨P, e⟩ :: rs) = firstFault rs := by
  simp [firstFault, h]

/-- A requirement that is not met gives its fault. -/
lemma firstFault_cons_neg {P : Prop} [Decidable P] (h : ¬ P) (e : Fault) (rs : List Requirement) :
    firstFault (⟨P, e⟩ :: rs) = some e := by
  simp [firstFault, h]

/-- Further requirements count only if the first ones are all met. -/
lemma firstFault_append (rs rs' : List Requirement) :
    firstFault (rs ++ rs') = (firstFault rs).or (firstFault rs') := by
  simp only [firstFault, List.find?_append]
  cases rs.find? (!·.holds) <;> rfl

/-- There is no fault exactly when all requirements are met. -/
lemma firstFault_eq_none_iff (rs : List Requirement) :
    firstFault rs = none ↔ ∀ r ∈ rs, r.holds = true := by
  simp [firstFault]

/-- The first fault is that of a requirement that is not met behind others that all are. -/
lemma firstFault_eq_some_iff (rs : List Requirement) (e : Fault) :
    firstFault rs = some e ↔
      ∃ met r rest, rs = met ++ r :: rest ∧ (∀ q ∈ met, q.holds = true) ∧ r.holds = false ∧
        r.fault = e := by
  simp only [firstFault, Option.map_eq_some_iff, List.find?_eq_some_iff_append]
  constructor
  · intro h
    obtain ⟨r, ⟨hr, met, rest, rfl, hmet⟩, rfl⟩ := h
    exact ⟨met, r, rest, rfl, by simpa using hmet, by simpa using hr, rfl⟩
  · intro h
    obtain ⟨met, r, rest, rfl, hmet, hr, rfl⟩ := h
    exact ⟨r, ⟨by simpa using hr, met, rest, rfl, by simpa using hmet⟩, rfl⟩

/-! ## Settling requirements -/

/-- A look-up fails with the fault of the first requirement that is not met. If all are, it finds
something of which `post` holds. -/
def Settles {α : Type} (rs : List Requirement) (x : Except Fault α) (post : α → Prop) : Prop :=
  match x with
  | .error e => firstFault rs = some e
  | .ok a => firstFault rs = none ∧ post a

/-- Work on a processor fails with the fault of the first requirement that is not met. If all are, it
gives something and leaves a processor of which `post` holds. -/
def Meets {α : Type} (rs : List Requirement) (x : Microcode α) (p : Processor)
    (post : α → Processor → Prop) : Prop :=
  match x.run p with
  | .error e _ => firstFault rs = some e
  | .ok a q => firstFault rs = none ∧ post a q

section Rules

variable {α β : Type} {rs rs' : List Requirement}

/-- One look-up after the other settles the requirements of both. -/
lemma Settles.bind {x : Except Fault α} {f : α → Except Fault β} {P : α → Prop} {Q : β → Prop}
    (hx : Settles rs x P) (hf : ∀ a, P a → Settles rs' (f a) Q) :
    Settles (rs ++ rs') (x.bind f) Q := by
  cases x with
  | error e =>
    have he : firstFault rs = some e := hx
    show firstFault (rs ++ rs') = some e
    rw [firstFault_append, he]
    rfl
  | ok a =>
    obtain ⟨hn, ha⟩ := hx
    have hb := hf a ha
    show Settles (rs ++ rs') (f a) Q
    simp only [Settles, firstFault_append, hn, Option.none_or] at hb ⊢
    exact hb

/-- What is made of the thing found settles nothing more. -/
lemma Settles.map {x : Except Fault α} {f : α → β} {P : α → Prop} {Q : β → Prop}
    (hx : Settles rs x P) (hf : ∀ a, P a → Q (f a)) : Settles rs (x.map f) Q := by
  cases x with
  | error e => exact hx
  | ok a => exact ⟨hx.1, hf a hx.2⟩

/-- Once something is found, all that was required of the look-up may be used. -/
lemma Settles.and_holds {x : Except Fault α} {P : α → Prop} (hx : Settles rs x P) :
    Settles rs x fun a => P a ∧ ∀ r ∈ rs, r.holds = true := by
  cases x with
  | error e => exact hx
  | ok a => exact ⟨hx.1, hx.2, (firstFault_eq_none_iff rs).1 hx.1⟩

/-- **Look-ups settle requirements one after the other**: work that starts with a look-up meets the
requirements of the look-up and, behind them, those of the rest. -/
lemma Meets.look {f : Processor → Except Fault α} {g : α → Microcode β} {p : Processor}
    {P : α → Prop} {Q : β → Processor → Prop} (hf : Settles rs (f p) P)
    (hg : ∀ a, P a → Meets rs' (g a) p Q) : Meets (rs ++ rs') (Microcode.look f >>= g) p Q := by
  rw [Meets, Microcode.run_look_bind]
  cases hx : f p with
  | error e =>
    rw [hx] at hf
    have he : firstFault rs = some e := hf
    show firstFault (rs ++ rs') = some e
    rw [firstFault_append, he]
    rfl
  | ok a =>
    rw [hx] at hf
    obtain ⟨hn, ha⟩ := hf
    have hb := hg a ha
    simp only [Meets, firstFault_append, hn, Option.none_or] at hb ⊢
    exact hb

/-- Work that cannot fail here leaves all requirements to the rest. -/
lemma Meets.step {x : Microcode α} {g : α → Microcode β} {p q : Processor} {a : α}
    {Q : β → Processor → Prop} (hx : x.run p = .ok a q) (hg : Meets rs (g a) q Q) :
    Meets rs (x >>= g) p Q := by
  rw [Meets, EStateM.run_bind, hx]
  exact hg

/-- A requirement that holds anyway need not be checked. -/
lemma Meets.cons {P : Prop} [Decidable P] (hP : P) {e : Fault} {x : Microcode α} {p : Processor}
    {Q : α → Processor → Prop} (hx : Meets rs x p Q) : Meets (⟨P, e⟩ :: rs) x p Q := by
  simp only [Meets, firstFault_cons_pos hP] at hx ⊢
  exact hx

end Rules

/-! ## Words and integers -/

/-- A word is reduced already. -/
lemma wrap_toInt (w : Int32) : wrap w.toInt = w.toInt := w.toInt_bmod

/-- The word zero is the integer zero. -/
lemma toInt_eq_zero_iff (w : Int32) : w.toInt = 0 ↔ w = 0 := by
  rw [← Int32.toInt_inj, Int32.toInt_zero]

/-- A truth value as a word is one or zero. -/
lemma toInt_truth (P : Prop) [Decidable P] :
    (Microcode.truth (decide P)).toInt = wrap (if P then 1 else 0) := by
  by_cases h : P <;> simp only [h, decide_true, decide_false, if_true, if_false] <;> decide

/-! ## Reading memory -/

section Reading

variable (p : Processor)

/-- Reading a cell settles that the address is one of a cell. -/
lemma readData_settles (a : Int32) (f : MemoryError → Fault) :
    Settles [⟨0 ≤ a.toInt ∧ a.toInt < 512, f (.dataAddress a)⟩] ((p.memory.readData a).mapError f)
      fun w => w.toInt = p.integers.data a.toInt := by
  simp only [Memory.readData]
  split
  · rename_i hn
    exact firstFault_cons_neg (position?_eq_none_iff.1 hn) _ _
  · rename_i cell hc
    have hc := position?_eq_some_iff.1 hc
    have hlt : (cell : Nat) < 512 := cell.isLt
    refine ⟨firstFault_cons_pos (by omega) _ _, ?_⟩
    simp [Processor.integers, hc]

/-- Reading the slot at the program counter settles that there is one, and that it is set. -/
lemma readCode_settles :
    Settles
      [⟨0 ≤ p.integers.counter ∧ p.integers.counter < 256,
          .memory (.codeAddress (Int32.ofInt p.integers.counter))⟩,
        ⟨p.integers.code p.integers.counter ≠ none, .memory (.unsetSlot p.integers.counter.toNat)⟩]
      ((p.memory.readCode p.registers.counter).mapError .memory)
      fun i => p.integers.code p.integers.counter = some (i.opcode.toNat, i.arg.toInt) := by
  have hc : p.integers.counter = p.registers.counter.toInt := rfl
  simp only [Memory.readCode, hc]
  split
  · rename_i hn
    rw [Int32.ofInt_toInt]
    exact firstFault_cons_neg (position?_eq_none_iff.1 hn) _ _
  · rename_i slot hs
    have hs := position?_eq_some_iff.1 hs
    have hlt : (slot : Nat) < 256 := slot.isLt
    have hcode : p.integers.code p.registers.counter.toInt =
        (p.memory.code[slot]).map fun i => (i.opcode.toNat, i.arg.toInt) := by
      simp [Processor.integers, hs]
    simp only [hs] at hcode ⊢
    rw [hcode]
    cases p.memory.code[slot] with
    | none =>
      show firstFault _ = some _
      rw [firstFault_cons_pos (by omega), firstFault_cons_neg (by simp)]
      rfl
    | some i =>
      refine ⟨?_, rfl⟩
      rw [firstFault_cons_pos (by omega), firstFault_cons_pos (by simp), firstFault_nil]

end Reading

/-! ## Decoding -/

/-- The ones among the low bits of a number are the digits `1` that it has in base 2. -/
lemma ones_eq_count (width n : Nat) (h : n < 2 ^ width) :
    Instruction.ones width n = (Nat.digits 2 n).count 1 := by
  induction width generalizing n with
  | zero => simp [Instruction.ones, show n = 0 by simpa using h]
  | succ width ih =>
    rcases Nat.eq_zero_or_pos n with rfl | hn
    · simp [Instruction.ones, ih 0 (by positivity)]
    · rw [Instruction.ones, ih (n / 2) (by rw [pow_succ] at h; omega),
        Nat.digits_def' (by decide) hn, List.count_cons]
      rcases Nat.mod_two_eq_zero_or_one n with h2 | h2 <;> simp [h2, Nat.add_comm]

/-- Parity by digits in base 2. -/
lemma hasEvenParity_iff (i : Instruction) :
    i.HasEvenParity ↔ Even ((Nat.digits 2 i.opcode.toNat).count 1) := by
  rw [Instruction.HasEvenParity, ones_eq_count 8 _ i.opcode.toNat_lt, Nat.even_iff]

/-- The table numbers the operations by their groups. -/
lemma operationAt_group (op : Operation) : operationAt op.group = op := by cases op <;> rfl

/-- Every number up to 13 is a group. -/
lemma group_operationAt {n : Nat} (h : n ≤ 13) : (operationAt n).group = n := by
  interval_cases n <;> rfl

/-- No group exceeds 13. -/
lemma group_le (op : Operation) : op.group ≤ 13 := by cases op <;> decide

/-- The table numbers the modes by their flags. -/
lemma modeAt_eq (flags : Fin 4) : modeAt flags = Mode.ofFlags flags := by
  revert flags
  decide

/-- A decoded instruction is the one that the table finds at the program counter. -/
structure Fetched (s : State) (d : Decoded) : Prop where
  /-- They have one operation. -/
  operation : s.operation = d.op
  /-- They have one mode. -/
  mode : s.mode = d.mode
  /-- They have one argument. -/
  arg : s.arg = d.arg.toInt

/-- Decoding settles that the opcode has even parity and a known group. -/
lemma ofInstruction_settles {s : State} {i : Instruction}
    (h : s.code s.counter = some (i.opcode.toNat, i.arg.toInt)) (address : Nat) :
    Settles
      [⟨Even ((Nat.digits 2 s.opcode).count 1), .parity (UInt8.ofNat s.opcode)⟩,
        ⟨s.opcode / 8 ≤ 13, .unknownOperation (UInt8.ofNat s.opcode)⟩]
      (Decoded.ofInstruction address i) (Fetched s) := by
  have hfetched : s.fetched = (i.opcode.toNat, i.arg.toInt) := by rw [State.fetched, h]; rfl
  have hopcode : s.opcode = i.opcode.toNat := by rw [State.opcode, hfetched]
  rw [hopcode, UInt8.ofNat_toNat, Decoded.ofInstruction]
  by_cases hpar : i.HasEvenParity
  · rw [if_pos hpar]
    cases hg : Operation.ofGroup? i.group with
    | none =>
      show firstFault _ = some _
      rw [firstFault_cons_pos ((hasEvenParity_iff i).1 hpar), firstFault_cons_neg]
      intro hle
      have := Operation.ofGroup?_eq_some_iff.2 (group_operationAt hle)
      exact absurd (hg.symm.trans this) nofun
    | some op =>
      have hg : op.group = i.opcode.toNat / 8 := Operation.ofGroup?_eq_some_iff.1 hg
      have hle := group_le op
      refine ⟨?_, ?_, ?_, ?_⟩
      · rw [firstFault_cons_pos ((hasEvenParity_iff i).1 hpar), firstFault_cons_pos (by omega),
          firstFault_nil]
      · rw [State.operation, hopcode, ← hg, operationAt_group]
      · rw [State.mode, hopcode]
        exact modeAt_eq ⟨_, Nat.mod_lt _ (by decide)⟩
      · rw [State.arg, hfetched]
        rfl
  · rw [if_neg hpar]
    exact firstFault_cons_neg ((hasEvenParity_iff i).not.1 hpar) _ _

/-- A fetch settles all that is required before the operation is known. -/
lemma fetch_settles (p : Processor) :
    Settles p.integers.fetchRequirements p.fetch (Fetched p.integers) :=
  (readCode_settles p).bind fun _ h => ofInstruction_settles h _

/-! ## What an instruction reads -/

section Operands

variable {p : Processor} {d : Decoded}

/-- The cell at the argument settles the requirement of that cell. -/
lemma cell_settles (h : Fetched p.integers d) (hr : ∀ e, p.integers.refusal e = .memory e) :
    Settles [p.integers.cellRequirement p.integers.arg] (d.cell p)
      fun w => w.toInt = p.integers.data p.integers.arg := by
  simp only [State.cellRequirement, hr, h.arg, Int32.ofInt_toInt]
  exact readData_settles p d.arg .memory

/-- Resolving an operand reads cells one after the other, each with the same fault. -/
lemma resolve_mapError (mode : Mode) (arg : Int32) (m : Memory) :
    (mode.resolve arg m).mapError Fault.resolution =
      match mode with
      | .direct | .absolute =>
        ((m.readData arg).mapError fun e => .resolution ⟨e⟩).map fun value => ⟨some arg, value⟩
      | .immediate => .ok ⟨none, arg⟩
      | .indirect =>
        ((m.readData arg).mapError fun e => .resolution ⟨e⟩).bind fun address =>
          ((m.readData address).mapError fun e => .resolution ⟨e⟩).map fun value =>
            ⟨some address, value⟩ := by
  cases mode with
  | direct | absolute =>
    simp only [Mode.resolve]
    cases m.readData arg <;> rfl
  | immediate => rfl
  | indirect =>
    simp only [Mode.resolve]
    cases m.readData arg with
    | error e => rfl
    | ok address =>
      simp only [Except.mapError, Except.bind]
      cases m.readData address <;> rfl

/-- The operand settles the requirements of the cells on the way to it. -/
lemma operand_settles (h : Fetched p.integers d)
    (hr : ∀ e, p.integers.refusal e = .resolution ⟨e⟩) :
    Settles (p.integers.operandCells.map p.integers.cellRequirement) (d.operand p) fun x =>
      x.value.toInt = p.integers.operand ∧ (x.target.getD d.arg).toInt = p.integers.target := by
  have hread := fun a => readData_settles p a fun e => .resolution ⟨e⟩
  rw [Decoded.operand, resolve_mapError]
  cases hm : d.mode with
  | direct | absolute =>
    simp only [State.operandCells, State.operand, State.target, h.mode, hm, h.arg, List.map_cons,
      List.map_nil, State.cellRequirement, hr, Int32.ofInt_toInt]
    exact (hread d.arg).map fun w hw => ⟨hw, rfl⟩
  | immediate =>
    simp only [State.operandCells, State.operand, State.target, h.mode, hm, h.arg, List.map_nil]
    exact ⟨rfl, rfl, rfl⟩
  | indirect =>
    simp only [State.operandCells, State.operand, State.target, h.mode, hm, h.arg, List.map_cons,
      List.map_nil, State.cellRequirement, hr, Int32.ofInt_toInt]
    show Settles ([_] ++ [_]) _ _
    refine (hread d.arg).bind fun address ha => ?_
    rw [← ha, Int32.ofInt_toInt]
    exact (hread address).map fun w hw => ⟨hw, rfl⟩

/-- The destination of a jump settles the requirements of the cells on the way to it. -/
lemma destination_settles (h : Fetched p.integers d) (hop : d.op = .jump ∨ d.op = .jmpz) :
    Settles (p.integers.destinationCells.map p.integers.cellRequirement) (d.destination p) fun w =>
      w.toInt = wrap p.integers.destination := by
  have hc : p.integers.counter = p.registers.counter.toInt := rfl
  -- Jumps are told apart from other operations by the fault in the `indirect` mode.
  have href : ∀ e, p.integers.refusal e =
      if d.mode = .indirect then .memory e else .resolution ⟨e⟩ := by
    intro e
    simp only [State.refusal, h.operation, h.mode]
    rcases hop with hop | hop <;> rw [hop] <;> cases d.mode <;> rfl
  cases hm : d.mode with
  | direct =>
    simp only [State.destinationCells, State.destination, Decoded.destination, h.mode, hm, h.arg, hc]
    exact ⟨rfl, Int32.toInt_add _ _⟩
  | immediate =>
    simp only [State.destinationCells, State.destination, Decoded.destination, h.mode, hm, h.arg]
    exact ⟨rfl, (wrap_toInt _).symm⟩
  | indirect =>
    have hcell := cell_settles h (by simp [href, hm])
    simp only [State.destinationCells, State.destination, Decoded.destination, h.mode, hm]
    refine hcell.map fun w hw => ?_
    rw [← hw, hc]
    exact Int32.toInt_add _ _
  | absolute =>
    have hoperand := operand_settles h (by simp [href, hm])
    simp only [State.destinationCells, State.destination, State.operandCells, State.operand,
      Decoded.destination, h.mode, hm] at hoperand ⊢
    refine hoperand.map fun x hx => ?_
    rw [← hx.1, wrap_toInt]

end Operands

/-! ## What an instruction changes -/

section Changes

variable {p : Processor} {d : Decoded}

/-- Going on to the next instruction gives the next state of the table. -/
lemma advance_meets (store : Option Store) :
    Meets [] (Microcode.advance d store) p fun _ q => q.integers = p.integers.advance := by
  refine ⟨rfl, ?_⟩
  simp [Processor.integers, State.advance, Registers.advance, wrap]

/-- Changing the accumulator gives the state of the table with that accumulator. -/
lemma accumulate_meets {f : Int32 → Int32} {n : Int}
    (hn : (f p.registers.accumulator).toInt = wrap n) :
    Meets [] (Microcode.accumulate d f) p fun _ q => q.integers = p.integers.accumulate n := by
  refine ⟨rfl, ?_⟩
  simp [Processor.integers, State.accumulate, State.advance, Registers.advance, wrap, hn]

/-- Writing a cell that exists never fails, and changes that cell only. -/
lemma run_write {a w : Int32} (ha : 0 ≤ a.toInt ∧ a.toInt < 512) :
    ∃ q, (Microcode.write ⟨a, w⟩).run p = .ok () q ∧ q.integers =
      { p.integers with data := Function.update p.integers.data a.toInt w.toInt } := by
  cases hc : position? dataSize a with
  | none => exact absurd ha (position?_eq_none_iff.1 hc)
  | some cell =>
    refine ⟨{ p with memory := { p.memory with
      data := p.memory.data.set cell w, changed := some cell } }, ?_, ?_⟩
    · simp [Microcode.write, EStateM.run, Memory.writeData, hc]
    · have hc := position?_eq_some_iff.1 hc
      simp only [Processor.integers, State.mk.injEq, true_and]
      funext b
      by_cases hb : b = a.toInt
      · subst hb
        simp [hc]
      · rw [Function.update_of_ne hb]
        refine ite_congr rfl (fun hb0 => ?_) fun _ => rfl
        have hne : (cell : Nat) ≠ b.toNat := by omega
        rw [Vector.getElem?_set_ne _ hne]

end Changes

/-! ## Operations -/

section Operations

variable {p : Processor} {d : Decoded}

/-- The check of the mode settles the requirement that it is legal. -/
lemma Meets.check {rs : List Requirement} {g : Microcode LogLine} {Q : LogLine → Processor → Prop}
    (h : Fetched p.integers d) (accepted : List Mode) (hl : legalModes d.op = accepted)
    (hg : d.mode ∈ accepted → Meets rs g p Q) :
    Meets (⟨p.integers.mode ∈ legalModes p.integers.operation,
        .illegalMode p.integers.operation p.integers.mode⟩ :: rs)
      (Microcode.check d accepted >>= fun _ => g) p Q := by
  show Meets ([_] ++ rs) _ _ _
  refine Meets.look (P := fun _ => d.mode ∈ accepted) ?_ fun _ => hg
  rw [h.mode, h.operation, hl]
  split
  · rename_i hm
    exact ⟨firstFault_cons_pos hm _ _, hm⟩
  · rename_i hm
    exact firstFault_cons_neg hm _ _

/-- An operation that reads nothing only has its mode checked. -/
lemma Meets.plain {g : Microcode LogLine} {Q : LogLine → Processor → Prop}
    (h : Fetched p.integers d) (hop : d.op = .nop ∨ d.op = .not ∨ d.op = .halt)
    (hg : Meets [] g p Q) :
    Meets p.integers.executionRequirements (Microcode.check d [.direct] >>= fun _ => g) p Q := by
  have hs : p.integers.cells = [] ∧ legalModes d.op = [.direct] ∧ ¬ p.integers.operation = .div := by
    simp only [State.cells, h.operation]
    rcases hop with hop | hop | hop <;> rw [hop] <;> exact ⟨rfl, rfl, by decide⟩
  obtain ⟨hcells, hl, hdiv⟩ := hs
  rw [State.executionRequirements, hcells, if_neg hdiv]
  exact Meets.check h _ hl fun _ => hg

/-- The operations that work on the operand. -/
def operandOperations : List Operation := [.lod, .sto, .add, .sub, .mul, .div, .and]

/-- An operation that works on the operand needs the cells on the way to it, and any of them may be
refused while the operand is resolved. -/
lemma cells_of_mem_operandOperations (s : State) (hop : s.operation ∈ operandOperations) :
    s.cells = s.operandCells ∧ ∀ e, s.refusal e = .resolution ⟨e⟩ := by
  simp only [State.cells, State.refusal]
  generalize s.operation = op at hop
  cases op <;> first | exact ⟨rfl, fun _ => rfl⟩ | exact absurd hop (by decide)

/-- An operation that works on the operand has its mode checked, then the cells on the way to the
operand; what else is required is left to the rest. -/
lemma Meets.operand {rs : List Requirement} {g : Operand → Microcode LogLine}
    {Q : LogLine → Processor → Prop} (h : Fetched p.integers d) (accepted : List Mode)
    (hl : legalModes d.op = accepted) (hop : d.op ∈ operandOperations)
    (hrs : (if d.op = .div then [⟨p.integers.operand ≠ 0, .zeroDivisor⟩] else []) = rs)
    (hg : ∀ x : Operand, d.mode ∈ accepted → x.value.toInt = p.integers.operand →
      (x.target.getD d.arg).toInt = p.integers.target →
      (∀ a ∈ p.integers.operandCells, 0 ≤ a ∧ a < 512) → Meets rs (g x) p Q) :
    Meets p.integers.executionRequirements
      (Microcode.check d accepted >>= fun _ => Microcode.look d.operand >>= g) p Q := by
  rw [← h.operation] at hop hrs
  obtain ⟨hcells, hr⟩ := cells_of_mem_operandOperations _ hop
  rw [State.executionRequirements, hcells, hrs]
  refine Meets.check h accepted hl fun hm => ?_
  refine Meets.look (operand_settles h hr).and_holds fun x hx => ?_
  obtain ⟨⟨hv, ht⟩, hc⟩ := hx
  refine hg x hm hv ht fun a ha => ?_
  simpa only [State.cellRequirement, decide_eq_true_eq] using hc _ (List.mem_map_of_mem ha)

/-- Combining the accumulator with the operand. -/
lemma combine_meets (h : Fetched p.integers d) (accepted : List Mode)
    (hl : legalModes d.op = accepted) (hop : d.op ∈ operandOperations) (hdiv : d.op ≠ .div)
    {f : Int32 → Int32 → Int32} {g : Int → Int → Int}
    (hf : ∀ a x : Int32, (f a x).toInt = wrap (g a.toInt x.toInt)) :
    Meets p.integers.executionRequirements (Microcode.combine d accepted f) p fun _ q =>
      q.integers = p.integers.accumulate (g p.integers.accumulator p.integers.operand) := by
  refine Meets.operand h accepted hl hop (if_neg hdiv) fun x _ hv _ _ => accumulate_meets ?_
  rw [hf, hv]
  rfl

/-- Storing the accumulator.

**Proof sketch.** In both legal modes the target is the last cell on the way to the operand. That cell
has been read before the write, so the write cannot be refused. -/
lemma sto_meets (h : Fetched p.integers d) (hop : d.op = .sto) :
    Meets p.integers.executionRequirements (Microcode.sto d) p fun _ q =>
      q.integers = { p.integers.advance with
        data := Function.update p.integers.data p.integers.target p.integers.accumulator } := by
  refine Meets.operand h _ (by rw [hop, legalModes]) (by rw [hop]; decide)
    (if_neg (by rw [hop]; decide)) fun x hm _ ht hc => ?_
  have hmem : p.integers.target ∈ p.integers.operandCells := by
    simp only [State.target, State.operandCells, h.mode]
    simp only [List.mem_cons, List.not_mem_nil, or_false] at hm
    rcases hm with hm | hm <;> simp [hm]
  have hrange := hc _ hmem
  rw [← ht] at hrange
  obtain ⟨q, hq, hint⟩ := run_write (p := p) (w := p.registers.accumulator) hrange
  have hadvance := advance_meets (p := q) (d := d)
    (some ⟨x.target.getD d.arg, p.registers.accumulator⟩)
  rw [hint, ht] at hadvance
  exact Meets.step (x := get) rfl (Meets.step hq hadvance)

/-- Dividing the accumulator; the divisor is the last thing required. -/
lemma div_meets (h : Fetched p.integers d) (hop : d.op = .div) :
    Meets p.integers.executionRequirements (Microcode.div d) p fun _ q =>
      q.integers = p.integers.accumulate (p.integers.accumulator.tdiv p.integers.operand) := by
  refine Meets.operand h Microcode.operandModes (by rw [hop]; rfl) (by rw [hop]; decide)
    (if_pos hop) fun x _ hv _ _ => ?_
  have hzero : Settles [⟨p.integers.operand ≠ 0, .zeroDivisor⟩]
      (if x.value = 0 then .error .zeroDivisor else .ok ()) fun _ => True := by
    rw [← hv]
    split
    · rename_i hz
      exact firstFault_cons_neg (by simp [hz]) _ _
    · rename_i hz
      exact ⟨firstFault_cons_pos (by simpa [toInt_eq_zero_iff] using hz) _ _, trivial⟩
  show Meets ([_] ++ []) _ _ _
  refine Meets.look (f := fun _ => _) hzero fun _ _ => accumulate_meets ?_
  rw [Int32.toInt_div, hv]
  rfl

/-- Testing the cell at the argument. -/
lemma compare_meets (h : Fetched p.integers d) (hop : d.op = .cmpl ∨ d.op = .cmpz)
    {test : Int32 → Bool} {n : Int → Int}
    (hn : ∀ w : Int32, (Microcode.truth (test w)).toInt = wrap (n w.toInt)) :
    Meets p.integers.executionRequirements (Microcode.compare d test) p fun _ q =>
      q.integers = p.integers.accumulate (n (p.integers.data p.integers.arg)) := by
  have hs : p.integers.cells = [p.integers.arg] ∧ (∀ e, p.integers.refusal e = .memory e) ∧
      legalModes d.op = [.direct] ∧ ¬ p.integers.operation = .div := by
    simp only [State.cells, State.refusal, h.operation]
    rcases hop with hop | hop <;> rw [hop] <;> exact ⟨rfl, fun _ => rfl, rfl, by decide⟩
  obtain ⟨hcells, hr, hl, hdiv⟩ := hs
  rw [State.executionRequirements, hcells, if_neg hdiv]
  refine Meets.check h _ hl fun _ => ?_
  refine Meets.look (cell_settles h hr) fun w hw => accumulate_meets ?_
  rw [hn, hw]

/-- Jumping, once it is decided that the jump is taken. -/
lemma jump_meets (h : Fetched p.integers d) (hop : d.op = .jump ∨ d.op = .jmpz) :
    Meets (p.integers.destinationCells.map p.integers.cellRequirement) (Microcode.jump d) p
      fun _ q => q.integers = p.integers.goTo p.integers.destination := by
  rw [← List.append_nil (List.map _ _)]
  refine Meets.look (destination_settles h hop) fun address ha => ⟨rfl, ?_⟩
  simp only [Processor.integers, State.goTo, State.mk.injEq, true_and, and_true] at ha ⊢
  exact ha

/-- Jumps have no mode checked, as every mode is legal. -/
lemma mem_legalModes_of_jump {op : Operation} (hop : op = .jump ∨ op = .jmpz) (mode : Mode) :
    mode ∈ legalModes op := by
  rcases hop with rfl | rfl <;> cases mode <;> decide

/-- All that is required of a jump concerns its cells. -/
lemma Meets.jump {g : Microcode LogLine} {Q : LogLine → Processor → Prop}
    (h : Fetched p.integers d) (hop : d.op = .jump ∨ d.op = .jmpz)
    (hg : Meets (p.integers.cells.map p.integers.cellRequirement) g p Q) :
    Meets p.integers.executionRequirements g p Q := by
  have hdiv : ¬ p.integers.operation = .div := by
    rw [h.operation]
    rcases hop with hop | hop <;> rw [hop] <;> decide
  rw [State.executionRequirements, if_neg hdiv, List.append_nil]
  rw [← h.operation] at hop
  exact Meets.cons (mem_legalModes_of_jump hop _) hg

/-- **The work of an operation meets what the table requires of it**, and leaves the result of the
table. -/
lemma microcode_meets (h : Fetched p.integers d) :
    Meets p.integers.executionRequirements d.microcode p fun _ q => q.integers = p.integers.result := by
  rw [State.result, h.operation, Decoded.microcode]
  cases hop : d.op with
  | nop => exact Meets.plain h (by simp [hop]) (advance_meets none)
  | not =>
    refine Meets.plain h (by simp [hop]) (accumulate_meets ?_)
    simp only [toInt_truth, ← toInt_eq_zero_iff]
    rfl
  | halt => exact Meets.plain h (by simp [hop]) ⟨rfl, rfl⟩
  | lod =>
    exact combine_meets h _ (by rw [hop]; rfl) (by rw [hop]; decide) (by rw [hop]; decide)
      (g := fun _ x => x) fun _ x => (wrap_toInt x).symm
  | sto => exact sto_meets h hop
  | add =>
    exact combine_meets h _ (by rw [hop]; rfl) (by rw [hop]; decide) (by rw [hop]; decide)
      Int32.toInt_add
  | sub =>
    exact combine_meets h _ (by rw [hop]; rfl) (by rw [hop]; decide) (by rw [hop]; decide)
      Int32.toInt_sub
  | mul =>
    exact combine_meets h _ (by rw [hop]; rfl) (by rw [hop]; decide) (by rw [hop]; decide)
      Int32.toInt_mul
  | div => exact div_meets h hop
  | and =>
    refine combine_meets h _ (by rw [hop]; rfl) (by rw [hop]; decide) (by rw [hop]; decide)
      (g := fun a x => if a ≠ 0 ∧ x ≠ 0 then 1 else 0) fun a x => ?_
    simp only [toInt_truth, ne_eq, toInt_eq_zero_iff]
  | jump =>
    refine Meets.jump h (.inl hop) ?_
    simp only [State.cells, h.operation, hop]
    exact jump_meets h (.inl hop)
  | jmpz =>
    refine Meets.jump h (.inr hop) (Meets.step (x := get) rfl ?_)
    have hz : p.integers.accumulator = 0 ↔ p.registers.accumulator = 0 := toInt_eq_zero_iff _
    simp only [State.cells, h.operation, hop, hz]
    by_cases hacc : p.registers.accumulator = 0
    · simp only [hacc, if_true]
      exact jump_meets h (.inr hop)
    · simp only [hacc, if_false]
      exact advance_meets none
  | cmpl =>
    refine compare_meets h (.inl hop) (n := fun x => if x < 0 then 1 else 0) fun w => ?_
    simp only [toInt_truth, Int32.lt_iff_toInt_lt, Int32.toInt_zero]
  | cmpz =>
    refine compare_meets h (.inr hop) (n := fun x => if x = 0 then 1 else 0) fun w => ?_
    simp only [toInt_truth, toInt_eq_zero_iff]

end Operations

/-- **A cycle meets the requirements of the table and leaves its result.** -/
theorem cycle_meets (p : Processor) :
    Meets p.integers.requirements Microcode.cycle p fun _ q => q.integers = p.integers.result :=
  Meets.look (fetch_settles p) fun _ h => microcode_meets h

end Table

namespace Machine

/-- The step of a machine that has not halted gives what the step of the table gives. -/
lemma map_step_result (m : Machine) (h : m.halted = false) :
    (m.step.result.map fun _ => m.step.machine.toProcessor.integers) =
      m.toProcessor.integers.step := by
  have hmeets := Table.cycle_meets m.toProcessor
  rw [Table.Meets] at hmeets
  cases hrun : Microcode.cycle.run m.toProcessor with
  | error e p =>
    rw [hrun] at hmeets
    have hresult : m.step.result = .error e := by
      rw [step, h, hrun]
      rfl
    rw [hresult, Table.State.step, hmeets]
    rfl
  | ok line p =>
    rw [hrun] at hmeets
    obtain ⟨hnone, hint⟩ := hmeets
    have hresult : m.step.result = .ok line ∧ m.step.machine.toProcessor = p := by
      rw [step, h, hrun]
      by_cases hop : line.op = .halt <;> simp [hop, withProcessor, halt]
    rw [hresult.1, hresult.2, Table.State.step, hnone, hint]
    rfl

/-- **The step of a machine that has not halted is the step of the table.** It succeeds exactly when all
requirements of the table are met, and then leaves the accumulator, the program counter, the code and the
data of the table. It fails with the fault of the first requirement that is not met. -/
theorem step_agrees_with_table (m : Machine) (h : m.halted = false) :
    (m.step.result.map fun _ => m.step.machine.toProcessor.integers) =
        m.toProcessor.integers.step ∧
      ((∃ line, m.step.result = .ok line) ↔
        ∀ r ∈ m.toProcessor.integers.requirements, r.holds = true) ∧
      ∀ e, m.step.result = .error e ↔
        ∃ met r rest, m.toProcessor.integers.requirements = met ++ r :: rest ∧
          (∀ q ∈ met, q.holds = true) ∧ r.holds = false ∧ r.fault = e := by
  have hstep := m.map_step_result h
  refine ⟨hstep, ?_, fun e => ?_⟩
  · rw [← Table.firstFault_eq_none_iff]
    rw [Table.State.step] at hstep
    cases hf : Table.firstFault m.toProcessor.integers.requirements <;>
      cases hr : m.step.result <;> simp [hf, hr, Except.map] at hstep ⊢
  · rw [← Table.firstFault_eq_some_iff]
    rw [Table.State.step] at hstep
    cases hf : Table.firstFault m.toProcessor.integers.requirements <;>
      cases hr : m.step.result <;> simp [hf, hr, Except.map] at hstep ⊢
    rw [hstep]

/-- The least word divided by minus one stays the least word. -/
theorem step_agrees_with_table_division :
    ∃ m : Machine, m.halted = false ∧ m.registers = ⟨-0x80000000, 0⟩ ∧
      m.step.machine.registers = ⟨-0x80000000, 1⟩ ∧
      (m.step.result.map fun _ => m.step.machine.toProcessor.integers) =
        m.toProcessor.integers.step ∧
      ((∃ line, m.step.result = .ok line) ↔
        ∀ r ∈ m.toProcessor.integers.requirements, r.holds = true) := by
  let m : Machine :=
    { registers := ⟨-0x80000000, 0⟩
      memory := { Memory.empty with
        code := Memory.empty.code.set 0 (some (.assemble .div .immediate (-1))) } }
  have hagree := step_agrees_with_table m rfl
  exact ⟨m, rfl, rfl, by decide, hagree.1, hagree.2.1⟩

end Machine

end AccumulatorMachine

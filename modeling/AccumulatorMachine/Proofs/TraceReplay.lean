import AccumulatorMachine.Proofs.FailStop
import AccumulatorMachine.Proofs.ReaderRules

/-!
# The log replays the run

Each operation puts together its own log line, and a store goes to a cell that the instruction may only
name by way of another one. Still the lines of a run tell all that happens in it: where each instruction
stood, the registers behind it, and the cell written with its new word. So a reader of the lines can
carry out the stores on a copy of the data and end with the data of the machine.

The stores are taken from the written outcome of a line, not from the line itself: what is printed is
enough for the replay.

## Main definitions

* `Microcode.Reports` — work whose log line tells all that it does.
* `Replay.namedWrite` — the cell and the word that a written outcome names.
* `Replay.writesNamed`, `Replay.replay` — the stores of a log, and data with stores carried out.
* `Machine.stepped`, `Machine.log` — the machine after some steps, and the lines of these steps.
* `Replay.Explains` — what a line says about the machines before and behind its step.

## Main results

* `Microcode.microcode_reports` — every operation reports what it does.
* `Replay.namedWrite_outcome` — a store is read back from the outcome that names it.
* `Replay.log_replays_run` — the lines of a run replay it.
-/

set_option autoImplicit false

namespace AccumulatorMachine

/-! ## What one operation reports -/

/-- Carries out a store, if there is one. -/
def Memory.storing (m : Memory) : Option Store → Except MemoryError Memory
  | none => .ok m
  | some s => m.writeData s.address s.value

namespace Microcode

/-- A log line tells all that has happened between two processors. -/
structure ReportedBy (d : Decoded) (stores : Bool) (p q : Processor) (line : LogLine) : Prop where
  decoded : line.toDecoded = d
  registers : line.effect.registers = q.registers
  isSome_store : line.effect.store.isSome = stores
  memory : p.memory.storing line.effect.store = .ok q.memory

/-- Work on an instruction whose log line tells all that it does. -/
def Reports (d : Decoded) (stores : Bool) (x : Microcode LogLine) : Prop :=
  ∀ p line q, x.run p = .ok line q → ReportedBy d stores p q line

section Rules

variable {α : Type} {d : Decoded} {stores : Bool}

/-- Looking something up changes nothing, so it may come before any work. -/
lemma Reports.look {f : Processor → Except Fault α} {g : α → Microcode LogLine}
    (hg : ∀ a, Reports d stores (g a)) : Reports d stores (look f >>= g) := by
  intro p line q hrun
  rw [run_look_bind] at hrun
  cases hf : f p with
  | error e =>
    rw [hf] at hrun
    cases hrun
  | ok a =>
    rw [hf] at hrun
    exact hg a p line q hrun

/-- Reading the processor changes nothing, so it may come before any work. -/
lemma Reports.get {g : Processor → Microcode LogLine} (hg : ∀ p, Reports d stores (g p)) :
    Reports d stores (MonadState.get >>= g) := by
  intro p line q hrun
  exact hg p p line q hrun

end Rules

section Operations

variable (d : Decoded)

/-- A report tells of the registers as they are, and stores nothing. -/
lemma report_reports : Reports d false (report d) := by
  rintro p line q ⟨⟩
  exact ⟨rfl, rfl, rfl, rfl⟩

/-- The log line tells of the advanced program counter. -/
lemma advance_reports : Reports d false (advance d) := by
  rintro p line q ⟨⟩
  exact ⟨rfl, rfl, rfl, rfl⟩

/-- It tells of the new accumulator. -/
lemma accumulate_reports (f : Int32 → Int32) : Reports d false (accumulate d f) := by
  rintro p line q ⟨⟩
  exact ⟨rfl, rfl, rfl, rfl⟩

/-- It tells of what has been made of the accumulator and an operand. -/
lemma combine_reports (accepted : List Mode) (f : Int32 → Int32 → Int32) :
    Reports d false (combine d accepted f) := by
  apply Reports.look
  intro _
  apply Reports.look
  intro x
  exact accumulate_reports d _

/-- A store is reported with the cell that was written, wherever the address was found. -/
lemma write_reports (s : Store) : Reports d true (write s >>= fun _ => advance d s) := by
  intro p line q hrun
  rw [run_write_bind] at hrun
  cases hw : p.memory.writeData s.address s.value with
  | error e =>
    rw [hw] at hrun
    cases hrun
  | ok m =>
    rw [hw] at hrun
    cases hrun
    exact ⟨rfl, rfl, rfl, hw⟩

/-- A store is the one thing that is told with a cell and a value. -/
lemma sto_reports : Reports d true (sto d) := by
  apply Reports.look
  intro _
  apply Reports.look
  intro x
  apply Reports.get
  intro p
  exact write_reports d _

/-- The log line tells of the quotient. -/
lemma div_reports : Reports d false (div d) := by
  apply Reports.look
  intro _
  apply Reports.look
  intro x
  apply Reports.look
  intro _
  exact accumulate_reports d _

/-- A jump reports the registers with its destination in them. -/
lemma jump_reports : Reports d false (jump d) := by
  apply Reports.look
  rintro address p line q ⟨⟩
  exact ⟨rfl, rfl, rfl, rfl⟩

/-- It tells of the program counter, whether it jumps or not. -/
lemma jmpz_reports : Reports d false (jmpz d) := by
  apply Reports.get
  intro p
  by_cases hzero : p.registers.accumulator = 0
  · rw [if_pos hzero]
    exact jump_reports d
  · rw [if_neg hzero]
    exact advance_reports d

/-- It tells of the program counter, whether it skips or not. -/
lemma compare_reports (test : Int32 → Bool) : Reports d false (compare d test) := by
  apply Reports.look
  intro _
  apply Reports.look
  intro x
  exact accumulate_reports d _

/-- Every operation reports what it does, and storing is the only one that reports a store. -/
lemma microcode_reports : Reports d (decide (d.op = .sto)) d.microcode := by
  rw [Decoded.microcode]
  cases d.op with
  | nop => exact Reports.look fun _ => advance_reports d
  | not => exact Reports.look fun _ => accumulate_reports d _
  | halt => exact Reports.look fun _ => report_reports d
  | lod | add | sub | mul | and => exact combine_reports d _ _
  | sto => exact sto_reports d
  | div => exact div_reports d
  | jump => exact jump_reports d
  | jmpz => exact jmpz_reports d
  | cmpl | cmpz => exact compare_reports d _

end Operations

end Microcode

/-- What is fetched stands in the slot at the program counter. -/
lemma Processor.fetch_eq_ok {p : Processor} {d : Decoded} (h : p.fetch = .ok d) :
    p.registers.counter.toInt = d.address ∧ d.address < codeSize ∧
      p.memory.code[d.address]? = some (some d.instruction) := by
  rw [fetch, Memory.readCode] at h
  cases hslot : position? codeSize p.registers.counter with
  | none =>
    rw [hslot] at h
    cases h
  | some slot =>
    rw [hslot] at h
    have hcounter := position?_eq_some_iff.1 hslot
    cases hcode : p.memory.code[slot] with
    | none =>
      simp only [hcode] at h
      cases h
    | some i =>
      simp only [hcode] at h
      replace h : Decoded.ofInstruction p.registers.counter.toInt.toNat i = .ok d := h
      rw [hcounter, Int.toNat_natCast] at h
      have hd : d.address = slot ∧ d.instruction = i := by
        rw [Decoded.ofInstruction] at h
        split at h
        · split at h
          · cases h
          · cases h
            exact ⟨rfl, rfl⟩
        · cases h
      rw [hd.1, hd.2]
      refine ⟨hcounter, slot.isLt, ?_⟩
      rw [Vector.getElem?_eq_getElem slot.isLt]
      exact congrArg some hcode

/-- A cycle that succeeds reports what it has fetched and done. -/
lemma Microcode.cycle_reports {p q : Processor} {line : LogLine} (h : cycle.run p = .ok line q) :
    p.fetch = .ok line.toDecoded ∧
      ReportedBy line.toDecoded (decide (line.op = .sto)) p q line := by
  rw [cycle, run_look_bind] at h
  cases hf : p.fetch with
  | error e =>
    rw [hf] at h
    cases h
  | ok d =>
    rw [hf] at h
    have hd := microcode_reports d p line q h
    obtain rfl := hd.decoded
    exact ⟨rfl, hd⟩

/-- A step that gives a line is a cycle that gives it. -/
lemma Machine.run_cycle_of_step {m : Machine} {line : LogLine} (h : m.step.result = .ok line) :
    Microcode.cycle.run m.toProcessor = .ok line m.step.machine.toProcessor := by
  rw [step] at h ⊢
  split at h
  · cases h
  · rename_i hrunning
    rw [if_neg hrunning]
    cases hrun : Microcode.cycle.run m.toProcessor with
    | error e p =>
      rw [hrun] at h
      cases h
    | ok l p =>
      rw [hrun] at h
      by_cases hop : l.op = .halt
      · simp only [hop, if_true] at h ⊢
        cases h
        rfl
      · simp only [hop, if_false] at h ⊢
        cases h
        rfl

/-! ## Reading a store back -/

namespace Replay

/-- The cell that a written outcome names, and the word that it names for it. They stand in brackets
behind the registers, spelled as in a script. -/
def namedWrite (outcome : String) : Option (Fin dataSize × Int32) := do
  let (digits, rest) ← Script.cellDigits (outcome.toList.dropWhile (· ≠ '#'))
  let rest ← Script.literal "=" rest
  let (spelled, _) ← Script.wordDigits rest
  let address ← (Word.read digits).toOption
  let value ← (Word.read spelled).toOption
  let cell ← position? dataSize address
  return (cell, value)

/-- A store as an outcome names it. -/
def writeText (cell : Nat) (value : Int32) : String :=
  "[#0x" ++ Numeral.lowerHex 4 cell ++ "=0x" ++ Numeral.lowerHex 8 (Word.pattern value) ++ "]"

/-- The registers are shown without the mark of a cell. -/
lemma dropWhile_trace (r : Registers) (rest : List Char) :
    (r.trace.toList ++ rest).dropWhile (· ≠ '#') = rest.dropWhile (· ≠ '#') := by
  apply List.dropWhile_append_of_pos
  intro c hc
  have hdigits : ∀ width n, ∀ c ∈ (Numeral.lowerHex width n).toList, c ≠ '#' := by
    rintro width n c hc rfl
    have hdigit := (Numeral.spellsNat_lowerHex width n).isDigit '#' hc
    revert hdigit
    decide
  rw [decide_eq_true_eq]
  simp only [Registers.trace, String.toList_append, List.mem_append] at hc
  rcases hc with (((hc | hc) | hc) | hc) | hc
  · rintro rfl
    revert hc
    decide
  · exact hdigits _ _ c hc
  · rintro rfl
    revert hc
    decide
  · exact hdigits _ _ c hc
  · rintro rfl
    revert hc
    decide

/-- Registers alone name no store. -/
lemma namedWrite_trace (r : Registers) : namedWrite r.trace = none := by
  have hdrop := dropWhile_trace r []
  rw [List.append_nil, List.dropWhile_nil] at hdrop
  rw [namedWrite, hdrop]
  rfl

/-- The number of a cell is a word. -/
lemma toInt_ofNat_cell (cell : Fin dataSize) : (Int32.ofNat cell).toInt = cell :=
  Int32.toInt_ofNat_of_lt (cell.isLt.trans (by decide))

/-- **A store is read back** from the outcome that names it, behind any registers. -/
lemma namedWrite_append_writeText (r : Registers) (cell : Fin dataSize) (value : Int32) :
    namedWrite (r.trace ++ writeText cell value) = some (cell, value) := by
  have haddress := Numeral.spellsNat_lowerHex 4 cell
  have hvalue := Numeral.spellsNat_lowerHex 8 (Word.pattern value)
  have hcell : Word.read (Numeral.lowerHex 4 cell).toList = .ok (Int32.ofNat cell) := by
    apply Word.read_of_spells
    rw [toInt_ofNat_cell]
    exact haddress.spells
  have hdrop : (r.trace ++ writeText cell value).toList.dropWhile (· ≠ '#') =
      "#0x".toList ++ ((Numeral.lowerHex 4 cell).toList ++ ("=".toList ++ ("0x".toList ++
        ((Numeral.lowerHex 8 (Word.pattern value)).toList ++ "]".toList)))) := by
    rw [String.toList_append, dropWhile_trace]
    simp [writeText, String.toList_append]
  have hequals : ∀ cs, Script.EndsNumber ("=".toList ++ cs) :=
    fun cs => Script.endsNumber_cons (by decide) cs
  have hbracket : Script.EndsNumber "]".toList := Script.endsNumber_cons (by decide) []
  rw [namedWrite, hdrop, Script.cellDigits_append (Script.isHex_of_spellsNat haddress) (hequals _)]
  simp only [Option.bind_eq_bind, Option.bind_some]
  rw [Script.literal_append, Option.bind_some,
    Script.wordDigits_append (Or.inl (Script.isHex_of_spellsNat hvalue)) hbracket]
  simp only [Option.bind_some, hcell, Word.read_of_spellsNat_pattern hvalue, Except.toOption,
    position?_eq_some_iff.2 (toInt_ofNat_cell cell)]
  rfl

/-- A word that addresses a position has the number of this position as its bit pattern. -/
lemma pattern_of_position? {size : Nat} {address : Int32} {i : Fin size}
    (h : position? size address = some i) : Word.pattern address = i := by
  have hint : address.toBitVec.toInt = i := position?_eq_some_iff.1 h
  rw [BitVec.toInt_eq_toNat_cond] at hint
  show address.toBitVec.toNat = i
  split at hint <;> omega

/-! ## One step -/

/-- What a log line says about the machine that took the step and the machine behind it: where the
instruction stood, the registers that it left, and the one cell that it wrote, if it is a store. -/
structure Explains (line : LogLine) (before after : Machine) : Prop where
  counter : before.registers.counter.toInt = line.address
  address_lt : line.address < codeSize
  instruction : before.memory.code[line.address]? = some (some line.instruction)
  /-- No other operation than a store names a cell or changes the data. -/
  plain : line.op ≠ .sto →
    line.outcome = after.registers.trace ∧ namedWrite line.outcome = none ∧
      after.memory.data = before.memory.data
  store : line.op = .sto → ∃ (cell : Fin dataSize) (value : Int32),
    line.outcome = after.registers.trace ++ writeText cell value ∧
      namedWrite line.outcome = some (cell, value) ∧
      after.memory.data = before.memory.data.set cell value

/-- The stores of a log, in order: the cell and the word that each line of a `STO` names. -/
def writesNamed (log : List LogLine) : List (Fin dataSize × Int32) :=
  (log.filter (·.op = .sto)).filterMap (namedWrite ·.outcome)

/-- Carries out stores on data. -/
def replay (data : Vector Int32 dataSize) (writes : List (Fin dataSize × Int32)) :
    Vector Int32 dataSize :=
  writes.foldl (fun data w => data.set w.1 w.2) data

/-- What becomes of a memory when a line is logged. -/
structure Follows (log : List LogLine) (before after : Memory) : Prop where
  code : after.code = before.code
  programSize : after.programSize = before.programSize
  data : after.data = replay before.data (writesNamed log)
  changed : after.changed = ((writesNamed log).getLast?.map Prod.fst).or before.changed

/-- Nothing is logged, and nothing happens. -/
lemma Follows.refl (m : Memory) : Follows [] m m := ⟨rfl, rfl, rfl, rfl⟩

/-- Logs in a row are carried out one after the other. -/
lemma Follows.trans {log more : List LogLine} {m₁ m₂ m₃ : Memory} (h : Follows log m₁ m₂)
    (h' : Follows more m₂ m₃) : Follows (log ++ more) m₁ m₃ := by
  have hwrites : writesNamed (log ++ more) = writesNamed log ++ writesNamed more := by
    rw [writesNamed, List.filter_append, List.filterMap_append]
    rfl
  refine ⟨h'.code.trans h.code, h'.programSize.trans h.programSize, ?_, ?_⟩
  · rw [h'.data, h.data, hwrites, replay, replay, replay, List.foldl_append]
  · rw [h'.changed, h.changed, hwrites, List.getLast?_append]
    cases (writesNamed more).getLast? <;> rfl

/-- A step that succeeds is explained by its line, and its line is followed. -/
lemma explains_step {m : Machine} {line : LogLine} (h : m.step.result = .ok line) :
    Explains line m m.step.machine ∧ Follows [line] m.memory m.step.machine.memory := by
  obtain ⟨hfetch, hline⟩ := Microcode.cycle_reports (Machine.run_cycle_of_step h)
  obtain ⟨hcounter, hlt, hslot⟩ := Processor.fetch_eq_ok hfetch
  have hregisters := hline.registers
  have hmemory := hline.memory
  have hsome := hline.isSome_store
  have houtcome : line.outcome = line.effect.registers.trace ++ _ := rfl
  rw [hregisters] at houtcome
  cases hstore : line.effect.store with
  | none =>
    rw [hstore] at hmemory hsome houtcome
    have hop : line.op ≠ .sto := of_decide_eq_false hsome.symm
    have hsame : m.step.machine.memory = m.memory := (Except.ok.inj hmemory).symm
    have htext : line.outcome = m.step.machine.registers.trace := by simpa using houtcome
    refine ⟨⟨hcounter, hlt, hslot, fun _ => ⟨htext, ?_, by rw [hsame]⟩,
      fun hsto => absurd hsto hop⟩, ?_⟩
    · rw [htext, namedWrite_trace]
    · have hnone : writesNamed [line] = [] := by simp [writesNamed, hop]
      rw [hsame]
      refine ⟨rfl, rfl, ?_, ?_⟩ <;> rw [hnone] <;> rfl
  | some s =>
    rw [hstore] at hmemory hsome houtcome
    have hop : line.op = .sto := of_decide_eq_true hsome.symm
    replace hmemory : m.memory.writeData s.address s.value = .ok m.step.machine.memory := hmemory
    obtain ⟨hcode, hsize⟩ := Memory.code_of_writeData hmemory
    rw [Memory.writeData] at hmemory
    cases hcell : position? dataSize s.address with
    | none =>
      rw [hcell] at hmemory
      cases hmemory
    | some cell =>
      rw [hcell] at hmemory
      have hafter := (Except.ok.inj hmemory).symm
      have htext : line.outcome = m.step.machine.registers.trace ++ writeText cell s.value := by
        rw [houtcome, writeText, ← pattern_of_position? hcell]
      have hnamed : namedWrite line.outcome = some (cell, s.value) := by
        rw [htext, namedWrite_append_writeText]
      have hone : writesNamed [line] = [(cell, s.value)] := by simp [writesNamed, hop, hnamed]
      refine ⟨⟨hcounter, hlt, hslot, fun hnot => absurd hop hnot, fun _ => ?_⟩, hcode, hsize, ?_, ?_⟩
      · exact ⟨cell, s.value, htext, hnamed, by rw [hafter]⟩
      · rw [hone, hafter]
        rfl
      · rw [hone, hafter]
        rfl

/-- The lines of a step are followed, and a step that fails has none. -/
lemma follows_step (m : Machine) :
    Follows m.step.result.toOption.toList m.memory m.step.machine.memory := by
  cases h : m.step.result with
  | error e =>
    rw [Machine.machine_of_step_error h]
    exact Follows.refl m.memory
  | ok line => exact (explains_step h).2

end Replay

/-! ## Runs -/

namespace Machine

/-- The machine after some steps. -/
def stepped (m : Machine) : Nat → Machine
  | 0 => m
  | n + 1 => (m.stepped n).step.machine

/-- The log lines of some steps, one for each that succeeds. -/
def log (m : Machine) : Nat → List LogLine
  | 0 => []
  | n + 1 => m.log n ++ (m.stepped n).step.result.toOption.toList

end Machine

namespace Replay

/-- What the memory becomes is what the log says. -/
lemma follows_log (m : Machine) (n : Nat) : Follows (m.log n) m.memory (m.stepped n).memory := by
  induction n with
  | zero => exact Follows.refl m.memory
  | succ n ih => exact ih.trans (follows_step (m.stepped n))

end Replay

end AccumulatorMachine

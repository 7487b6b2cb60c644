import AccumulatorMachine.Proofs.NumberErrors
import AccumulatorMachine.Proofs.TraceReplay

/-!
# The text of a log line

The text of a log line puts numbers of any width side by side, and a column that a long argument overflows.
It is unambiguous nevertheless. Each number ends at a mark that is no digit, and the bit patterns between
the parentheses tell the instruction. So the column in the middle need not be read: it is the same in two
lines that agree up to it, and what stands behind it is the outcome.

## Main definitions

* `Instruction.ofBits?` — the instruction that bit patterns spell.
* `LogLine.storeText` — what an outcome says of a store.

## Main results

* `Numeral.SpellsNat.append_inj` — two numbers in front of a mark.
* `Numeral.ofDigitChars_binary`, `Numeral.length_binary` — numbers in base 2 with a fixed number of digits.
* `Instruction.ofBits?_bits` — the bit patterns of an instruction are read back.
* `LogLine.text_inj` — equal texts tell of the same slot, instruction and effect.
* `Machine.text_tells_step` — the log lines of steps are told apart by their texts.
-/

set_option autoImplicit false

namespace AccumulatorMachine

/-! ## What stands in front of a mark -/

section Mark

variable {text text' rest rest' : List Char} {n n' : Nat} {mark : Char}

/-- Texts without a mark in them are told by what they are with the mark and anything else behind them. -/
lemma Text.append_cons_inj (h : mark ∉ text) (h' : mark ∉ text')
    (heq : text ++ mark :: rest = text' ++ mark :: rest') : text = text' ∧ rest = rest' := by
  rcases List.append_eq_append_iff.1 heq with ⟨more, rfl, hmore⟩ | ⟨more, rfl, hmore⟩
  · cases more with
    | nil => exact ⟨(List.append_nil _).symm, (List.cons.inj hmore).2⟩
    | cons c more =>
      obtain rfl := (List.cons.inj hmore).1
      exact absurd (List.mem_append_right _ List.mem_cons_self) h'
  · cases more with
    | nil => exact ⟨List.append_nil _, (List.cons.inj hmore).2.symm⟩
    | cons c more =>
      obtain rfl := (List.cons.inj hmore).1
      exact absurd (List.mem_append_right _ List.mem_cons_self) h

namespace Numeral

/-- No mark that is no digit stands in a number. -/
lemma SpellsNat.notMem (h : SpellsNat text n) (hmark : Numeral.isDigit mark = false) : mark ∉ text := by
  intro hmem
  rw [h.isDigit mark hmem] at hmark
  cases hmark

/-- A number ends at the first mark that is no digit. -/
lemma SpellsNat.append_inj (h : SpellsNat text n) (h' : SpellsNat text' n')
    (hmark : Numeral.isDigit mark = false) (heq : text ++ mark :: rest = text' ++ mark :: rest') :
    n = n' ∧ rest = rest' := by
  obtain ⟨rfl, hrest⟩ := Text.append_cons_inj (h.notMem hmark) (h'.notMem hmark) heq
  exact ⟨h.unique h', hrest⟩

end Numeral

end Mark

/-! ## Numbers in base 2 -/

namespace Numeral

variable {width n : Nat}

/-- In base two, numbers are written as they are commonly shown, with zeros in front. -/
lemma toList_binary (width n : Nat) :
    (binary width n).toList = (Nat.toDigits 2 n).leftpad width '0' := by
  rw [binary, toList_natural le_rfl (by omega)]

/-- A number in base 2 is read back, with zeros in front or without. -/
lemma ofDigitChars_binary (width n : Nat) : Nat.ofDigitChars 2 (binary width n).toList 0 = n := by
  rw [toList_binary, List.leftpad, Nat.ofDigitChars_append, Nat.ofDigitChars_replicate_zero, Nat.mul_zero,
    Nat.ofDigitChars_toDigits (by omega) (by omega)]

/-- A number that has no more bits than there are places fills the places. -/
lemma length_binary (hwidth : 0 < width) (h : n < 2 ^ width) :
    (binary width n).toList.length = width := by
  have hlength : (Nat.toDigits 2 n).length ≤ width :=
    (Nat.length_toDigits_le_iff (by omega) hwidth).2 h
  rw [toList_binary, List.leftpad, List.length_append, List.length_replicate]
  omega

/-- All digits of a number in base two are zeros and ones. -/
lemma eq_zero_or_one_of_mem_binary {c : Char} (h : c ∈ (binary width n).toList) :
    c = '0' ∨ c = '1' := by
  rw [binary, natural, String.toList_ofList, List.leftpad, List.mem_append, List.mem_replicate,
    List.mem_map] at h
  rcases h with ⟨-, rfl⟩ | ⟨d, hd, rfl⟩
  · exact .inl rfl
  · have hlt := digits_lt le_rfl hd
    interval_cases d
    · exact .inl rfl
    · exact .inr rfl

end Numeral

/-- Words with one bit pattern are one word. -/
lemma Word.pattern_inj {w w' : Int32} (h : pattern w = pattern w') : w = w' := by
  have hread := read_of_spellsNat_pattern (Numeral.spellsNat_lowerHex 1 (pattern w))
  rw [h, read_of_spellsNat_pattern (Numeral.spellsNat_lowerHex 1 (pattern w'))] at hread
  exact (Except.ok.inj hread).symm

/-! ## Bit patterns -/

namespace Instruction

/-- The instruction that bit patterns spell: the opcode in eight digits of base 2, and behind blanks the
argument as a number of base 16 that has no sign. -/
def ofBits? (text : List Char) : Option Instruction :=
  match Text.fields text with
  | [opcode, arg] =>
    if opcode.length = 8 ∧ opcode.all (fun c => c = '0' ∨ c = '1') ∧ arg.all Numeral.isDigit then
      (Word.read arg).toOption.map fun word => ⟨UInt8.ofNat (Nat.ofDigitChars 2 opcode 0), word⟩
    else none
  | _ => none

variable {i j : Instruction}

/-- The bit patterns of an instruction are two fields. -/
lemma fields_bits (i : Instruction) :
    Text.fields i.bits.toList =
      [(Numeral.binary 8 i.opcode.toNat).toList, (Numeral.upperHex 1 (Word.pattern i.arg)).toList] := by
  have hopcode : ∀ c ∈ (Numeral.binary 8 i.opcode.toNat).toList, Text.isBlank c = false := by
    intro c hc
    rcases Numeral.eq_zero_or_one_of_mem_binary hc with rfl | rfl <;> decide
  have hne : (Numeral.binary 8 i.opcode.toNat).toList ≠ [] := by
    refine List.ne_nil_of_length_pos ?_
    rw [Numeral.length_binary (by omega) i.opcode.toNat_lt]
    omega
  have harg := Numeral.spellsNat_upperHex 1 (Word.pattern i.arg)
  have hbits : i.bits.toList = [] ++ ((Numeral.binary 8 i.opcode.toNat).toList ++
      ([' ', ' '] ++ ((Numeral.upperHex 1 (Word.pattern i.arg)).toList ++ []))) := by
    rw [bits, String.toList_append, String.toList_append, List.append_assoc, List.append_nil]
    rfl
  rw [hbits, Text.fields_append Text.isBlankLine_nil hne hopcode (by simp [Text.isBlank]),
    Text.fields_append (by decide) harg.ne_nil harg.spells.isBlank (by simp), Text.fields_nil]

/-- **The bit patterns of an instruction are read back.** -/
lemma ofBits?_bits (i : Instruction) : ofBits? i.bits.toList = some i := by
  have harg := Numeral.spellsNat_upperHex 1 (Word.pattern i.arg)
  have hlength := Numeral.length_binary (by omega : 0 < 8) i.opcode.toNat_lt
  have hopcode : (Numeral.binary 8 i.opcode.toNat).toList.all (fun c => c = '0' ∨ c = '1') = true :=
    List.all_eq_true.2 fun _ hc => decide_eq_true (Numeral.eq_zero_or_one_of_mem_binary hc)
  have hdigits := List.all_eq_true.2 harg.isDigit
  rw [ofBits?, fields_bits]
  simp only [if_pos (And.intro hlength (And.intro hopcode hdigits)),
    Word.read_of_spellsNat_pattern harg, Numeral.ofDigitChars_binary, UInt8.ofNat_toNat]
  rfl

/-- An argument with a sign is no bit pattern, although it spells a word. -/
example : ofBits? "01011010  80000000".toList = some (.assemble .jmpz .immediate (-0x80000000)) ∧
    ofBits? "01011010  -80000000".toList = none := by
  decide +kernel

/-- Instructions with the same bit patterns are one instruction. -/
lemma bits_inj (h : i.bits = j.bits) : i = j := by
  have hread := ofBits?_bits i
  rw [h, ofBits?_bits j] at hread
  exact (Option.some.inj hread).symm

/-- No bit pattern has a parenthesis in it. -/
lemma closing_notMem_bits (i : Instruction) : ')' ∉ i.bits.toList := by
  rw [bits, String.toList_append, String.toList_append, List.mem_append, List.mem_append]
  rintro ((h | h) | h)
  · rcases Numeral.eq_zero_or_one_of_mem_binary h with h | h <;> cases h
  · revert h
    decide
  · exact (Numeral.spellsNat_upperHex 1 _).notMem (by decide) h

end Instruction

/-! ## The parts of a log line -/

/-- Two texts that start with registers tell the same registers, and the same behind them. -/
lemma Registers.trace_append_inj {r r' : Registers} {rest rest' : List Char}
    (h : r.trace.toList ++ rest = r'.trace.toList ++ rest') : r = r' ∧ rest = rest' := by
  have htrace : ∀ (r : Registers) (rest : List Char), r.trace.toList ++ rest =
      "[A=0x".toList ++ ((Numeral.lowerHex 8 (Word.pattern r.accumulator)).toList ++ ']' ::
        ("[PC=0x".toList ++ ((Numeral.lowerHex 2 (Word.pattern r.counter)).toList ++ ']' :: rest))) := by
    intro r rest
    simp only [trace, String.toList_append, List.append_assoc]
    rfl
  rw [htrace, htrace] at h
  obtain ⟨haccumulator, h⟩ := (Numeral.spellsNat_lowerHex 8 _).append_inj
    (Numeral.spellsNat_lowerHex 8 _) (by decide) (List.append_cancel_left h)
  obtain ⟨hcounter, hrest⟩ := (Numeral.spellsNat_lowerHex 2 _).append_inj
    (Numeral.spellsNat_lowerHex 2 _) (by decide) (List.append_cancel_left h)
  exact ⟨congrArg₂ Registers.mk (Word.pattern_inj haccumulator) (Word.pattern_inj hcounter), hrest⟩

namespace LogLine

/-- What an outcome says of a store. -/
def storeText : Option Store → List Char
  | none => []
  | some s => (Replay.writeText (Word.pattern s.address) s.value).toList

/-- A store, or that there is none, is told by what the outcome says of it. -/
lemma storeText_inj {s s' : Option Store} (h : storeText s = storeText s') : s = s' := by
  have hwrite : ∀ s : Store, storeText (some s) =
      "[#0x".toList ++ ((Numeral.lowerHex 4 (Word.pattern s.address)).toList ++ '=' ::
        ("0x".toList ++ ((Numeral.lowerHex 8 (Word.pattern s.value)).toList ++ ']' :: []))) := by
    intro s
    simp only [storeText, Replay.writeText, String.toList_append, List.append_assoc]
    rfl
  cases s with
  | none =>
    cases s' with
    | none => rfl
    | some s' =>
      rw [hwrite] at h
      cases h
  | some s =>
    cases s' with
    | none =>
      rw [hwrite] at h
      cases h
    | some s' =>
      rw [hwrite, hwrite] at h
      obtain ⟨haddress, h⟩ := (Numeral.spellsNat_lowerHex 4 _).append_inj
        (Numeral.spellsNat_lowerHex 4 _) (by decide) (List.append_cancel_left h)
      obtain ⟨hvalue, -⟩ := (Numeral.spellsNat_lowerHex 8 _).append_inj
        (Numeral.spellsNat_lowerHex 8 _) (by decide) (List.append_cancel_left h)
      exact congrArg some
        (congrArg₂ Store.mk (Word.pattern_inj haddress) (Word.pattern_inj hvalue))

/-- An outcome is the registers, and what it says of a store behind them. -/
lemma toList_outcome (l : LogLine) :
    l.outcome.toList = l.effect.registers.trace.toList ++ storeText l.effect.store := by
  rw [outcome, String.toList_append]
  cases l.effect.store <;> rfl

/-- A text is the slot, the bit patterns, a column that the instruction fills, and the outcome. -/
lemma toList_text (l : LogLine) :
    l.text.toList = "#0x".toList ++ ((Numeral.upperHex 2 l.address).toList ++ ':' :: (" (".toList ++
      (l.instruction.bits.toList ++ ')' :: ("  ".toList ++
        ((Numeral.padEnd 14 l.instruction.text).toList ++ l.outcome.toList))))) := by
  simp only [text, Decoded.heading, String.toList_append, List.append_assoc]
  rfl

/-- **Equal texts tell of the same slot, instruction and effect.**

**Proof sketch.** The slot ends at the colon, and the bit patterns end at the closing parenthesis. They
tell the instruction, so the column behind them is the same in both texts, however long it is. -/
lemma text_inj {l l' : LogLine} (h : l.text = l'.text) :
    l.address = l'.address ∧ l.instruction = l'.instruction ∧ l.effect = l'.effect := by
  replace h := congrArg String.toList h
  rw [toList_text, toList_text] at h
  obtain ⟨haddress, h⟩ := (Numeral.spellsNat_upperHex 2 _).append_inj
    (Numeral.spellsNat_upperHex 2 _) (by decide) (List.append_cancel_left h)
  replace h := List.append_cancel_left h
  obtain ⟨hbits, h⟩ := Text.append_cons_inj l.instruction.closing_notMem_bits
    l'.instruction.closing_notMem_bits h
  have hinstruction : l.instruction = l'.instruction :=
    Instruction.bits_inj (String.toList_injective hbits)
  replace h := List.append_cancel_left h
  rw [hinstruction] at h
  have houtcome := List.append_cancel_left h
  rw [toList_outcome, toList_outcome] at houtcome
  obtain ⟨hregisters, hstore⟩ := Registers.trace_append_inj houtcome
  exact ⟨haddress, hinstruction, congrArg₂ Effect.mk hregisters (storeText_inj hstore)⟩

end LogLine

/-! ## The lines of steps -/

/-- What is fetched is decoded from its own instruction. -/
lemma Processor.ofInstruction_of_fetch {p : Processor} {d : Decoded} (h : p.fetch = .ok d) :
    Decoded.ofInstruction d.address d.instruction = .ok d := by
  obtain ⟨hcounter, hlt, hslot⟩ := fetch_eq_ok h
  have hposition : position? codeSize p.registers.counter = some ⟨d.address, hlt⟩ :=
    position?_eq_some_iff.2 hcounter
  have hcode : p.memory.code[d.address] = some d.instruction := by
    rw [Vector.getElem?_eq_getElem hlt] at hslot
    exact Option.some.inj hslot
  have hread : p.memory.readCode p.registers.counter = .ok d.instruction := by
    simp [Memory.readCode, hposition, hcode]
  rw [fetch, hread, hcounter] at h
  exact h

namespace Machine

/-- **A log line tells what was executed.** The bit patterns of any instruction are read back as this
instruction. And let two steps of any two machines succeed. If the texts of their log lines are equal, so
are the slots that the instructions came from, the instructions, and the registers that the steps leave;
in fact, the two lines are the same, with the operation, the mode and the cell written. -/
theorem text_tells_step :
    (∀ i : Instruction, Instruction.ofBits? i.bits.toList = some i) ∧
      ∀ (m m' : Machine) (line line' : LogLine), m.step.result = .ok line →
        m'.step.result = .ok line' → line.text = line'.text →
          line.address = line'.address ∧ line.instruction = line'.instruction ∧
            m.step.machine.registers = m'.step.machine.registers ∧ line = line' := by
  refine ⟨Instruction.ofBits?_bits, fun m m' line line' hstep hstep' htext => ?_⟩
  obtain ⟨haddress, hinstruction, heffect⟩ := LogLine.text_inj htext
  obtain ⟨hfetch, hline⟩ := Microcode.cycle_reports (run_cycle_of_step hstep)
  obtain ⟨hfetch', hline'⟩ := Microcode.cycle_reports (run_cycle_of_step hstep')
  have hdecoded : line.toDecoded = line'.toDecoded := by
    have hown := Processor.ofInstruction_of_fetch hfetch
    rw [haddress, hinstruction, Processor.ofInstruction_of_fetch hfetch'] at hown
    exact (Except.ok.inj hown).symm
  have hregisters : m.step.machine.registers = m'.step.machine.registers := by
    rw [← hline.registers, ← hline'.registers, heffect]
  refine ⟨haddress, hinstruction, hregisters, ?_⟩
  cases line
  cases line'
  congr 1

/-- Two machines with other data and other observers execute the same jump to the least word. Its operand
overflows the column of the assembly text, and the program counter has eight digits instead of two. -/
theorem text_tells_step_long_operand :
    ∃ (m m' : Machine) (line line' : LogLine), m.memory.data[0] ≠ m'.memory.data[0] ∧
      m.step.result = .ok line ∧ m'.step.result = .ok line' ∧
      line.text = "#0xFF: (01011010  80000000)  JMPZ  #-80000000[A=0x00000000][PC=0x80000000]" ∧
      line.text = line'.text ∧ m.step.machine.registers = m'.step.machine.registers ∧ line = line' := by
  let jump : Instruction := .assemble .jmpz .immediate (-0x80000000)
  let memory : Memory := { Memory.empty with code := Memory.empty.code.set 255 (some jump) }
  let start : Machine := { registers := ⟨0, 255⟩, memory }
  let other : Machine :=
    { registers := ⟨0, 255⟩
      memory := { memory with data := memory.data.set 0 7 }
      observer := some 1 }
  let line : LogLine := ⟨⟨255, jump, .jmpz, .immediate⟩, ⟨0, -0x80000000⟩, none⟩
  have hdata : start.memory.data[0] ≠ other.memory.data[0] := by decide +kernel
  have hstep : start.step.result = .ok line := by decide +kernel
  have hstep' : other.step.result = .ok line := by decide +kernel
  have htext : line.text =
      "#0xFF: (01011010  80000000)  JMPZ  #-80000000[A=0x00000000][PC=0x80000000]" := by
    decide +kernel
  clear_value start other
  obtain ⟨-, -, hregisters, hline⟩ := text_tells_step.2 start other line line hstep hstep' rfl
  exact ⟨start, other, line, line, hdata, hstep, hstep', htext, rfl, hregisters, hline⟩

end Machine

end AccumulatorMachine

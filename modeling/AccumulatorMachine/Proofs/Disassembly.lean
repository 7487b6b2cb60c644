import AccumulatorMachine.Instruction
import AccumulatorMachine.Proofs.LineEnds
import AccumulatorMachine.Proofs.SourceGrammar
import AccumulatorMachine.Proofs.WrittenNumbers

/-!
# Disassembly

An instruction is shown as a line of a source, and what is shown can be read again: the mnemonic, the mark
of the mode, and the argument, even the least word, whose absolute value is no word. The checker of
sources lets such lines pass, except where the operation takes no argument. As every instruction is shown
with one, these lines have one mistake each.

## Main definitions

* `Numeral.IsPlainForm` — the plain form of an integer in base 16.
* `Instruction.shownLine` — the line of a shown instruction.

## Main results

* `Numeral.isPlainForm_upperHex` — an integer is written in the plain form.
* `Instruction.exists_toList_text` — the text of an assembled instruction.
* `Instruction.fields_shownLine` — its two fields.
* `Source.statement_text` — its mistakes as a line of a source.
* `Source.disassembly_reads_back` — a shown program is read again.
-/

set_option autoImplicit false

namespace AccumulatorMachine

/-! ## Plain numbers -/

namespace Numeral

/-- The plain form of an integer in base 16: a minus sign if the integer is negative, and digits, the
letters in upper case. A zero stands in front only where it is the only digit. -/
def IsPlainForm (text : List Char) (n : Int) : Prop :=
  ∃ digits, text = (if n < 0 then ['-'] else []) ++ digits ∧ SpellsNat digits n.natAbs ∧
    (∀ c ∈ digits, c ∈ "0123456789ABCDEF".toList) ∧ (digits.head? = some '0' → digits = ['0'])

/-- The plain form of an integer spells it. -/
lemma IsPlainForm.spells {text : List Char} {n : Int} (h : IsPlainForm text n) : Spells text n := by
  obtain ⟨digits, rfl, hdigits, -⟩ := h
  refine ⟨_, digits, n.natAbs, rfl, hdigits, ?_⟩
  split
  · exact .inr ⟨rfl, by omega⟩
  · exact .inl ⟨.inl rfl, by omega⟩

/-- Only zero has a zero in front. -/
lemma digits_eq_of_head? {base n : Nat} (hbase : 2 ≤ base) (h : (digits base n).head? = some 0) :
    digits base n = [0] := by
  induction n using Nat.strong_induction_on with
  | _ n ih =>
    rw [digits] at h
    split at h
    · rename_i hsmall
      rw [digits, dif_pos hsmall]
      simpa using h
    · rename_i hlarge
      rw [List.head?_append_of_ne_nil _ (digits_ne_nil base _)] at h
      have hzero := ih (n / base) (Nat.div_lt_self (by omega) hbase) h
      have hvalue := ofDigits_digits hbase (n / base)
      rw [hzero] at hvalue
      have hdiv : n / base = 0 := hvalue.symm
      rw [Nat.div_eq_zero_iff] at hdiv
      omega

/-- A number written with at least one digit has no zero in front of its digits. -/
lemma toList_upperHex_one (n : Nat) : (upperHex 1 n).toList = (digits 16 n).map upperDigit := by
  have hlength : 1 ≤ (digits 16 n).length := List.length_pos_iff.2 (digits_ne_nil 16 n)
  rw [upperHex, natural, String.toList_ofList, List.leftpad, List.length_map,
    Nat.sub_eq_zero_of_le hlength]
  rfl

/-- An integer is written in the plain form. -/
lemma isPlainForm_upperHex (n : Int) :
    IsPlainForm ((if n < 0 then ['-'] else []) ++ (upperHex 1 n.natAbs).toList) n := by
  refine ⟨_, rfl, spellsNat_upperHex 1 n.natAbs, ?_, ?_⟩
  · rw [toList_upperHex_one]
    intro c hc
    obtain ⟨d, hd, rfl⟩ := List.mem_map.1 hc
    have hlt := digits_lt (by omega) hd
    interval_cases d <;> decide
  · rw [toList_upperHex_one, List.head?_map]
    intro hhead
    obtain ⟨d, hd, hzero⟩ := Option.map_eq_some_iff.1 hhead
    have hlt := digits_lt (by omega) (List.mem_of_mem_head? hd)
    have hd' : d = 0 := by
      interval_cases d <;> first | rfl | exact absurd hzero (by decide)
    rw [digits_eq_of_head? (by omega) (hd' ▸ hd)]
    rfl

end Numeral

/-! ## Lines -/

namespace Text

/-- Lines that are joined by line ends make a text of these lines. -/
lemma hasLines_intercalate {ending : List Char} {ls : List (List Char)}
    (hending : ending ∈ [['\n'], ['\r', '\n']]) (h : ∀ line ∈ ls, line ≠ [] ∧ '\n' ∉ line) :
    HasLines (ending.intercalate ls) ls := by
  induction ls with
  | nil => exact .nil
  | cons line ls ih =>
    obtain ⟨hline, hmore⟩ := List.forall_mem_cons.1 h
    cases ls with
    | nil =>
      rw [List.intercalate_singleton]
      exact .last hline.1 hline.2
    | cons next ls =>
      rw [List.intercalate_cons_cons, List.append_assoc]
      exact .cons hline.2 hending (ih hmore)

end Text

/-! ## Shown instructions -/

namespace Instruction

/-- The line of a shown instruction: the mnemonic, two blanks, the mark of the mode, and a number. -/
def shownLine (op : Operation) (mode : Mode) (number : List Char) : List Char :=
  op.mnemonic.toList ++ ([' ', ' '] ++ (mode.mark ++ number))

variable {op : Operation} {mode : Mode} {arg : Int32} {number : List Char}

/-- **The text of an assembled instruction** shows its argument in the plain form. -/
lemma exists_toList_text (op : Operation) (mode : Mode) (arg : Int32) :
    ∃ number, Numeral.IsPlainForm number arg.toInt ∧
      (assemble op mode arg).text.toList = shownLine op mode number := by
  refine ⟨_, Numeral.isPlainForm_upperHex arg.toInt, ?_⟩
  have hsign : (if arg < 0 then "-" else "").toList = if arg.toInt < 0 then ['-'] else [] := by
    simp only [Int32.lt_iff_toInt_lt, Int32.toInt_zero]
    split <;> rfl
  have harg : (assemble op mode arg).arg = arg := rfl
  rw [text, assemble_group, assemble_mode, Operation.ofGroup?_eq_some_iff.2 rfl, harg]
  simp only [String.toList_append, String.toList_ofList, hsign, List.append_assoc]
  rfl

/-- No mnemonic has a blank in it. -/
lemma isBlank_mnemonic (op : Operation) : ∀ c ∈ op.mnemonic.toList, Text.isBlank c = false := by
  cases op <;> simp [Operation.mnemonic, Text.isBlank]

/-- Neither has a number with a mark. -/
lemma isBlank_markedNumber (h : Numeral.Spells number arg.toInt) :
    ∀ c ∈ mode.mark ++ number, Text.isBlank c = false := by
  rw [List.forall_mem_append]
  refine ⟨?_, h.isBlank⟩
  cases mode <;> simp [Mode.mark, Text.isBlank]

/-- A shown instruction has two fields. -/
lemma fields_shownLine (h : Numeral.Spells number arg.toInt) :
    Text.fields (shownLine op mode number) = [op.mnemonic.toList, mode.mark ++ number] := by
  have hname : op.mnemonic.toList ≠ [] := by cases op <;> decide
  have hone : Text.fields ([] ++ shownLine op mode number) =
      op.mnemonic.toList :: Text.fields ([' ', ' '] ++ (mode.mark ++ number)) :=
    Text.fields_append Text.isBlankLine_nil hname (isBlank_mnemonic op) (by simp [Text.isBlank])
  have htwo : Text.fields ([' ', ' '] ++ ((mode.mark ++ number) ++ [])) =
      (mode.mark ++ number) :: Text.fields [] :=
    Text.fields_append (by decide) (by simp [h.ne_nil]) (isBlank_markedNumber h) (by simp)
  rw [List.append_nil, Text.fields_nil] at htwo
  exact hone.trans (by rw [htwo])

/-- Its mark and its number are told apart. -/
lemma splitMark_markedNumber (h : Numeral.Spells number arg.toInt) :
    Mode.splitMark (mode.mark ++ number) = (mode, number) :=
  Mode.splitMark_append mode number fun _ =>
    Source.splitMark_of_isSpelledBy ⟨arg.toInt, h, arg.le_toInt, arg.toInt_lt⟩

/-- The only blanks of a shown instruction are spaces. -/
lemma eq_space_of_mem_shownLine (h : Numeral.Spells number arg.toInt) {c : Char}
    (hc : c ∈ shownLine op mode number) (hblank : Text.isBlank c = true) : c = ' ' := by
  have hsolid : ∀ text : List Char, (∀ d ∈ text, Text.isBlank d = false) → c ∉ text := by
    intro text htext hmem
    rw [htext c hmem] at hblank
    cases hblank
  rw [shownLine, List.mem_append, List.mem_append] at hc
  rcases hc with hc | hc | hc
  · exact absurd hc (hsolid _ (isBlank_mnemonic op))
  · simpa using hc
  · exact absurd hc (hsolid _ (isBlank_markedNumber h))

end Instruction

namespace Source

open Instruction (assemble shownLine)

variable {op : Operation} {mode : Mode} {arg : Int32} {number : List Char}

/-- A shown instruction is a code line, except that an operation without an argument is given one. -/
lemma statement_shownLine (h : Numeral.Spells number arg.toInt) :
    statement .code (shownLine op mode number) =
      (if op.takesArgument then [] else [.unexpectedArgument], .code) := by
  have hfields : Text.fields (shownLine op mode number) = [op.mnemonic.toList, mode.mark ++ number] :=
    Instruction.fields_shownLine h
  have hword : Text.capitals (Text.trim (shownLine op mode number)) ≠ separator := by
    intro hword
    rw [fields_of_separator hword] at hfields
    simp at hfields
  have hflush : leadingMistakes (shownLine op mode number) = [] := by
    rw [leadingMistakes, shownLine, List.head?_append_of_ne_nil _ (by cases op <;> decide)]
    cases op <;> decide
  have harguments : argumentMistakes op [mode.mark ++ number] =
      if op.takesArgument then [] else [.unexpectedArgument] := by
    have hnumber : isWord number = true :=
      (isWord_iff number).2 ⟨arg.toInt, h, arg.le_toInt, arg.toInt_lt⟩
    simp [argumentMistakes, Instruction.splitMark_markedNumber h, hnumber]
  rw [statement]
  simp only [if_neg hword, hflush, List.nil_append, hfields, codeMistakes, capitals_mnemonic,
    Operation.ofMnemonic?_eq_some_iff.2 rfl, if_true, harguments]

/-- Statements of the code are reported one after the other, each at its number. -/
lemma Scan.found_foldl_statements {α : Type} {write : α → List Char} {mistakes : α → List Mistake}
    (h : ∀ a, ¬ Text.IsBlankLine (write a) ∧ statement .code (write a) = (mistakes a, .code))
    (items : List α) {s : Scan} (hpart : s.part = .code) (hgap : s.gap = .unseen) :
    ((items.map write).foldl Scan.line s).found.toList =
      s.found.toList ++ (items.zipIdx (s.count + 1)).flatMap fun line =>
        (mistakes line.1).map (Diagnostic.mk line.2) := by
  induction items generalizing s with
  | nil => exact (List.append_nil _).symm
  | cons a items ih =>
    obtain ⟨hsolid, hstatement⟩ := h a
    have hline : s.line (write a) =
        { s with count := s.count + 1
                 found := s.found ++ (mistakes a).map (Diagnostic.mk (s.count + 1)) } := by
      rw [Scan.line_of_not_blank hsolid (by simp [hgap]), hpart, hstatement, ← hpart]
    have hpart' : (s.line (write a)).part = .code := by rw [hline, hpart]
    have hgap' : (s.line (write a)).gap = .unseen := by rw [hline, hgap]
    rw [List.map_cons, List.foldl_cons, ih hpart' hgap', hline, List.zipIdx_cons, List.flatMap_cons,
      Array.toList_appendList, List.append_assoc]

/-- The lines of a shown program are its shown instructions. -/
lemma lines_disassembly (program : List (Operation × Mode × Int32)) {ending : String}
    (hending : ending ∈ ["\n", "\r\n"]) :
    Text.lines (ending.intercalate
        (program.map fun (op, mode, arg) => (assemble op mode arg).text)).toList =
      program.map fun (op, mode, arg) => (assemble op mode arg).text.toList := by
  have hshown : ∀ line ∈ program.map fun (op, mode, arg) => (assemble op mode arg).text.toList,
      ∃ op mode number arg, Numeral.Spells number (Int32.toInt arg) ∧
        line = shownLine op mode number := by
    intro line hline
    obtain ⟨⟨op, mode, arg⟩, -, rfl⟩ := List.mem_map.1 hline
    obtain ⟨number, hnumber, htext⟩ := Instruction.exists_toList_text op mode arg
    exact ⟨op, mode, number, arg, hnumber.spells, htext⟩
  have hends : ending.toList ∈ [['\n'], ['\r', '\n']] := List.mem_map_of_mem hending
  rw [String.toList_intercalate, List.map_map]
  refine Text.HasLines.lines_eq (Text.hasLines_intercalate hends fun line hline => ?_)
    fun line hline hreturn => ?_
  · obtain ⟨op, mode, number, arg, hnumber, rfl⟩ := hshown line hline
    refine ⟨by simp [shownLine], fun hfeed => ?_⟩
    have hspace := Instruction.eq_space_of_mem_shownLine hnumber hfeed (by decide)
    cases hspace
  · obtain ⟨op, mode, number, arg, hnumber, rfl⟩ := hshown line hline
    have hspace := Instruction.eq_space_of_mem_shownLine hnumber
      (List.mem_of_mem_getLast? hreturn) (by decide)
    cases hspace

/-- The text of an assembled instruction is a statement of the code. -/
lemma statement_text (op : Operation) (mode : Mode) (arg : Int32) :
    ¬ Text.IsBlankLine (assemble op mode arg).text.toList ∧
      statement .code (assemble op mode arg).text.toList =
        (if op ∈ [Operation.nop, .not, .halt] then [.unexpectedArgument] else [], .code) := by
  obtain ⟨number, hnumber, htext⟩ := Instruction.exists_toList_text op mode arg
  rw [htext, ← Text.fields_eq_nil_iff, Instruction.fields_shownLine hnumber.spells,
    statement_shownLine hnumber.spells]
  refine ⟨List.cons_ne_nil _ _, ?_⟩
  cases op <;> rfl

/-- **A shown program is read again.** Let an instruction be assembled from any operation, mode and
argument, and let it be shown. Its text has two fields. The first one is the mnemonic of the operation,
and the second one is the mark of the mode and a number behind it: the argument in the plain form, which
the checker reads as the argument. Let the instructions of a program be shown, one line each. Then the
checker finds an unexpected argument in each line with an operation that takes none, and no other
mistake.

**Proof sketch.** A number in the plain form spells the argument, and neither a mnemonic nor a mark nor a
number has a blank in it. So each line is a statement of the code with two fields, and the statements are
reported one after the other. -/
theorem disassembly_reads_back :
    (∀ (op : Operation) (mode : Mode) (arg : Int32), ∃ name token number,
      Text.fields (assemble op mode arg).text.toList = [name, token] ∧
        Operation.ofMnemonic? name = some op ∧ Mode.splitMark token = (mode, number) ∧
        Numeral.IsPlainForm number arg.toInt ∧ Word.read? number = some arg) ∧
      ∀ (program : List (Operation × Mode × Int32)) (ending : String), ending ∈ ["\n", "\r\n"] →
        (check (ending.intercalate
            (program.map fun (op, mode, arg) => (assemble op mode arg).text)).toList).diagnostics =
          (program.zipIdx 1).flatMap fun line =>
            if line.1.1 ∈ [Operation.nop, .not, .halt] then [⟨line.2, .unexpectedArgument⟩] else [] := by
  constructor
  · intro op mode arg
    obtain ⟨number, hnumber, htext⟩ := Instruction.exists_toList_text op mode arg
    refine ⟨_, _, number, ?_, Operation.ofMnemonic?_eq_some_iff.2 rfl,
      Instruction.splitMark_markedNumber hnumber.spells, hnumber,
      Word.read?_eq_some_iff.2 hnumber.spells⟩
    rw [htext, Instruction.fields_shownLine hnumber.spells]
  · intro program ending hending
    have hstatement := fun instruction : Operation × Mode × Int32 =>
      statement_text instruction.1 instruction.2.1 instruction.2.2
    have hfound := Scan.found_foldl_statements hstatement program (rfl : Scan.part {} = .code) rfl
    rw [check, lines_disassembly program hending]
    exact hfound.trans (List.flatMap_congr fun line _ =>
      apply_ite (List.map (Diagnostic.mk line.2)) _ _ _)

/-- The least word is shown with its sign, and a `HALT` with an argument. -/
theorem disassembly_reads_back_least_word :
    (check "JMPZ  @-80000000\r\nHALT  &1F\r\nADD  0".toList).diagnostics =
      [⟨2, .unexpectedArgument⟩] := by
  have h := disassembly_reads_back.2
    [(.jmpz, .indirect, -0x80000000), (.halt, .absolute, 31), (.add, .direct, 0)] "\r\n" (by decide)
  have htext : ("\r\n".intercalate
      ([(Operation.jmpz, Mode.indirect, (-0x80000000 : Int32)), (.halt, .absolute, 31),
        (.add, .direct, 0)].map fun (op, mode, arg) => (assemble op mode arg).text)) =
      "JMPZ  @-80000000\r\nHALT  &1F\r\nADD  0" := by
    decide +kernel
  rw [htext] at h
  exact h

end Source

end AccumulatorMachine

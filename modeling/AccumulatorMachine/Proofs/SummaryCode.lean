import AccumulatorMachine.Proofs.Disassembly
import AccumulatorMachine.Proofs.ReportOrder

/-!
# The summary code

The summary code of a source is a word: zero if there is no mistake, minus one if the source cannot be read,
and otherwise the first diagnosed line. Lines are counted without a bound, but words are not. So the code
is the line up to line `2 ^ 31 - 1` only. Behind that it is congruent to the line modulo `2 ^ 32`, and any
word may come out: a negative one for a first mistake in line `2 ^ 31`, minus one in line `2 ^ 32 - 1`,
although the source has been read, and zero in line `2 ^ 32`, as if there were no mistake.

## Main definitions

* `Source.Report.TellsFirstLine` — the code of a report tells the first diagnosed line.
* `Source.lateMistake` — a source with a mistake in its last line.

## Main results

* `Source.Status.toInt_code_error` — the code of a line.
* `Source.status_of_isLeast` — the summary of a source with a mistake.
* `Source.code_tells_first_line_iff` — the sources whose code tells the first diagnosed line.
* `Source.check_lateMistake` — the first mistake may be in a line as late as one likes.
-/

set_option autoImplicit false

namespace AccumulatorMachine.Source

/-! ## Codes -/

namespace Status

variable {line : Nat}

/-- The code of a line is the line, reduced to 32 bits with a sign. -/
lemma toInt_code_error (line : Nat) : (error line).code.toInt = (line : Int).bmod (2 ^ 32) := by
  rw [code, ← Int32.ofInt_eq_ofNat, Int32.toInt_ofInt]
  rfl

/-- A line that is a word is its own code. -/
lemma toInt_code_error_of_lt (h : line < 2 ^ 31) : (error line).code.toInt = line :=
  Int32.toInt_ofNat_of_lt h

/-- One line in `2 ^ 32` has the code of a source that cannot be read. -/
lemma code_error_eq_neg_one_iff : (error line).code = -1 ↔ line % 2 ^ 32 = 2 ^ 32 - 1 := by
  have hminus : (-1 : Int32).toInt = -1 := rfl
  rw [← Int32.toInt_inj, toInt_code_error, hminus, Int.bmod_def]
  omega

end Status

/-- The code of a report tells the first diagnosed line, and is zero if there is none. It is never the code
of a source that cannot be read. -/
structure Report.TellsFirstLine (r : Report) : Prop where
  code_eq_zero_iff : r.status.code = 0 ↔ r.diagnostics = []
  code_pos : r.diagnostics ≠ [] → 0 < r.status.code
  code_eq : ∀ first, IsLeast r.diagnosed first → r.status.code.toInt = first
  code_ne : r.status.code ≠ -1

/-! ## The summary of a source -/

section Summary

variable {source : List Char} {first : Nat}

/-- The line of the only diagnostic is the first one that is diagnosed. -/
lemma Report.isLeast_diagnosed_singleton {r : Report} {d : Diagnostic} (h : r.diagnostics = [d]) :
    IsLeast r.diagnosed d.line := by
  rw [IsLeast, diagnosed, h]
  exact ⟨⟨d, List.mem_singleton_self d, rfl⟩, by
    rintro _ ⟨other, hother, rfl⟩
    rw [List.mem_singleton.1 hother]⟩

/-- Without a diagnostic, the source is clean. -/
lemma status_of_clean (h : (check source).diagnostics = []) : (check source).status = .clean := by
  simp [Report.status, Report.isUnreadable, Report.firstLine, h]

/-- A source with a diagnostic has a first diagnosed line. -/
lemma exists_isLeast_diagnosed (h : (check source).diagnostics ≠ []) :
    ∃ first, IsLeast (check source).diagnosed first ∧ (check source).status = .error first := by
  obtain ⟨first, -, -, -, hleast, -, hstatus⟩ := (check_inLineOrder source).summary h
  exact ⟨first, hleast, hstatus⟩

/-- The first diagnosed line is one of the source, and the summary names it. -/
lemma status_of_isLeast (h : IsLeast (check source).diagnosed first) :
    (check source).status = .error first ∧ 1 ≤ first ∧ first ≤ (Text.lines source).length := by
  obtain ⟨d, hd, hline⟩ := h.1
  obtain ⟨other, hother, hstatus⟩ := exists_isLeast_diagnosed (List.ne_nil_of_mem hd)
  have hinside := (check_inLineOrder source).inside d hd
  rw [hline] at hinside
  rw [hother.unique h] at hstatus
  exact ⟨hstatus, hinside⟩

/-- A first diagnosed line that is a word is told by the code. -/
lemma tellsFirstLine_of_lt (h : ∀ first, IsLeast (check source).diagnosed first → first < 2 ^ 31) :
    (check source).TellsFirstLine := by
  have hcode : ∀ first, IsLeast (check source).diagnosed first →
      (check source).status.code.toInt = first := by
    intro first hleast
    rw [(status_of_isLeast hleast).1, Status.toInt_code_error_of_lt (h first hleast)]
  by_cases hclean : (check source).diagnostics = []
  · have hzero : (check source).status.code = 0 := by
      rw [status_of_clean hclean]
      rfl
    refine ⟨iff_of_true hzero hclean, fun hne => absurd hclean hne, hcode, ?_⟩
    rw [hzero]
    decide
  · obtain ⟨first, hleast, -⟩ := exists_isLeast_diagnosed hclean
    have hpos := (status_of_isLeast hleast).2.1
    have htold := hcode first hleast
    have hzero : (0 : Int32).toInt = 0 := rfl
    have hminus : (-1 : Int32).toInt = -1 := rfl
    refine ⟨iff_of_false ?_ hclean, fun _ => ?_, hcode, ?_⟩
    · rw [← Int32.toInt_inj, htold, hzero]
      omega
    · rw [Int32.lt_iff_toInt_lt, htold, hzero]
      omega
    · rw [Ne, ← Int32.toInt_inj, htold, hminus]
      omega

/-- The code of a source that has been read is minus one only by the reduction to 32 bits. -/
lemma code_check_eq_neg_one_iff :
    (check source).status.code = -1 ↔
      ∃ first, IsLeast (check source).diagnosed first ∧ first % 2 ^ 32 = 2 ^ 32 - 1 := by
  constructor
  · intro h
    by_cases hclean : (check source).diagnostics = []
    · rw [status_of_clean hclean] at h
      cases h
    · obtain ⟨first, hleast, hstatus⟩ := exists_isLeast_diagnosed hclean
      rw [hstatus, Status.code_error_eq_neg_one_iff] at h
      exact ⟨first, hleast, h⟩
  · rintro ⟨first, hleast, h⟩
    rw [(status_of_isLeast hleast).1]
    exact Status.code_error_eq_neg_one_iff.2 h

end Summary

/-- **The summary code tells the first diagnosed line if and only if this line is a word.** So it always
does for a source of fewer than `2 ^ 31` lines. A later line is told modulo `2 ^ 32` only. And the code of a
file is minus one if the file cannot be read, and for one line in `2 ^ 32` although it can.

**Proof sketch.** A report lists its diagnostics by lines, so its status names the first diagnosed line. No
code is `2 ^ 31` or more, so no such line can be told. -/
theorem code_tells_first_line_iff (source : List Char) (view : FileView) :
    ((check source).TellsFirstLine ↔ ∀ first, IsLeast (check source).diagnosed first → first < 2 ^ 31) ∧
    ((Text.lines source).length < 2 ^ 31 → (check source).TellsFirstLine) ∧
    (∀ first, IsLeast (check source).diagnosed first →
      (check source).status.code.toInt = (first : Int).bmod (2 ^ 32)) ∧
    ((checkFile view).status.code = -1 ↔
      (∃ e, view.text = .error e) ∨
        ∃ read first, view.text = .ok read ∧ IsLeast (check read).diagnosed first ∧
          first % 2 ^ 32 = 2 ^ 32 - 1) := by
  refine ⟨⟨fun h first hleast => ?_, tellsFirstLine_of_lt⟩,
    fun hshort => tellsFirstLine_of_lt fun first hleast => ?_, fun first hleast => ?_, ?_⟩
  · have hcode := h.code_eq first hleast
    have hword := (check source).status.code.toInt_lt
    omega
  · exact (status_of_isLeast hleast).2.2.trans_lt hshort
  · rw [(status_of_isLeast hleast).1, Status.toInt_code_error]
  · cases htext : view.text with
    | error e =>
      refine iff_of_true ?_ (.inl ⟨e, rfl⟩)
      rw [checkFile, htext]
      rfl
    | ok read =>
      rw [checkFile, htext]
      simp [code_check_eq_neg_one_iff]

/-- A mistake in the last of three lines, and a directory in place of a file. -/
theorem code_tells_first_line_iff_third_line :
    (Text.lines "NOP\nHALT\nADD".toList).length < 2 ^ 31 ∧
      (check "NOP\nHALT\nADD".toList).TellsFirstLine ∧
      IsLeast (check "NOP\nHALT\nADD".toList).diagnosed 3 ∧
      (check "NOP\nHALT\nADD".toList).status.code.toInt = (3 : Int).bmod (2 ^ 32) ∧
      (checkFile .directory).status.code = -1 := by
  have hlines : (Text.lines "NOP\nHALT\nADD".toList).length < 2 ^ 31 := by decide +kernel
  have hfound : (check "NOP\nHALT\nADD".toList).diagnostics = [⟨3, .missingArgument⟩] := by
    decide +kernel
  have hleast := Report.isLeast_diagnosed_singleton hfound
  obtain ⟨-, htells, hcode, hunreadable⟩ :=
    code_tells_first_line_iff "NOP\nHALT\nADD".toList .directory
  exact ⟨hlines, htells hlines, hleast, hcode 3 hleast, hunreadable.2 (.inl ⟨_, rfl⟩)⟩

/-! ## Late mistakes -/

/-- A source with a mistake in its last line: so many statements, and a line that is none. -/
def lateMistake (statements : Nat) : List Char :=
  ['\n'].intercalate (List.replicate statements "NOP".toList ++ ["?".toList])

/-- **The first mistake may be in a line as late as one likes.** -/
lemma check_lateMistake (statements : Nat) :
    (check (lateMistake statements)).diagnostics = [⟨statements + 1, .unknownMnemonic⟩] := by
  let write : Bool → List Char := fun correct => if correct then "NOP".toList else "?".toList
  let mistakes : Bool → List Mistake := fun correct => if correct then [] else [.unknownMnemonic]
  let items := List.replicate statements true ++ [false]
  have hwrite : ∀ correct, ¬ Text.IsBlankLine (write correct) ∧
      statement .code (write correct) = (mistakes correct, .code) := by
    decide +kernel
  have hsource : lateMistake statements = ['\n'].intercalate (items.map write) := by
    rw [lateMistake, List.map_append, List.map_replicate]
    rfl
  have hline : ∀ correct, (write correct ≠ [] ∧ '\n' ∉ write correct) ∧
      (write correct).getLast? ≠ some '\r' := by
    decide
  have hlines : Text.lines (lateMistake statements) = items.map write := by
    rw [hsource]
    refine Text.HasLines.lines_eq (Text.hasLines_intercalate (by decide) ?_) ?_
    · exact List.forall_mem_map.2 fun correct _ => (hline correct).1
    · exact List.forall_mem_map.2 fun correct _ => (hline correct).2
  -- The statements have no mistakes, and the number of the last line is their count and one.
  have hcorrect : ((List.replicate statements true).zipIdx 1).flatMap
      (fun line => (mistakes line.1).map (Diagnostic.mk line.2)) = [] := by
    rw [List.flatMap_eq_nil_iff]
    intro line hline
    rw [List.eq_of_mem_replicate (List.fst_mem_of_mem_zipIdx hline)]
    rfl
  have hfound := Scan.found_foldl_statements hwrite items (rfl : Scan.part {} = .code) rfl
  rw [List.zipIdx_append, List.flatMap_append, hcorrect, List.length_replicate] at hfound
  rw [check, hlines, hfound, Nat.add_comm]
  rfl

/-- The summary of a source with a late mistake is the line behind its statements. -/
lemma status_lateMistake (statements : Nat) :
    (check (lateMistake statements)).status = .error (statements + 1) :=
  (status_of_isLeast (Report.isLeast_diagnosed_singleton (check_lateMistake statements))).1

/-- Every text is that of some file. -/
lemma exists_text_eq (source : List Char) : ∃ view : FileView, view.text = .ok source := by
  refine ⟨.regular (Text.encode source).toByteArray, ?_⟩
  rw [FileView.text, List.toList_data_toByteArray, Text.decode_encode]

/-- The code of a mistake in line `2 ^ 31` is negative. In line `2 ^ 32 - 1` it is that of a file that
cannot be read, and in line `2 ^ 32` that of a source without a mistake. -/
theorem code_tells_no_late_line :
    (¬ (check (lateMistake (2 ^ 31 - 1))).TellsFirstLine ∧
      (check (lateMistake (2 ^ 31 - 1))).diagnostics = [⟨2 ^ 31, .unknownMnemonic⟩] ∧
      (check (lateMistake (2 ^ 31 - 1))).status.code.toInt = -2 ^ 31) ∧
    (∃ view : FileView, view.text = .ok (lateMistake (2 ^ 32 - 2)) ∧
      (checkFile view).status.code = -1) ∧
    (check (lateMistake (2 ^ 32 - 1))).diagnostics = [⟨2 ^ 32, .unknownMnemonic⟩] ∧
      (check (lateMistake (2 ^ 32 - 1))).status.code = 0 := by
  have hcode : (check (lateMistake (2 ^ 31 - 1))).status.code.toInt = -2 ^ 31 := by
    rw [status_lateMistake, Status.toInt_code_error]
    rfl
  refine ⟨⟨fun htells => ?_, check_lateMistake _, hcode⟩, ?_, check_lateMistake _, ?_⟩
  · have hpos : 0 < (check (lateMistake (2 ^ 31 - 1))).status.code := by
      refine htells.code_pos ?_
      rw [check_lateMistake]
      exact List.cons_ne_nil _ _
    rw [Int32.lt_iff_toInt_lt, hcode] at hpos
    revert hpos
    decide
  · obtain ⟨view, htext⟩ := exists_text_eq (lateMistake (2 ^ 32 - 2))
    refine ⟨view, htext, ?_⟩
    rw [checkFile, htext, status_lateMistake]
    rfl
  · rw [status_lateMistake]
    rfl

end AccumulatorMachine.Source

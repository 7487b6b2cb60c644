import AccumulatorMachine.Proofs.SourceGrammar

/-!
# The report, line by line

The source checker goes over a source with a state that every line may change, and it reports a blank line
only when it comes upon the statement behind it. Yet its report can be told without a scan. Each line has
mistakes of its own, and they are reported at its number, one line after the other. They depend on the
line, and of the other lines on very little: whether the source is in its data, whether a blank line is the
first one, and whether a statement stands behind it.

The statement behind the first blank lines is passed over unread. It has no mistakes, and if it is a
separator, the source does not go over to its data.

## Main definitions

* `Source.EndsInGap`, `Source.IsSeparated` — what the lines in front of a line tell about it.
* `Source.lineMistakes`, `Source.ownMistakes` — the mistakes of one line.
* `Source.reportOf` — the diagnostics of lines that stand between others.
* `Source.Scan.Knows` — what the checker knows behind some lines.

## Main results

* `Source.Scan.Knows.next` — the checker knows it behind the next line too.
* `Source.check_diagnostics` — the report lists the mistakes of each line.
-/

set_option autoImplicit false

namespace AccumulatorMachine.Source

/-! ## What the lines in front of a line tell -/

/-- Lines end in the first blank lines. A line behind them that is not blank resumes the source. -/
def EndsInGap (before : List (List Char)) : Prop :=
  ∃ statements blanks, before = statements ++ blanks ∧
    (∀ line ∈ statements, ¬ Text.IsBlankLine line) ∧ blanks ≠ [] ∧
    ∀ line ∈ blanks, Text.IsBlankLine line

/-- A line is the separator, in any letter case. -/
def IsSeparatorWord (line : List Char) : Prop := Text.capitals (Text.trim line) = separator

/-- A separator has been passed. One that resumes the source is passed over unread, and does not count. -/
def IsSeparated (before : List (List Char)) : Prop :=
  ∃ front line behind, before = front ++ line :: behind ∧ IsSeparatorWord line ∧ ¬ EndsInGap front

/-- Trimmed and in capitals, a separator is one word. -/
instance (line : List Char) : Decidable (IsSeparatorWord line) :=
  inferInstanceAs (Decidable (Text.capitals (Text.trim line) = separator))

variable {before : List (List Char)} {line : List Char}

/-- The blank lines are those from the first blank one on. -/
lemma endsInGap_iff :
    EndsInGap before ↔ before.dropWhile (fun other => ¬ Text.IsBlankLine other) ≠ [] ∧
      ∀ other ∈ before.dropWhile (fun other => ¬ Text.IsBlankLine other), Text.IsBlankLine other := by
  constructor
  · rintro ⟨statements, blanks, rfl, hstatements, hne, hblanks⟩
    obtain ⟨first, blanks, rfl⟩ := List.exists_cons_of_ne_nil hne
    have hfirst := hblanks first List.mem_cons_self
    rw [List.dropWhile_append_of_pos (by simpa using hstatements),
      List.dropWhile_cons_of_neg (by simpa using hfirst)]
    exact ⟨hne, hblanks⟩
  · rintro ⟨hne, hblanks⟩
    refine ⟨_, _, List.takeWhile_append_dropWhile.symm, fun other hother => ?_, hne, hblanks⟩
    simpa using List.mem_takeWhile_imp hother

/-- The lines from the first blank one on decide whether lines end in a gap. -/
instance (before : List (List Char)) : Decidable (EndsInGap before) :=
  decidable_of_iff _ endsInGap_iff.symm

/-- A separator that has been passed stands at some number. -/
lemma isSeparated_iff :
    IsSeparated before ↔ ∃ i : Fin before.length,
      IsSeparatorWord before[i] ∧ ¬ EndsInGap (before.take i) := by
  constructor
  · rintro ⟨front, line, behind, rfl, hline, hfront⟩
    refine ⟨⟨front.length, by simp⟩, ?_, ?_⟩
    · simpa using hline
    · simpa using hfront
  · rintro ⟨i, hline, hfront⟩
    refine ⟨before.take i, before[i], before.drop (i + 1), ?_, hline, hfront⟩
    rw [Fin.getElem_fin, List.getElem_cons_drop, List.take_append_drop]

/-- It is decided line by line whether a separator has been passed. -/
instance (before : List (List Char)) : Decidable (IsSeparated before) :=
  decidable_of_iff _ isSeparated_iff.symm

/-- No blank line is a separator. -/
lemma IsSeparatorWord.not_blank (h : IsSeparatorWord line) : ¬ Text.IsBlankLine line := by
  intro hblank
  rw [IsSeparatorWord, (Text.trim_eq_nil_iff line).2 hblank] at h
  cases h

/-- No line is blank if no former line is and the last one is not either. -/
lemma forall_solid_concat :
    (∀ other ∈ before ++ [line], ¬ Text.IsBlankLine other) ↔
      (∀ other ∈ before, ¬ Text.IsBlankLine other) ∧ ¬ Text.IsBlankLine line := by
  rw [List.forall_mem_append, List.forall_mem_singleton]

/-- The first blank lines go on with every blank line. -/
lemma endsInGap_concat :
    EndsInGap (before ++ [line]) ↔
      Text.IsBlankLine line ∧ ((∀ other ∈ before, ¬ Text.IsBlankLine other) ∨ EndsInGap before) := by
  constructor
  · rintro ⟨statements, blanks, heq, hstatements, hne, hblanks⟩
    obtain ⟨blanks, last, rfl⟩ := (List.eq_nil_or_concat' blanks).resolve_left hne
    rw [← List.append_assoc] at heq
    obtain ⟨rfl, hlast⟩ := List.append_inj' heq rfl
    obtain rfl := List.singleton_inj.1 hlast
    rw [List.forall_mem_append, List.forall_mem_singleton] at hblanks
    refine ⟨hblanks.2, ?_⟩
    by_cases hnil : blanks = []
    · subst hnil
      exact .inl (by rwa [List.append_nil])
    · exact .inr ⟨statements, blanks, rfl, hstatements, hnil, hblanks.1⟩
  · rintro ⟨hline, hbefore | ⟨statements, blanks, rfl, hstatements, -, hblanks⟩⟩
    · exact ⟨before, [line], rfl, hbefore, List.cons_ne_nil _ _, List.forall_mem_singleton.2 hline⟩
    · refine ⟨statements, blanks ++ [line], List.append_assoc _ _ _, hstatements, by simp, ?_⟩
      exact List.forall_mem_append.2 ⟨hblanks, List.forall_mem_singleton.2 hline⟩

/-- A separator has been passed with one more line if it was before, or if the line is one that is read. -/
lemma isSeparated_concat :
    IsSeparated (before ++ [line]) ↔
      IsSeparated before ∨ IsSeparatorWord line ∧ ¬ EndsInGap before := by
  constructor
  · rintro ⟨front, word, behind, heq, hword, hfront⟩
    by_cases hnil : behind = []
    · subst hnil
      obtain ⟨rfl, hlast⟩ := List.append_inj' heq rfl
      obtain rfl := List.singleton_inj.1 hlast
      exact .inr ⟨hword, hfront⟩
    · obtain ⟨behind, last, rfl⟩ := (List.eq_nil_or_concat' behind).resolve_left hnil
      rw [← List.cons_append, ← List.append_assoc] at heq
      obtain ⟨rfl, -⟩ := List.append_inj' heq rfl
      exact .inl ⟨front, word, behind, rfl, hword, hfront⟩
  · rintro (⟨front, word, behind, rfl, hword, hfront⟩ | ⟨hword, hfront⟩)
    · exact ⟨front, word, behind ++ [line], by simp, hword, hfront⟩
    · exact ⟨before, line, [], rfl, hword, hfront⟩

/-! ## The mistakes of a line -/

/-- The mistakes of a line that is not blank: none if it resumes the source, and otherwise those of a
statement of the code, or of the data once the source is separated. -/
def lineMistakes (separated resumes : Bool) (line : List Char) : List Mistake :=
  if resumes then [] else (statement (if separated then .data else .code) line).1

/-- The mistakes of a line between others. A blank line is one if it is the first and a statement stands
behind it. -/
def ownMistakes (before : List (List Char)) (line : List Char) (behind : List (List Char)) :
    List Mistake :=
  if Text.IsBlankLine line then
    if (∀ other ∈ before, ¬ Text.IsBlankLine other) ∧ ∃ other ∈ behind, ¬ Text.IsBlankLine other then
      [.blankLine]
    else []
  else lineMistakes (IsSeparated before) (EndsInGap before) line

/-- The diagnostics of lines that stand between others: the mistakes of each line, at its number. -/
def reportOf : (before lines behind : List (List Char)) → List Diagnostic
  | _, [], _ => []
  | before, line :: lines, behind =>
    (ownMistakes before line (lines ++ behind)).map (Diagnostic.mk (before.length + 1)) ++
      reportOf (before ++ [line]) lines behind

section Report

variable (before lines behind : List (List Char))

/-- Lines are reported one part after the other. -/
lemma reportOf_append (more : List (List Char)) :
    reportOf before (lines ++ more) behind =
      reportOf before lines (more ++ behind) ++ reportOf (before ++ lines) more behind := by
  induction lines generalizing before with
  | nil => rw [List.append_nil]; rfl
  | cons line lines ih =>
    rw [List.cons_append, reportOf, reportOf, ih, List.append_assoc, List.append_assoc,
      List.append_assoc, List.singleton_append]

variable {before lines behind}

/-- What is reported of lines is a mistake of one of them, at its number. -/
lemma exists_of_mem_reportOf {d : Diagnostic} (h : d ∈ reportOf before lines behind) :
    ∃ front line later, lines = front ++ line :: later ∧ d.line = before.length + front.length + 1 ∧
      d.mistake ∈ ownMistakes (before ++ front) line (later ++ behind) := by
  induction lines generalizing before with
  | nil => cases h
  | cons line lines ih =>
    rw [reportOf, List.mem_append] at h
    rcases h with h | h
    · obtain ⟨mistake, hmistake, rfl⟩ := List.mem_map.1 h
      exact ⟨[], line, lines, rfl, rfl, by rwa [List.append_nil]⟩
    · obtain ⟨front, other, later, rfl, hline, hmistake⟩ := ih h
      refine ⟨line :: front, other, later, rfl, ?_, ?_⟩
      · rw [hline, List.length_append, List.length_singleton, List.length_cons]
        omega
      · rwa [List.append_assoc, List.singleton_append] at hmistake

/-- The diagnostics of lines have the numbers of these lines. -/
lemma line_of_mem_reportOf {d : Diagnostic} (h : d ∈ reportOf before lines behind) :
    before.length < d.line ∧ d.line ≤ before.length + lines.length := by
  obtain ⟨front, line, later, rfl, hline, -⟩ := exists_of_mem_reportOf h
  rw [hline, List.length_append, List.length_cons]
  omega

/-- The report on a text is that on the lines up to some line, on this line, and on those behind it. -/
lemma reportOf_split (front : List (List Char)) (line : List Char) (later : List (List Char)) :
    reportOf [] (front ++ line :: later) [] =
      reportOf [] front (line :: later) ++
        ((ownMistakes front line later).map (Diagnostic.mk (front.length + 1)) ++
          reportOf (front ++ [line]) later []) := by
  rw [reportOf_append, List.append_nil, List.nil_append, reportOf, List.append_nil]

/-- What is reported at the number of a line are the mistakes of this line. -/
lemma filter_reportOf (front : List (List Char)) (line : List Char) (later : List (List Char)) :
    (reportOf [] (front ++ line :: later) []).filter (fun d => d.line = front.length + 1) =
      (ownMistakes front line later).map (Diagnostic.mk (front.length + 1)) := by
  have hfront : (reportOf [] front (line :: later)).filter
      (fun d => d.line = front.length + 1) = [] := by
    rw [List.filter_eq_nil_iff]
    intro d hd
    have := line_of_mem_reportOf hd
    simp only [List.length_nil, decide_eq_true_eq] at this ⊢
    omega
  have hlater : (reportOf (front ++ [line]) later []).filter
      (fun d => d.line = front.length + 1) = [] := by
    rw [List.filter_eq_nil_iff]
    intro d hd
    have := line_of_mem_reportOf hd
    simp only [List.length_append, List.length_singleton, decide_eq_true_eq] at this ⊢
    omega
  rw [reportOf_split, List.filter_append, List.filter_append, hfront, hlater, List.nil_append,
    List.append_nil, List.filter_eq_self]
  intro d hd
  obtain ⟨mistake, -, rfl⟩ := List.mem_map.1 hd
  exact decide_eq_true rfl

end Report

/-! ## The scan -/

/-- Behind the separator, and only there, the source is in its data. -/
lemma statement_snd (part : Part) (line : List Char) :
    (statement part line).2 = if IsSeparatorWord line then .data else part := by
  cases part with
  | code =>
    by_cases h : Text.capitals (Text.trim line) = separator
    · simp [statement, IsSeparatorWord, h]
    · simp [statement, IsSeparatorWord, h]
  | data => exact (ite_self _).symm

namespace Scan

/-- What the checker knows behind some lines. -/
structure Knows (s : Scan) (before : List (List Char)) : Prop where
  count : s.count = before.length
  part : s.part = if IsSeparated before then .data else .code
  unseen : s.gap = .unseen ↔ ∀ line ∈ before, ¬ Text.IsBlankLine line
  pending : (∃ first, s.gap = .pending first) ↔ EndsInGap before

/-- In front of the first line there is nothing to know. -/
lemma knows_start : Knows {} [] where
  count := rfl
  part := rfl
  unseen := by simp
  pending := by simp [endsInGap_iff]

/-- The checker knows it behind the next line too. -/
lemma Knows.next {s : Scan} (h : s.Knows before) (line : List Char) :
    (s.line line).Knows (before ++ [line]) := by
  have hcount : s.count + 1 = (before ++ [line]).length := by rw [h.count]; simp
  by_cases hblank : Text.IsBlankLine line
  · have hword : ¬ IsSeparatorWord line := fun hword => hword.not_blank hblank
    rw [line_of_blank hblank]
    refine ⟨hcount, ?_, ?_, ?_⟩
    · simp only [isSeparated_concat, hword, false_and, or_false, h.part]
    · rw [forall_solid_concat]
      refine iff_of_false ?_ fun hall => hall.2 hblank
      simp only
      split <;> simp_all
    · rw [endsInGap_concat, and_iff_right hblank, ← h.unseen, ← h.pending]
      simp only
      split
      · exact iff_of_true ⟨_, rfl⟩ (.inl ‹_›)
      · exact (or_iff_right ‹_›).symm
  · have hnot : ¬ EndsInGap (before ++ [line]) := fun hgap => hblank (endsInGap_concat.1 hgap).1
    by_cases hgap : EndsInGap before
    · obtain ⟨first, hfirst⟩ := h.pending.2 hgap
      rw [line_of_pending hblank hfirst]
      refine ⟨hcount, ?_, ?_, ?_⟩
      · simp only [isSeparated_concat, hgap, not_true, and_false, or_false, h.part]
      · have hseen : ¬ ∀ line ∈ before, ¬ Text.IsBlankLine line := by
          rw [← h.unseen, hfirst]
          nofun
        rw [forall_solid_concat]
        exact iff_of_false nofun fun hall => hseen hall.1
      · exact iff_of_false nofun hnot
    · have hpending : ∀ first, s.gap ≠ .pending first :=
        fun first hfirst => hgap (h.pending.1 ⟨first, hfirst⟩)
      rw [line_of_not_blank hblank hpending]
      refine ⟨hcount, ?_, ?_, ?_⟩
      · simp only [statement_snd, isSeparated_concat, hgap, not_false_iff, and_true, h.part]
        by_cases hword : IsSeparatorWord line <;> simp [hword]
      · rw [forall_solid_concat, and_iff_left hblank]
        exact h.unseen
      · exact iff_of_false (fun ⟨first, hfirst⟩ => hpending first hfirst) hnot

/-- The diagnostic that the checker still owes for a blank line. -/
def owed (s : Scan) (lines : List (List Char)) : List Diagnostic :=
  match s.gap with
  | .pending first =>
    if ∃ line ∈ lines, ¬ Text.IsBlankLine line then [⟨first, .blankLine⟩] else []
  | _ => []

/-- What is found up to a line, and what is owed behind it, is what has been found and owed before it,
and the mistakes of the line. -/
lemma found_line_owed {s : Scan} (h : s.Knows before) (line : List Char) (rest : List (List Char)) :
    (s.line line).found.toList ++ (s.line line).owed rest =
      s.found.toList ++ (s.owed (line :: rest) ++
        (ownMistakes before line rest).map (Diagnostic.mk (before.length + 1))) := by
  rw [ownMistakes]
  by_cases hblank : Text.IsBlankLine line
  · have hrest : (∃ other ∈ line :: rest, ¬ Text.IsBlankLine other) ↔
        ∃ other ∈ rest, ¬ Text.IsBlankLine other := by
      simp [hblank]
    rw [if_pos hblank, line_of_blank hblank]
    cases hgap : s.gap with
    | unseen =>
      -- The first blank line becomes a debt.
      have hsolid := h.unseen.1 hgap
      simp only [owed, hgap, if_true, h.count, List.nil_append, and_iff_right hsolid]
      split <;> rfl
    | pending first =>
      have hseen : ¬ ∀ line ∈ before, ¬ Text.IsBlankLine line := by
        rw [← h.unseen, hgap]
        nofun
      simp only [owed, hgap, reduceCtorEq, if_false, hseen, false_and, List.map_nil, List.append_nil,
        hrest]
    | reported =>
      have hseen : ¬ ∀ line ∈ before, ¬ Text.IsBlankLine line := by
        rw [← h.unseen, hgap]
        nofun
      simp only [owed, hgap, reduceCtorEq, if_false, hseen, false_and, List.map_nil, List.append_nil]
  · rw [if_neg hblank, lineMistakes]
    by_cases hgap : EndsInGap before
    · -- The statement pays the debt.
      obtain ⟨first, hfirst⟩ := h.pending.2 hgap
      have hrest : ∃ other ∈ line :: rest, ¬ Text.IsBlankLine other :=
        ⟨line, List.mem_cons_self, hblank⟩
      rw [line_of_pending hblank hfirst]
      simp only [owed, hfirst, if_pos hrest, hgap, decide_true, if_true, List.map_nil, List.append_nil,
        Array.toList_push]
    · have hpending : ∀ first, s.gap ≠ .pending first :=
        fun first hfirst => hgap (h.pending.1 ⟨first, hfirst⟩)
      have hnothing : ∀ lines, s.owed lines = [] := by
        intro lines
        rw [owed]
        split
        · exact absurd ‹_› (hpending _)
        · rfl
      have hlater : (s.line line).owed rest = [] := by
        rw [line_of_not_blank hblank hpending]
        exact hnothing rest
      rw [hlater, hnothing, line_of_not_blank hblank hpending]
      simp [hgap, h.count, h.part]

/-- **What is found in lines.** It is what has been found before them, what is owed for a blank line
before them, and the mistakes of each of them. -/
lemma found_foldl {s : Scan} (h : s.Knows before) (lines : List (List Char)) :
    (lines.foldl Scan.line s).found.toList =
      s.found.toList ++ (s.owed lines ++ reportOf before lines []) := by
  induction lines generalizing s before with
  | nil =>
    have howed : s.owed [] = [] := by
      rw [owed]
      split <;> simp
    rw [howed]
    exact (List.append_nil _).symm
  | cons line rest ih =>
    rw [List.foldl_cons, ih (h.next line), reportOf, ← List.append_assoc, found_line_owed h,
      List.append_nil]
    simp only [List.append_assoc]

end Scan

/-- **The report lists the mistakes of each line**, one line after the other. -/
theorem check_diagnostics (source : List Char) :
    (check source).diagnostics = reportOf [] (Text.lines source) [] :=
  Scan.found_foldl Scan.knows_start (Text.lines source)

end AccumulatorMachine.Source

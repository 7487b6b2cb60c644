import AccumulatorMachine.Proofs.BlankLines
import AccumulatorMachine.Proofs.ReportByLines

/-!
# The order of a report

A report lists its diagnostics by the numbers of the lines, although the checker reports a blank line late:
it goes back to the number of the first blank line when it comes upon the statement behind. No other
diagnostic can come in between. Blank lines have none, and the statement itself is passed over.

A line has at most three mistakes, and of different kinds: blanks in front of it, the spelling of its first
token, and its content.

## Main definitions

* `Source.OneOfEachKind` — mistakes that one line can have.
* `Source.InLineOrder` — a report that lists its diagnostics by lines.

## Main results

* `Source.oneOfEachKind_statement` — a statement has at most one mistake of each kind.
* `Source.pairwise_reportOf`, `Source.nodup_reportOf` — diagnostics by lines, and none twice.
* `Source.Break.filter_blankLine` — the first blank line with a statement behind it is reported, once.
* `Source.Report.summary_of_pairwise` — the first and the last diagnostic have the outermost lines.
* `Source.check_inLineOrder` — every report is in line order.
-/

set_option autoImplicit false

namespace AccumulatorMachine.Source

/-! ## The mistakes of one line -/

/-- The mistakes in the letter case or the number of separators and mnemonics. -/
def spellingMistakes : List Mistake := [.separatorCase, .secondSeparator, .mnemonicCase]

/-- The mistakes in what a statement says. -/
def contentMistakes : List Mistake :=
  [.unknownMnemonic, .unexpectedArgument, .tooManyArguments, .missingArgument, .argumentNotHex,
    .dataLength, .dataNotHex]

/-- The mistakes that one statement can have: blanks in front of it, its spelling, and its content, and
at most one mistake of each kind. -/
def OneOfEachKind (mistakes : List Mistake) : Prop :=
  ∃ spelling ∈ spellingMistakes, ∃ content ∈ contentMistakes,
    mistakes.Sublist [.leadingSpace, spelling, content]

/-- There are three kinds of them. -/
lemma OneOfEachKind.length_le {mistakes : List Mistake} (h : OneOfEachKind mistakes) :
    mistakes.length ≤ 3 := by
  obtain ⟨_, -, _, -, hsublist⟩ := h
  exact hsublist.length_le

/-- No mistake is of two kinds, so none is there twice. -/
lemma OneOfEachKind.nodup {mistakes : List Mistake} (h : OneOfEachKind mistakes) :
    mistakes.Nodup := by
  obtain ⟨spelling, hspelling, content, hcontent, hsublist⟩ := h
  have hnodup : ∀ spelling ∈ spellingMistakes, ∀ content ∈ contentMistakes,
      [Mistake.leadingSpace, spelling, content].Nodup := by
    decide
  exact hsublist.nodup (hnodup spelling hspelling content hcontent)

/-- No statement is a blank line, and none is the reason that a source cannot be read. -/
lemma OneOfEachKind.ne {mistakes : List Mistake} (h : OneOfEachKind mistakes) :
    ∀ mistake ∈ mistakes, mistake ≠ .blankLine ∧ ∀ reason, mistake ≠ .unreadable reason := by
  obtain ⟨spelling, hspelling, content, hcontent, hsublist⟩ := h
  intro mistake hmistake
  have hall : mistake ∈ .leadingSpace :: (spellingMistakes ++ contentMistakes) := by
    rcases List.mem_cons.1 (hsublist.mem hmistake) with rfl | hmistake
    · exact List.mem_cons_self
    · refine List.mem_cons_of_mem _ (List.mem_append.2 ?_)
      rcases List.mem_cons.1 hmistake with rfl | hmistake
      · exact .inl hspelling
      · exact .inr (List.mem_singleton.1 hmistake ▸ hcontent)
  simp only [spellingMistakes, contentMistakes, List.cons_append, List.nil_append, List.mem_cons,
    List.not_mem_nil, or_false] at hall
  rcases hall with rfl | rfl | rfl | rfl | rfl | rfl | rfl | rfl | rfl | rfl | rfl <;>
    exact ⟨nofun, nofun⟩

/-- What is among some mistakes in either case is among them. -/
lemma ite_sublist {p : Prop} [Decidable p] {found other all : List Mistake} (h : found.Sublist all)
    (hother : other.Sublist all) : (if p then found else other).Sublist all := by
  split
  · exact h
  · exact hother

/-- In front of a statement there is at most one mistake. -/
lemma sublist_leadingMistakes (line : List Char) :
    (leadingMistakes line).Sublist [.leadingSpace] :=
  ite_sublist (.refl _) (List.nil_sublist _)

/-- The arguments of an operation have at most one mistake. -/
lemma exists_sublist_argumentMistakes (op : Operation) (arguments : List (List Char)) :
    ∃ content ∈ contentMistakes, (argumentMistakes op arguments).Sublist [content] := by
  unfold argumentMistakes
  split
  · split
    · exact ⟨.missingArgument, by decide, .refl _⟩
    · exact ⟨.argumentNotHex, by decide, ite_sublist (List.nil_sublist _) (.refl _)⟩
    · exact ⟨.tooManyArguments, by decide, .refl _⟩
  · exact ⟨.unexpectedArgument, by decide, ite_sublist (List.nil_sublist _) (.refl _)⟩

/-- A code statement is misspelled at most, and wrong in one thing at most. -/
lemma exists_sublist_codeMistakes (tokens : List (List Char)) :
    ∃ content ∈ contentMistakes, (codeMistakes tokens).Sublist [.mnemonicCase, content] := by
  cases tokens with
  | nil => exact ⟨.unknownMnemonic, by decide, List.nil_sublist _⟩
  | cons name arguments =>
    cases hop : Operation.ofMnemonic? (Text.capitals name) with
    | none =>
      simp only [codeMistakes, hop]
      exact ⟨.unknownMnemonic, by decide, List.sublist_cons_self _ _⟩
    | some op =>
      simp only [codeMistakes, hop]
      obtain ⟨content, hcontent, hsublist⟩ := exists_sublist_argumentMistakes op arguments
      have hcase : (if name = Text.capitals name then [] else [.mnemonicCase]).Sublist
          [Mistake.mnemonicCase] :=
        ite_sublist (List.nil_sublist _) (.refl _)
      exact ⟨content, hcontent, hcase.append hsublist⟩

/-- A data statement is wrong in one thing at most. -/
lemma exists_sublist_dataMistakes (tokens : List (List Char)) :
    ∃ content ∈ contentMistakes, (dataMistakes tokens).Sublist [content] := by
  unfold dataMistakes
  split
  · exact ⟨.dataNotHex, by decide, ite_sublist (List.nil_sublist _) (.refl _)⟩
  · exact ⟨.dataLength, by decide, .refl _⟩

/-- A statement has at most one mistake of each kind. -/
lemma oneOfEachKind_statement (part : Part) (line : List Char) :
    OneOfEachKind (statement part line).1 := by
  have hleading := sublist_leadingMistakes line
  cases part with
  | code =>
    by_cases hseparator : Text.capitals (Text.trim line) = separator
    · have hcase : (if Text.trim line = separator then [] else [.separatorCase]).Sublist
          [Mistake.separatorCase, .unknownMnemonic] :=
        ite_sublist (List.nil_sublist _) (.cons_cons _ (List.nil_sublist _))
      simp only [statement, hseparator, if_true]
      exact ⟨.separatorCase, by decide, .unknownMnemonic, by decide, hleading.append hcase⟩
    · simp only [statement, hseparator, if_false]
      obtain ⟨content, hcontent, hsublist⟩ := exists_sublist_codeMistakes (Text.fields line)
      exact ⟨.mnemonicCase, by decide, content, hcontent, hleading.append hsublist⟩
  | data =>
    simp only [statement, List.append_assoc]
    obtain ⟨content, hcontent, hsublist⟩ := exists_sublist_dataMistakes (Text.fields line)
    have hsecond : (if Text.capitals (Text.trim line) = separator then [.secondSeparator]
        else []).Sublist [Mistake.secondSeparator] :=
      ite_sublist (.refl _) (List.nil_sublist _)
    exact ⟨.secondSeparator, by decide, content, hcontent,
      hleading.append (hsecond.append hsublist)⟩

/-- A line is the first blank one in front of a statement, or has the mistakes of a statement. -/
lemma ownMistakes_cases (before : List (List Char)) (line : List Char) (behind : List (List Char)) :
    ownMistakes before line behind = [.blankLine] ∧ Text.IsBlankLine line ∧
        (∀ other ∈ before, ¬ Text.IsBlankLine other) ∧ (∃ other ∈ behind, ¬ Text.IsBlankLine other) ∨
      OneOfEachKind (ownMistakes before line behind) := by
  have hnone : OneOfEachKind [] :=
    ⟨.separatorCase, by decide, .unknownMnemonic, by decide, List.nil_sublist _⟩
  rw [ownMistakes]
  split
  · rename_i hblank
    split
    · rename_i hfirst
      exact .inl ⟨rfl, hblank, hfirst⟩
    · exact .inr hnone
  · rw [lineMistakes]
    split
    · exact .inr hnone
    · exact .inr (oneOfEachKind_statement _ line)

section Own

variable {before behind : List (List Char)} {line : List Char}

/-- A line has at most three mistakes. -/
lemma length_ownMistakes_le : (ownMistakes before line behind).length ≤ 3 := by
  rcases ownMistakes_cases before line behind with ⟨heq, -⟩ | h
  · rw [heq, List.length_singleton]
    omega
  · exact h.length_le

/-- It has none of them twice. -/
lemma nodup_ownMistakes : (ownMistakes before line behind).Nodup := by
  rcases ownMistakes_cases before line behind with ⟨heq, -⟩ | h
  · rw [heq]
    exact List.nodup_singleton _
  · exact h.nodup

/-- No line is the reason that a source cannot be read. -/
lemma ne_unreadable_of_mem_ownMistakes {mistake : Mistake}
    (h : mistake ∈ ownMistakes before line behind) (reason : String) :
    mistake ≠ .unreadable reason := by
  rcases ownMistakes_cases before line behind with ⟨heq, -⟩ | hkinds
  · rw [heq, List.mem_singleton] at h
    rw [h]
    nofun
  · exact (hkinds.ne mistake h).2 reason

/-- Only the first blank line in front of a statement is reported as such. -/
lemma blankLine_mem_ownMistakes_iff :
    .blankLine ∈ ownMistakes before line behind ↔ Text.IsBlankLine line ∧
      (∀ other ∈ before, ¬ Text.IsBlankLine other) ∧ ∃ other ∈ behind, ¬ Text.IsBlankLine other := by
  constructor
  · intro hmem
    rcases ownMistakes_cases before line behind with ⟨-, h⟩ | h
    · exact h
    · exact absurd rfl (h.ne _ hmem).1
  · rintro ⟨hblank, hfirst⟩
    rw [ownMistakes, if_pos hblank, if_pos hfirst]
    exact List.mem_singleton_self _

end Own

/-! ## The lines of a report -/

section Report

variable (before lines behind : List (List Char))

/-- The diagnostics have the order of the lines. -/
lemma pairwise_reportOf :
    (reportOf before lines behind).Pairwise fun a b => a.line ≤ b.line := by
  induction lines generalizing before with
  | nil => exact .nil
  | cons line lines ih =>
    rw [reportOf, List.pairwise_append, List.pairwise_map]
    refine ⟨List.pairwise_of_forall fun _ _ => le_rfl, ih _, fun a ha b hb => ?_⟩
    obtain ⟨_, -, rfl⟩ := List.mem_map.1 ha
    have hline := (line_of_mem_reportOf hb).1
    rw [List.length_append, List.length_singleton] at hline
    exact hline.le

/-- No diagnostic is reported twice. -/
lemma nodup_reportOf : (reportOf before lines behind).Nodup := by
  induction lines generalizing before with
  | nil => exact .nil
  | cons line lines ih =>
    rw [reportOf, List.nodup_append]
    refine ⟨nodup_ownMistakes.map fun _ _ h => (Diagnostic.mk.inj h).2, ih _, fun a ha b hb => ?_⟩
    obtain ⟨_, -, rfl⟩ := List.mem_map.1 ha
    have hline := (line_of_mem_reportOf hb).1
    rw [List.length_append, List.length_singleton] at hline
    rintro rfl
    exact lt_irrefl _ hline

/-- What is reported at some number are the mistakes of one line, if it is anything. -/
lemma length_filter_reportOf_le (number : Nat) :
    ((reportOf [] lines []).filter fun d => d.line = number).length ≤ 3 := by
  by_cases hnone : (reportOf [] lines []).filter (fun d => d.line = number) = []
  · rw [hnone, List.length_nil]
    omega
  · obtain ⟨d, hd⟩ := List.exists_mem_of_ne_nil _ hnone
    obtain ⟨hd, hnumber⟩ := List.mem_filter.1 hd
    obtain ⟨front, line, later, rfl, hline, -⟩ := exists_of_mem_reportOf hd
    have hnumber : number = front.length + 1 := by
      rw [← of_decide_eq_true hnumber, hline, List.length_nil, Nat.zero_add]
    rw [hnumber, filter_reportOf, List.length_map]
    exact length_ownMistakes_le

/-- There are no diagnostics of a kind that no line has a mistake of. -/
lemma filter_reportOf_eq_nil {mistake : Mistake}
    (h : ∀ front line later, lines = front ++ line :: later →
      mistake ∉ ownMistakes (before ++ front) line (later ++ behind)) :
    (reportOf before lines behind).filter (fun d => d.mistake = mistake) = [] := by
  rw [List.filter_eq_nil_iff]
  intro d hd hmistake
  obtain ⟨front, line, later, hlines, -, hmem⟩ := exists_of_mem_reportOf hd
  rw [of_decide_eq_true hmistake] at hmem
  exact h front line later hlines hmem

end Report

/-! ## Blank lines -/

/-- If no statement stands behind a blank line, no blank line is reported. -/
lemma ne_blankLine_of_pairwise {lines : List (List Char)}
    (h : lines.Pairwise fun a b => Text.IsBlankLine a → Text.IsBlankLine b) :
    ∀ d ∈ reportOf [] lines [], d.mistake ≠ .blankLine := by
  intro d hd hmistake
  obtain ⟨front, line, later, rfl, -, hmem⟩ := exists_of_mem_reportOf hd
  rw [hmistake, blankLine_mem_ownMistakes_iff, List.append_nil] at hmem
  obtain ⟨hblank, -, other, hother, hsolid⟩ := hmem
  have hlater := (List.pairwise_cons.1 (List.pairwise_append.1 h).2.1).1
  exact hsolid (hlater other hother hblank)

namespace Break

variable {lines : List (List Char)} (b : Break lines)

/-- The number of the statement that is passed over. -/
def resumedNumber : Nat := b.front.length + b.blanks.length + 1

/-- The first blank line is reported as one, and no other line is. -/
lemma filter_blankLine :
    (reportOf [] lines []).filter (fun d => d.mistake = .blankLine) = [⟨b.number, .blankLine⟩] := by
  obtain ⟨first, blanks, hblanks⟩ := List.exists_cons_of_ne_nil b.blanks_ne_nil
  have hfirst : Text.IsBlankLine first :=
    b.blanks_blank first (by rw [hblanks]; exact List.mem_cons_self)
  have hlines : lines = b.front ++ first :: (blanks ++ b.resumed :: b.later) := by
    conv_lhs => rw [b.eq_append, hblanks, List.cons_append]
  have hresumed : ∃ other ∈ blanks ++ b.resumed :: b.later, ¬ Text.IsBlankLine other :=
    ⟨b.resumed, by simp, b.resumed_solid⟩
  -- No line in front is blank, and every line behind has a blank one in front of it.
  have hfront : (reportOf [] b.front (first :: (blanks ++ b.resumed :: b.later))).filter
      (fun d => d.mistake = .blankLine) = [] := by
    refine filter_reportOf_eq_nil _ _ _ fun front line later hsplit hmem => ?_
    refine b.front_solid line ?_ (blankLine_mem_ownMistakes_iff.1 hmem).1
    rw [hsplit]
    exact List.mem_append_right _ List.mem_cons_self
  have hlater : (reportOf (b.front ++ [first]) (blanks ++ b.resumed :: b.later) []).filter
      (fun d => d.mistake = .blankLine) = [] := by
    refine filter_reportOf_eq_nil _ _ _ fun front line later _ hmem => ?_
    exact (blankLine_mem_ownMistakes_iff.1 hmem).2.1 first (by simp) hfirst
  conv_lhs => rw [hlines]
  rw [reportOf_split, List.filter_append, List.filter_append, hfront, hlater, ownMistakes,
    if_pos hfirst, if_pos ⟨b.front_solid, hresumed⟩]
  rfl

/-- The statement behind the first blank lines is passed over. -/
lemma line_ne_resumedNumber : ∀ d ∈ reportOf [] lines [], d.line ≠ b.resumedNumber := by
  have hgap : EndsInGap (b.front ++ b.blanks) :=
    ⟨b.front, b.blanks, rfl, b.front_solid, b.blanks_ne_nil, b.blanks_blank⟩
  have hnone : ownMistakes (b.front ++ b.blanks) b.resumed b.later = [] := by
    rw [ownMistakes, if_neg b.resumed_solid, lineMistakes, if_pos (decide_eq_true hgap)]
  have hlines : lines = (b.front ++ b.blanks) ++ b.resumed :: b.later := by
    conv_lhs => rw [b.eq_append, ← List.append_assoc]
  have hfilter := filter_reportOf (b.front ++ b.blanks) b.resumed b.later
  rw [hnone, ← hlines, List.map_nil, List.filter_eq_nil_iff, List.length_append] at hfilter
  exact fun d hd hline => hfilter d hd (decide_eq_true hline)

end Break

/-! ## The summary -/

namespace Report

variable {r : Report}

/-- The numbers of the lines that have a diagnostic. -/
def diagnosed (r : Report) : Set Nat := {number | ∃ d ∈ r.diagnostics, d.line = number}

/-- The first and the last of ordered diagnostics have the outermost lines. -/
lemma summary_of_pairwise (hne : r.diagnostics ≠ [])
    (horder : r.diagnostics.Pairwise fun a b => a.line ≤ b.line) :
    ∃ first last, r.firstLine = some first ∧ r.lastLine = some last ∧
      IsLeast r.diagnosed first ∧ IsGreatest r.diagnosed last := by
  refine ⟨(r.diagnostics.head hne).line, (r.diagnostics.getLast hne).line, ?_, ?_,
    ⟨⟨_, List.head_mem hne, rfl⟩, ?_⟩, ⟨⟨_, List.getLast_mem hne, rfl⟩, ?_⟩⟩
  · rw [firstLine, List.head?_eq_some_head hne]
    rfl
  · rw [lastLine, List.getLast?_eq_some_getLast hne]
    rfl
  · rintro _ ⟨d, hd, rfl⟩
    exact horder.rel_head_of_rel_head_head hd le_rfl
  · rintro _ ⟨d, hd, rfl⟩
    exact horder.rel_getLast_of_rel_getLast_getLast hd le_rfl

/-- A report on a source that can be read names the first line. -/
lemma status_of_firstLine {first : Nat} (hfirst : r.firstLine = some first)
    (hread : ∀ d ∈ r.diagnostics, ∀ reason, d.mistake ≠ .unreadable reason) :
    r.status = .error first := by
  have hreadable : r.isUnreadable = false := by
    rw [isUnreadable, List.any_eq_false]
    intro d hd
    split
    · rename_i reason hmistake
      exact absurd hmistake (hread d hd reason)
    · exact Bool.false_ne_true
  rw [status, hreadable, hfirst]
  rfl

end Report

/-! ## Every report -/

/-- A report that lists its diagnostics by the lines of a source. -/
structure InLineOrder (lines : List (List Char)) (r : Report) : Prop where
  ordered : r.diagnostics.Pairwise fun a b => a.line ≤ b.line
  inside : ∀ d ∈ r.diagnostics, 1 ≤ d.line ∧ d.line ≤ lines.length
  /-- No line has more than three. -/
  few : ∀ number, (r.diagnostics.filter fun d => d.line = number).length ≤ 3
  distinct : r.diagnostics.Nodup
  /-- Without a statement behind a blank line, no blank line is reported. -/
  no_blank : lines.Pairwise (fun a b => Text.IsBlankLine a → Text.IsBlankLine b) →
    ∀ d ∈ r.diagnostics, d.mistake ≠ .blankLine
  /-- Otherwise the first blank line is, once, and the statement behind it has no diagnostic. -/
  one_blank : ¬ lines.Pairwise (fun a b => Text.IsBlankLine a → Text.IsBlankLine b) →
    ∃ b : Break lines,
      r.diagnostics.filter (fun d => d.mistake = .blankLine) = [⟨b.number, .blankLine⟩] ∧
      ∀ d ∈ r.diagnostics, d.line ≠ b.resumedNumber
  /-- The summary names the outermost lines. -/
  summary : r.diagnostics ≠ [] →
    ∃ first last, r.firstLine = some first ∧ r.lastLine = some last ∧
      IsLeast r.diagnosed first ∧ IsGreatest r.diagnosed last ∧ r.status = .error first

/-- **Every report lists its diagnostics by lines.** -/
theorem check_inLineOrder (source : List Char) :
    InLineOrder (Text.lines source) (check source) := by
  have hreport := check_diagnostics source
  have hordered := pairwise_reportOf [] (Text.lines source) []
  rw [← hreport] at hordered
  have hread : ∀ d ∈ (check source).diagnostics, ∀ reason, d.mistake ≠ .unreadable reason := by
    intro d hd reason
    rw [hreport] at hd
    obtain ⟨_, _, _, -, -, hmem⟩ := exists_of_mem_reportOf hd
    exact ne_unreadable_of_mem_ownMistakes hmem reason
  refine ⟨hordered, fun d hd => ?_, fun number => ?_, ?_, fun hpairwise => ?_, fun hbehind => ?_,
    fun hne => ?_⟩
  · rw [hreport] at hd
    have hline := line_of_mem_reportOf hd
    rw [List.length_nil, Nat.zero_add] at hline
    exact hline
  · rw [hreport]
    exact length_filter_reportOf_le _ number
  · rw [hreport]
    exact nodup_reportOf _ _ _
  · rw [hreport]
    exact ne_blankLine_of_pairwise hpairwise
  · obtain ⟨b⟩ := exists_break hbehind
    rw [hreport]
    exact ⟨b, b.filter_blankLine, b.line_ne_resumedNumber⟩
  · obtain ⟨first, last, hfirst, hlast, hleast, hgreatest⟩ :=
      Report.summary_of_pairwise hne hordered
    exact ⟨first, last, hfirst, hlast, hleast, hgreatest, Report.status_of_firstLine hfirst hread⟩

/-- A blank line is reported at its number when the statement behind it is read, and before the mistakes
of later lines. -/
example : (check " HALT 1\n\nADD\nadd".toList).diagnostics =
    [⟨1, .leadingSpace⟩, ⟨1, .unexpectedArgument⟩, ⟨2, .blankLine⟩, ⟨4, .mnemonicCase⟩,
      ⟨4, .missingArgument⟩] := by
  decide +kernel

end AccumulatorMachine.Source
